import Mathlib.Logic.Function.Basic
import Mathlib.Tactic.Common

/-! Programs over an explicit state, as the tree of their atomic steps.

A step may carry a label, changes the state, and decides from the state it found
how to go on. Run alone, a program returns a value or stops with a reason, and in
both cases leaves a state behind: the effects made before an early exit are not
undone. `wp` is the weakest precondition of such a run, with one postcondition for
a returned value and one for an early exit. -/

namespace Lib

/-- A computation over `σ` that returns an `α` or stops with an `ε`. `next` is given
the state the step started in. -/
inductive Prog (ℓ σ ε α : Type) : Type where
  | finish (result : Except ε α)
  | act (label : Option ℓ) (effect : σ → σ) (next : σ → Prog ℓ σ ε α)

namespace Prog

variable {ℓ σ ε α β δ : Type}

protected def pure (a : α) : Prog ℓ σ ε α := finish (.ok a)

/-- Stop here; the effects made so far remain. -/
def fail (e : ε) : Prog ℓ σ ε α := finish (.error e)

protected def bind : Prog ℓ σ ε α → (α → Prog ℓ σ ε β) → Prog ℓ σ ε β
  | finish (.ok a), f => f a
  | finish (.error e), _ => finish (.error e)
  | act label effect next, f => act label effect fun s => (next s).bind f

instance : Monad (Prog ℓ σ ε) where
  pure := Prog.pure
  bind := Prog.bind

theorem bind_assoc (m : Prog ℓ σ ε α) (f : α → Prog ℓ σ ε β) (g : β → Prog ℓ σ ε δ) :
    m >>= f >>= g = m >>= fun a => f a >>= g := by
  induction m with
  | finish result => cases result <;> rfl
  | act label effect next ih => exact congrArg (act label effect) (funext ih)

theorem bind_pure (m : Prog ℓ σ ε α) : m >>= pure = m := by
  induction m with
  | finish result => cases result <;> rfl
  | act label effect next ih => exact congrArg (act label effect) (funext ih)

theorem ite_bind {c : Prop} [Decidable c] (m n : Prog ℓ σ ε α) (f : α → Prog ℓ σ ε β) :
    (if c then m else n) >>= f = if c then m >>= f else n >>= f :=
  apply_ite (· >>= f) c m n

instance : LawfulMonad (Prog ℓ σ ε) :=
  .mk' _ bind_pure (fun _ _ => rfl) bind_assoc

def get : Prog ℓ σ ε σ := act none id fun s => finish (.ok s)

/-- Read a part of the state. -/
def gets (f : σ → α) : Prog ℓ σ ε α := act none id fun s => finish (.ok (f s))

def modify (f : σ → σ) : Prog ℓ σ ε Unit := act none f fun _ => finish (.ok ())

/-- A step that an observer can tell from the others. -/
def visible (label : ℓ) (effect : σ → σ) (value : σ → Except ε α) : Prog ℓ σ ε α :=
  act (some label) effect fun s => finish (value s)

/-- Stop with `e` when `c` holds. -/
def rejectIf (c : Prop) [Decidable c] (e : ε) : Prog ℓ σ ε Unit :=
  if c then fail e else Prog.pure ()

/-- Turn the early exits that `select` recognises into a returned value. -/
def attempt (select : ε → Option δ) : Prog ℓ σ ε α → Prog ℓ σ ε (Except δ α)
  | finish (.ok a) => finish (.ok (.ok a))
  | finish (.error e) =>
    match select e with
    | some d => finish (.ok (.error d))
    | none => finish (.error e)
  | act label effect next => act label effect fun s => attempt select (next s)

/-- Run the program and change the state on every way out. -/
def onExit (cleanup : σ → σ) : Prog ℓ σ ε α → Prog ℓ σ ε α
  | finish result => act none cleanup fun _ => finish result
  | act label effect next => act label effect fun s => onExit cleanup (next s)

/-- Run `m` and put back, on every exit, what `restore` takes from the first state. -/
def bracket (restore : σ → σ → σ) (m : Prog ℓ σ ε α) : Prog ℓ σ ε α :=
  act none id fun s => m.onExit (restore s)

/-- Run `f i`, `f (i + 1)`, ..., `k` times in all. -/
def times : Nat → Nat → (Nat → Prog ℓ σ ε Unit) → Prog ℓ σ ε Unit
  | 0, _, _ => Prog.pure ()
  | k + 1, i, f => Prog.bind (f i) fun _ => times k (i + 1) f

/-- The outcome of a program that runs alone, and the state it leaves. -/
def run : Prog ℓ σ ε α → σ → Except ε α × σ
  | finish result, s => (result, s)
  | act _ effect next, s => (next s).run (effect s)

/-! ### Runs of the constructors -/

theorem bind_run (m : Prog ℓ σ ε α) (f : α → Prog ℓ σ ε β) (s : σ) :
    (m >>= f).run s = match m.run s with
      | (.ok a, t) => (f a).run t
      | (.error e, t) => (.error e, t) := by
  induction m generalizing s with
  | finish result => cases result <;> rfl
  | act label effect next ih => exact ih s (effect s)

theorem bind_run_of_ok {m : Prog ℓ σ ε α} {a : α} {s t : σ} (returned : m.run s = (.ok a, t))
    (f : α → Prog ℓ σ ε β) : (m >>= f).run s = (f a).run t := by
  rw [bind_run, returned]

theorem bind_run_of_error {m : Prog ℓ σ ε α} {e : ε} {s t : σ} (stopped : m.run s = (.error e, t))
    (f : α → Prog ℓ σ ε β) : (m >>= f).run s = (.error e, t) := by
  rw [bind_run, stopped]

theorem attempt_run (select : ε → Option δ) (m : Prog ℓ σ ε α) (s : σ) :
    (attempt select m).run s = match m.run s with
      | (.ok a, t) => (.ok (.ok a), t)
      | (.error e, t) =>
        match select e with
        | some d => (.ok (.error d), t)
        | none => (.error e, t) := by
  induction m generalizing s with
  | finish result =>
    cases result with
    | ok a => rfl
    | error e =>
      simp only [attempt, run]
      cases select e <;> rfl
  | act label effect next ih => exact ih s (effect s)

theorem onExit_run (cleanup : σ → σ) (m : Prog ℓ σ ε α) (s : σ) :
    (m.onExit cleanup).run s = ((m.run s).1, cleanup (m.run s).2) := by
  induction m generalizing s with
  | finish result => rfl
  | act label effect next ih => exact ih s (effect s)

/-! ### Weakest preconditions -/

/-- Every outcome of `m` from `s` meets its postcondition. Programs are total,
so this is total correctness. -/
def wp (m : Prog ℓ σ ε α) (ok : α → σ → Prop) (err : ε → σ → Prop) (s : σ) : Prop :=
  match m.run s with
  | (.ok a, t) => ok a t
  | (.error e, t) => err e t

variable {ok ok' : α → σ → Prop} {err err' : ε → σ → Prop} {s : σ}

@[simp] theorem wp_pure (a : α) : wp (pure a : Prog ℓ σ ε α) ok err s ↔ ok a s := Iff.rfl

@[simp] theorem wp_fail (e : ε) : wp (fail e : Prog ℓ σ ε α) ok err s ↔ err e s := Iff.rfl

@[simp] theorem wp_get {ok : σ → σ → Prop} :
    wp (get : Prog ℓ σ ε σ) ok err s ↔ ok s s := Iff.rfl

@[simp] theorem wp_gets (f : σ → α) :
    wp (gets f : Prog ℓ σ ε α) ok err s ↔ ok (f s) s := Iff.rfl

@[simp] theorem wp_modify (f : σ → σ) {ok : Unit → σ → Prop} :
    wp (modify f : Prog ℓ σ ε Unit) ok err s ↔ ok () (f s) := Iff.rfl

theorem wp_act (label : Option ℓ) (effect : σ → σ) (next : σ → Prog ℓ σ ε α) :
    wp (act label effect next) ok err s ↔ wp (next s) ok err (effect s) := Iff.rfl

theorem wp_visible (label : ℓ) (effect : σ → σ) (value : σ → Except ε α) :
    wp (visible label effect value) ok err s ↔ match value s with
      | .ok a => ok a (effect s)
      | .error e => err e (effect s) := by
  unfold wp visible
  simp only [run]
  cases value s <;> rfl

@[simp] theorem wp_bind (m : Prog ℓ σ ε α) (f : α → Prog ℓ σ ε β) {ok : β → σ → Prop} :
    wp (m >>= f) ok err s ↔ wp m (fun a => wp (f a) ok err) err s := by
  unfold wp
  rw [bind_run]
  rcases m.run s with ⟨_ | _, t⟩ <;> rfl

@[simp] theorem wp_rejectIf {c : Prop} [Decidable c] (e : ε) {ok : Unit → σ → Prop} :
    wp (rejectIf c e : Prog ℓ σ ε Unit) ok err s ↔ (c → err e s) ∧ (¬c → ok () s) := by
  by_cases bad : c
  · rw [rejectIf, if_pos bad]
    exact ⟨fun held => ⟨fun _ => held, fun fine => absurd bad fine⟩, fun both => both.1 bad⟩
  · rw [rejectIf, if_neg bad]
    exact ⟨fun held => ⟨fun wrong => absurd wrong bad, fun _ => held⟩, fun both => both.2 bad⟩

theorem wp_ite {c : Prop} [Decidable c] (m n : Prog ℓ σ ε α) :
    wp (if c then m else n) ok err s ↔ (c → wp m ok err s) ∧ (¬c → wp n ok err s) := by
  by_cases holds : c <;> simp [holds]

theorem wp_attempt (select : ε → Option δ) (m : Prog ℓ σ ε α) {ok : Except δ α → σ → Prop} :
    wp (attempt select m) ok err s ↔
      wp m (fun a => ok (.ok a))
        (fun e t => match select e with
          | some d => ok (.error d) t
          | none => err e t) s := by
  unfold wp
  rw [attempt_run]
  rcases m.run s with ⟨e | a, t⟩
  · simp only
    cases select e <;> rfl
  · rfl

theorem wp_bracket (restore : σ → σ → σ) (m : Prog ℓ σ ε α) :
    wp (bracket restore m) ok err s ↔
      wp m (fun a t => ok a (restore s t)) (fun e t => err e (restore s t)) s := by
  unfold wp
  change (match (m.onExit (restore s)).run s with
    | (.ok a, t) => ok a t
    | (.error e, t) => err e t) ↔ _
  rw [onExit_run]
  rcases m.run s with ⟨_ | _, t⟩ <;> rfl

theorem wp_mono {m : Prog ℓ σ ε α} (held : wp m ok err s)
    (onOk : ∀ a t, ok a t → ok' a t) (onErr : ∀ e t, err e t → err' e t) :
    wp m ok' err' s := by
  unfold wp at held ⊢
  generalize m.run s = last at held ⊢
  rcases last with ⟨_ | _, t⟩
  · exact onErr _ t held
  · exact onOk _ t held

theorem wp_and {m : Prog ℓ σ ε α} (left : wp m ok err s) (right : wp m ok' err' s) :
    wp m (fun a t => ok a t ∧ ok' a t) (fun e t => err e t ∧ err' e t) s := by
  unfold wp at left right ⊢
  generalize m.run s = last at left right ⊢
  rcases last with ⟨_ | _, t⟩
  · exact ⟨left, right⟩
  · exact ⟨left, right⟩

/-- Postconditions that hold of every outcome. -/
theorem wp_of_forall {m : Prog ℓ σ ε α} (onOk : ∀ a t, ok a t) (onErr : ∀ e t, err e t) : wp m ok err s := by
  unfold wp
  rcases m.run s with ⟨_ | _, t⟩
  · exact onErr _ t
  · exact onOk _ t

/-- What a postcondition says about one particular run. -/
theorem wp_ok {m : Prog ℓ σ ε α} {a : α} {t : σ} (held : wp m ok err s)
    (returned : m.run s = (.ok a, t)) : ok a t := by
  unfold wp at held
  rwa [returned] at held

/-- A postcondition that names the outcome gives the run. -/
theorem run_of_wp {m : Prog ℓ σ ε α} {a : α} {t : σ}
    (held : wp m (fun b u => b = a ∧ u = t) (fun _ _ => False) s) : m.run s = (.ok a, t) := by
  unfold wp at held
  rcases last : m.run s with ⟨_ | b, u⟩
  · rw [last] at held
    exact held.elim
  · rw [last] at held
    rw [held.1, held.2]

/-- A program whose outcomes all decide `P` ends well exactly if `P` holds. -/
theorem wp_iff_of_decides {m : Prog ℓ σ ε α} {P : Prop} (held : wp m (fun a t => ok a t ↔ P) (fun _ _ => ¬P) s) :
    wp m ok (fun _ _ => False) s ↔ P := by
  unfold wp at held ⊢
  generalize m.run s = last at held ⊢
  rcases last with ⟨_ | _, t⟩
  · exact iff_of_false id held
  · exact held

/-- A program that cannot stop early returns. -/
theorem returns_of_wp {m : Prog ℓ σ ε α} (held : wp m ok (fun _ _ => False) s) :
    ∃ a t, m.run s = (.ok a, t) ∧ ok a t := by
  unfold wp at held
  rcases last : m.run s with ⟨_ | a, t⟩
  · rw [last] at held
    exact held.elim
  · rw [last] at held
    exact ⟨a, t, rfl, held⟩

/-- A program that cannot return stops early. -/
theorem stops_of_wp {m : Prog ℓ σ ε α} (held : wp m (fun _ _ => False) err s) :
    ∃ e t, m.run s = (.error e, t) ∧ err e t := by
  unfold wp at held
  rcases last : m.run s with ⟨e | _, t⟩
  · rw [last] at held
    exact ⟨e, t, rfl, held⟩
  · rw [last] at held
    exact held.elim

theorem wp_error {m : Prog ℓ σ ε α} {e : ε} {t : σ} (held : wp m ok err s)
    (stopped : m.run s = (.error e, t)) : err e t := by
  unfold wp at held
  rwa [stopped] at held

/-! ### Invariants of programs -/

/-- However it ends, the program keeps `P`. -/
def Keeps (P : σ → Prop) (m : Prog ℓ σ ε α) : Prop := ∀ s, P s → wp m (fun _ => P) (fun _ => P) s

namespace Keeps

variable {P : σ → Prop} {m : Prog ℓ σ ε α}

protected theorem pure (a : α) : Keeps P (pure a : Prog ℓ σ ε α) := fun _ => id

protected theorem gets (f : σ → α) : Keeps P (gets f : Prog ℓ σ ε α) := fun _ => id

protected theorem modify {f : σ → σ} (kept : ∀ s, P s → P (f s)) : Keeps P (modify f : Prog ℓ σ ε Unit) := kept

protected theorem bind {f : α → Prog ℓ σ ε β} (first : Keeps P m) (rest : ∀ a, Keeps P (f a)) : Keeps P (m >>= f) :=
  fun s held => (wp_bind m f).mpr (wp_mono (first s held) (fun a t => rest a t) fun _ _ => id)

protected theorem ite {c : Prop} [Decidable c] {n : Prog ℓ σ ε α} (yes : Keeps P m) (no : Keeps P n) :
    Keeps P (if c then m else n) := by
  split
  · exact yes
  · exact no

protected theorem attempt {select : ε → Option δ} (body : Keeps P m) : Keeps P (attempt select m) := by
  intro s held
  refine (wp_attempt select m).mpr (wp_mono (body s held) (fun _ _ => id) fun e t kept => ?_)
  split <;> exact kept

protected theorem bracket {restore : σ → σ → σ} (kept : ∀ s t, P t → P (restore s t)) (body : Keeps P m) :
    Keeps P (bracket restore m) := fun s held =>
  (wp_bracket restore m).mpr (wp_mono (body s held) (fun _ t => kept s t) fun _ t => kept s t)

end Keeps

/-- A counted loop keeps what each of its rounds keeps. -/
theorem wp_times {f : Nat → Prog ℓ σ ε Unit} (inv : Nat → σ → Prop) (k i : Nat)
    (start : inv i s)
    (round : ∀ j t, i ≤ j → j < i + k → inv j t → wp (f j) (fun _ => inv (j + 1)) err t) :
    wp (times k i f) (fun _ => inv (i + k)) err s := by
  induction k generalizing i s with
  | zero => exact start
  | succ k ih =>
    have first := round i s (Nat.le_refl i) (by omega) start
    have rest : ∀ t, inv (i + 1) t → wp (times k (i + 1) f) (fun _ => inv (i + (k + 1))) err t := by
      intro t held
      have later := ih (i + 1) held fun j u lower upper => round j u (by omega) (by omega)
      rwa [show i + 1 + k = i + (k + 1) by omega] at later
    exact (wp_bind (f i) _).mpr (wp_mono first (fun _ => rest) fun _ _ => id)

end Prog

end Lib
