import Islet.Lib.Prog

/-! Programs side by side on any number of processors. What they share has parts, and each part a lock and an
invariant. `Safe` says of one program that, whatever the others do to the parts it has not locked, it takes one lock
at a time, changes no part without its lock, and gives a lock back only with the invariant of its part in place. -/

namespace Lib

/-- How the state `σ` of a processor divides into `τ`, which is shared, and its own. -/
structure Sharing (ℓ κ π σ τ : Type) where
  shared : σ → τ
  load : τ → σ → σ
  part : τ → κ → π
  holds : σ → κ → Prop
  /-- The lock that a step takes. -/
  takes : Option ℓ → Option κ
  shared_load : ∀ x s, shared (load x s) = x
  load_shared : ∀ s, load (shared s) s = s
  load_load : ∀ x y s, load x (load y s) = load x s
  holds_load : ∀ x s, holds (load x s) = holds s

/-- What the processors share, and what each of them still has to do. -/
structure World (ι ℓ σ τ ε α : Type) where
  shared : τ
  cpu : ι → Prog ℓ σ ε α × σ

namespace Sharing

open Prog

variable {ι ℓ κ π σ τ ε α : Type} (S : Sharing ℓ κ π σ τ) (R : κ → π → Prop) {Q : Except ε α → σ → Prop}
  {label : Option ℓ} {effect : σ → σ} {next : σ → Prog ℓ σ ε α} {m : Prog ℓ σ ε α} {s t u : σ} {x y : τ}

/-- What the steps of others may make of `s`: its own and the parts it has locked stay as they are. -/
structure Sees (s t : σ) : Prop where
  own : ∀ x, S.load x t = S.load x s
  parts : ∀ k, S.holds s k → S.part (S.shared t) k = S.part (S.shared s) k

structure Respects (label : Option ℓ) (s t : σ) : Prop where
  taken : ∀ k, S.holds t k → S.holds s k ∨ S.takes label = some k
  kept : ∀ k, ¬S.holds s k → S.part (S.shared t) k = S.part (S.shared s) k
  given : ∀ k, S.holds s k → ¬S.holds t k → R k (S.part (S.shared t) k)

/-- A lock is free when a step takes it, and then the invariant of its part holds. -/
def Safe (Q : Except ε α → σ → Prop) : Prog ℓ σ ε α → σ → Prop
  | finish result, s => ∀ t, S.Sees s t → Q result t
  | act label effect next, s => (∀ k, S.takes label = some k → ∀ j, ¬S.holds s j) ∧ ∀ t, S.Sees s t →
    (∀ k, S.takes label = some k → R k (S.part (S.shared t) k)) →
      S.Respects R label t (effect t) ∧ Safe Q (next t) (effect t)

variable {S R}

theorem Sees.refl (s : σ) : S.Sees s s := ⟨fun _ => rfl, fun _ _ => rfl⟩

theorem Sees.holds (sees : S.Sees s t) : S.holds t = S.holds s := by
  rw [← S.holds_load (S.shared t) t, sees.own, S.holds_load]

theorem Sees.trans (first : S.Sees s t) (later : S.Sees t u) : S.Sees s u :=
  ⟨fun x => (later.own x).trans (first.own x), fun k held =>
    (later.parts k (first.holds ▸ held)).trans (first.parts k held)⟩

theorem sees_load (same : ∀ k, S.holds s k → S.part y k = S.part x k) : S.Sees (S.load x s) (S.load y s) := by
  constructor
  · simp only [S.load_load, implies_true]
  · simpa only [S.holds_load, S.shared_load] using same

theorem Safe.sees (safe : S.Safe R Q m s) (sees : S.Sees s t) : S.Safe R Q m t := by
  cases m with
  | finish result => exact fun u later => safe u (sees.trans later)
  | act label effect next =>
    exact ⟨by simpa only [sees.holds] using safe.1, fun u later => safe.2 u (sees.trans later)⟩

theorem Safe.onExit {cleanup : σ → σ} (lockless : S.takes none = none)
    (safe : S.Safe R (fun r t => S.Respects R none t (cleanup t) ∧ S.Safe R Q (.finish r) (cleanup t)) m s) :
    S.Safe R Q (m.onExit cleanup) s := by
  induction m generalizing s with
  | finish result => exact ⟨by simp [lockless], fun t sees _ => safe t sees⟩
  | act label effect next ih =>
    exact ⟨safe.1, fun t sees granted => (safe.2 t sees granted).imp_right (ih t)⟩

variable [DecidableEq ι] {w w' : World ι ℓ σ τ ε α} {begins : σ → Prog ℓ σ ε α → σ → Prop} {i : ι}

variable (S) in
/-- Processor `i` makes a step. It spins at a lock that another one holds. -/
def Acts (i : ι) (w w' : World ι ℓ σ τ ε α) : Prop :=
  ∃ label effect next s, w.cpu i = (act label effect next, s) ∧
    (∀ k, S.takes label = some k → ∀ j, j ≠ i → ¬S.holds (w.cpu j).2 k) ∧
    w' = ⟨S.shared (effect (S.load w.shared s)),
      Function.update w.cpu i (next (S.load w.shared s), effect (S.load w.shared s))⟩

variable (S) in
/-- A processor makes a step or, when it is done, begins its next program; or what no lock guards changes. -/
inductive Step (begins : σ → Prog ℓ σ ε α → σ → Prop) (w : World ι ℓ σ τ ε α) : World ι ℓ σ τ ε α → Prop where
  | acts {w' : World ι ℓ σ τ ε α} (i : ι) (acted : S.Acts i w w') : Step begins w w'
  | begin {r : Except ε α} {s t : σ} {m : Prog ℓ σ ε α} (i : ι) (now : w.cpu i = (finish r, s))
    (chosen : begins s m t) : Step begins w ⟨w.shared, Function.update w.cpu i (m, t)⟩
  | outside (x : τ) (same : ∀ k, S.part x k = S.part w.shared k) : Step begins w ⟨x, w.cpu⟩

variable (S R Q) in
structure Ordered (w : World ι ℓ σ τ ε α) : Prop where
  once : ∀ k i j, S.holds (w.cpu i).2 k → S.holds (w.cpu j).2 k → i = j
  free : ∀ k, (∀ i, ¬S.holds (w.cpu i).2 k) → R k (S.part w.shared k)
  safe : ∀ i, S.Safe R Q (w.cpu i).1 (S.load w.shared (w.cpu i).2)

namespace Ordered

omit [DecidableEq ι] in
theorem safe_now (ordered : S.Ordered R Q w) (now : w.cpu i = (m, s)) : S.Safe R Q m (S.load w.shared s) := by
  simpa only [now] using ordered.safe i

theorem acts (ordered : S.Ordered R Q w) (acted : S.Acts i w w') : S.Ordered R Q w' := by
  obtain ⟨label, effect, next, s, now, free, rfl⟩ := acted
  obtain ⟨alone, safe⟩ := ordered.safe_now now
  have mine : ∀ k, S.holds (w.cpu i).2 k ↔ S.holds (S.load w.shared s) k := by simp [now, S.holds_load]
  have others : ∀ k j, S.holds (w.cpu j).2 k → S.holds (S.load w.shared s) k ∨ S.takes label = some k → j = i := by
    rintro k j held (locked | taken)
    · exact ordered.once k j i held ((mine k).mpr locked)
    · by_contra other
      exact free k taken j other held
  obtain ⟨⟨taken, kept, given⟩, rest⟩ := safe _ (.refl _) fun k taken => by
    rw [S.shared_load]
    refine ordered.free k fun j held => ?_
    obtain rfl := others k j held (.inr taken)
    exact alone k taken k ((mine k).mp held)
  rw [S.shared_load] at kept
  generalize S.load w.shared s = before at *
  constructor
  · intro k j l
    by_cases left : j = i <;> by_cases right : l = i <;> simp only [left, right, Function.update_self, ne_eq,
      Function.update_of_ne, not_false_eq_true, implies_true]
    · exact fun locked held => right (others k l held (taken k locked)) |>.elim
    · exact fun held locked => left (others k j held (taken k locked))
    · exact ordered.once k j l
  · intro k unheld
    obtain ⟨gone, unheld⟩ := (Function.forall_update_iff w.cpu fun _ c => ¬S.holds c.2 k).mp unheld
    by_cases locked : S.holds before k
    · exact given k locked gone
    · simp only [kept k locked]
      refine ordered.free k fun j held => ?_
      by_cases same : j = i
      · exact locked ((mine k).mp (same ▸ held))
      · exact unheld j same held
  · refine (Function.forall_update_iff w.cpu fun _ c => S.Safe R Q c.1 (S.load _ c.2)).mpr ⟨?_, fun j other => ?_⟩
    · simpa only [S.load_shared] using rest
    · exact (ordered.safe j).sees (sees_load fun k held => kept k fun locked => other (others k j held (.inl locked)))

theorem step (ended : ∀ r s, Q r s → ∀ k, ¬S.holds s k)
    (fresh : ∀ s m t, begins s m t → (∀ k, ¬S.holds t k) ∧ S.Safe R Q m t)
    (ordered : S.Ordered R Q w) (next : S.Step begins w w') : S.Ordered R Q w' := by
  cases next with
  | acts i acted => exact ordered.acts acted
  | @begin r s t m i now chosen =>
    obtain ⟨idle, safe⟩ := fresh s m t chosen
    have before := ended r _ (ordered.safe_now now _ (.refl _))
    have same : ∀ j k, S.holds (Function.update w.cpu i (m, t) j).2 k ↔ S.holds (w.cpu j).2 k := by
      intro j k
      by_cases same : j = i
      · simpa [same, idle, now, S.holds_load] using before k
      · rw [Function.update_of_ne same]
    refine ⟨by simpa only [same] using ordered.once, by simpa only [same] using ordered.free,
      (Function.forall_update_iff w.cpu fun _ c => S.Safe R Q c.1 (S.load _ c.2)).mpr ⟨?_, fun j _ => ordered.safe j⟩⟩
    exact safe.sees ⟨fun _ => S.load_load _ _ _, fun k held => absurd held (idle k)⟩
  | outside x same =>
    exact ⟨ordered.once, fun k unheld => by rw [same]; exact ordered.free k unheld,
      fun i => (ordered.safe i).sees (sees_load fun k _ => same k)⟩

/-- While a processor has work left, some processor can make a step: the holder of a lock waits for no other. -/
theorem progress (ended : ∀ r s, Q r s → ∀ k, ¬S.holds s k) (ordered : S.Ordered R Q w)
    (now : w.cpu i = (act label effect next, s)) : ∃ j w', S.Acts j w w' := by
  by_cases free : ∀ k, S.takes label = some k → ∀ j, j ≠ i → ¬S.holds (w.cpu j).2 k
  · exact ⟨i, _, label, effect, next, s, now, free, rfl⟩
  push Not at free
  obtain ⟨k, -, j, -, held⟩ := free
  rw [← S.holds_load w.shared] at held
  rcases other : w.cpu j with ⟨r | ⟨label', effect', next'⟩, t⟩ <;> rw [other] at held
  · exact absurd held (ended r _ (ordered.safe_now other _ (.refl _)) k)
  · exact ⟨j, _, label', effect', next', t, other, fun l taken =>
      absurd held ((ordered.safe_now other).1 l taken k), rfl⟩

end Ordered

end Sharing

end Lib
