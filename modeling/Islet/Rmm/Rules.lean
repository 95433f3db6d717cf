import Islet.Rmm.Mm.Frame
import Islet.Rmm.Moves

/-! Rules for the primitives that handlers are written in. Each rule says what a
primitive needs of the outcomes that can follow it, so that a handler is verified
by going through its text once. -/

namespace Islet.Rmm

open Lib Prog Rmi

/-! ### Results of a handler -/

/-- The changes of state that the page-table build allows: into the delegated state, and out of it. -/
def StateChange.Legal (change : StateChange) : Prop :=
  change.prev = .delegated ∧ change.state ≠ .delegated ∨
    change.prev ≠ .delegated ∧ change.state = .delegated

/-- The hardware uses the descriptor: that of a table or page, or of a block of level 1 or 2. -/
def S2tte.IsHardwareValid (e : Word) (level : Nat) : Prop :=
  S2tte.descNum e = 3 ∨ S2tte.descNum e = 1 ∧ (level = 1 ∨ level = 2)

namespace PteSet

/-- The store ends a translation. -/
def Replaces (set : PteSet) : Prop := S2tte.IsHardwareValid set.old set.level ∧ set.new ≠ set.old

/-- The realm's translations of the address are invalidated. -/
def Flushes (set : PteSet) : Prop := set.tlbi = .leaf set.vmid ∨ set.tlbi = .breakdown set.vmid

/-- Two kinds of stores are forgotten: a block of the host becomes a table, and a block of a gigabyte is overwritten. -/
def Forgotten (set : PteSet) : Prop :=
  set.level = 2 ∧ S2tte.isAssignedNs set.old 2 = true ∧ S2tte.isTable set.new 2 = true ∨
    set.level = 1 ∧ S2tte.descNum set.old = 1

/-- A store that ends a translation comes with an invalidation, unless it is forgotten. -/
def Sound (set : PteSet) : Prop := (set.Replaces → set.Flushes) ↔ ¬set.Forgotten

variable {set : PteSet}

theorem Sound.of_invalid (invalid : S2tte.descNum set.old = 0) : set.Sound := by
  refine iff_of_true (fun replaces => ?_) fun forgotten => ?_
  · rcases replaces.1 with table | ⟨block, _⟩ <;> omega
  · rcases forgotten with ⟨_, mapped, _⟩ | ⟨_, block⟩
    · rw [S2tte.isAssignedNs_iff] at mapped
      omega
    · omega

theorem Sound.of_flushes (flushes : set.Flushes) (known : ¬set.Forgotten) : set.Sound :=
  iff_of_true (fun _ => flushes) known

end PteSet

/-- A store of `new` in the place of `old` is all that was recorded from `s` to `t`. -/
def Machine.StoresPte (s t : Machine) (level : Nat) (old new : Word) : Prop :=
  ∃ vmid tlbi, t.stores = ⟨vmid, level, old, new, tlbi⟩ :: s.stores

/-- All changes of state from `s` to `t` are legal, and all stores of descriptors sound. -/
def LegalSince (s t : Machine) : Prop :=
  (∃ changes, t.history = changes ++ s.history ∧ ∀ change ∈ changes, change.Legal) ∧
    ∃ stores, t.stores = stores ++ s.stores ∧ ∀ set ∈ stores, set.Sound

theorem LegalSince.of_eq {s t : Machine} (same : t.trace = s.trace) : LegalSince s t :=
  ⟨⟨[], congrArg Prod.fst same, nofun⟩, ⟨[], congrArg Prod.snd same, nofun⟩⟩

/-- What is recorded from `s` to `u` is what is recorded up to `t` and from there on. -/
theorem recorded_trans {α : Type} {P : α → Prop} {first second third : List α}
    (early : ∃ xs, second = xs ++ first ∧ ∀ x ∈ xs, P x) (late : ∃ xs, third = xs ++ second ∧ ∀ x ∈ xs, P x) :
    ∃ xs, third = xs ++ first ∧ ∀ x ∈ xs, P x := by
  obtain ⟨xs, rfl, all⟩ := early
  obtain ⟨ys, rfl, all'⟩ := late
  exact ⟨ys ++ xs, (List.append_assoc ys xs first).symm, List.forall_mem_append.mpr ⟨all', all⟩⟩

theorem recorded_all {α : Type} {P : α → Prop} {before after : List α} (new : ∃ xs, after = xs ++ before ∧ ∀ x ∈ xs, P x)
    (old : ∀ x ∈ before, P x) : ∀ x ∈ after, P x := by
  obtain ⟨xs, rfl, all⟩ := new
  exact List.forall_mem_append.mpr ⟨all, old⟩

theorem LegalSince.trans {s t u : Machine} (first : LegalSince s t) (second : LegalSince t u) :
    LegalSince s u :=
  ⟨recorded_trans first.1 second.1, recorded_trans first.2 second.2⟩

theorem legal_setGranule {s t : Machine} {index : Nat} {prev state : GranuleState}
    (trace : t.trace = (⟨index, prev, state⟩ :: s.history, s.stores))
    (legal : prev = .delegated ∧ state ≠ .delegated ∨ prev ≠ .delegated ∧ state = .delegated) :
    LegalSince s t :=
  ⟨⟨[⟨index, prev, state⟩], congrArg Prod.fst trace, List.forall_mem_singleton.mpr legal⟩,
    ⟨[], congrArg Prod.snd trace, nofun⟩⟩

theorem legal_store {s t : Machine} {set : PteSet} (trace : t.trace = (s.history, set :: s.stores)) (sound : set.Sound) :
    LegalSince s t :=
  ⟨⟨[], congrArg Prod.fst trace, nofun⟩, ⟨[set], congrArg Prod.snd trace, List.forall_mem_singleton.mpr sound⟩⟩

/-- A store of a descriptor, and then a change of state. -/
theorem legal_storeState {s t : Machine} {set : PteSet} {index : Nat} {prev state : GranuleState}
    (trace : t.trace = (⟨index, prev, state⟩ :: s.history, set :: s.stores)) (sound : set.Sound)
    (legal : prev = .delegated ∧ state ≠ .delegated ∨ prev ≠ .delegated ∧ state = .delegated) : LegalSince s t :=
  ⟨⟨[⟨index, prev, state⟩], congrArg Prod.fst trace, List.forall_mem_singleton.mpr legal⟩,
    ⟨[set], congrArg Prod.snd trace, List.forall_mem_singleton.mpr sound⟩⟩

variable {α β : Type} {s : Machine} {ok : α → Machine → Prop} {err' : Halt → Machine → Prop}

/-! ### Control -/

@[simp] theorem wp_err {e : Error} : wp (err e) ok err' s ↔ err' (.error e) s := Iff.rfl

theorem wp_errIf {c : Prop} [Decidable c] {e : Error} {ok : Unit → Machine → Prop}
    (bad : c → err' (.error e) s) (good : ¬c → ok () s) : wp (errIf c e) ok err' s :=
  (wp_rejectIf _).mpr ⟨bad, good⟩

theorem wp_if {c : Prop} [Decidable c] {m n : RmmM α} (yes : c → wp m ok err' s) (no : ¬c → wp n ok err' s) :
    wp (if c then m else n) ok err' s :=
  (wp_ite m n).mpr ⟨yes, no⟩

theorem wp_orInput {value : Option α} (bad : value = none → err' (.error .rmiErrorInput) s)
    (good : ∀ a, value = some a → ok a s) : wp (orInput value) ok err' s := by
  cases value with
  | none => exact bad rfl
  | some a => exact good a rfl

theorem wp_orPanic {value : Option α} (bad : value = none → err' .panic s)
    (good : ∀ a, value = some a → ok a s) : wp (orPanic value) ok err' s := by
  cases value with
  | none => exact bad rfl
  | some a => exact good a rfl

theorem wp_ofExcept {value : Except Error α} (bad : ∀ e, value = .error e → err' (.error e) s)
    (good : ∀ a, value = .ok a → ok a s) : wp (ofExcept value) ok err' s := by
  cases value with
  | error e => exact bad e rfl
  | ok a => exact good a rfl

theorem wp_inScope {m : RmmM α}
    (body : wp m (fun a t => ok a { t with held := s.held }) (fun e t => err' e { t with held := s.held }) s) :
    wp (inScope m) ok err' s :=
  (wp_bracket _ _).mpr body

theorem wp_result {m : RmmM α} {ok : Except Error α → Machine → Prop}
    (body : wp m (fun a t => ok (.ok a) t)
      (fun halt t => match halt with
        | .error e => ok (.error e) t
        | other => err' other t) s) : wp (result m) ok err' s := by
  refine (wp_attempt _ _).mpr (wp_mono body (fun _ _ => id) ?_)
  intro halt t held
  cases halt <;> exact held

/-! ### Effects -/

section Effects

variable {ok : Unit → Machine → Prop} {index : Nat}

@[simp] theorem wp_getCore {ok : Core → Machine → Prop} : wp getCore ok err' s ↔ ok s.core s := Iff.rfl

@[simp] theorem wp_modifyCore (f : Core → Core) :
    wp (modifyCore f) ok err' s ↔ ok () { s with core := f s.core } := Iff.rfl

@[simp] theorem wp_emit (event : Event) :
    wp (emit event) ok err' s ↔ ok () { s with core := s.core.emit event } := Iff.rfl

@[simp] theorem wp_setRet (i value : Nat) :
    wp (setRet i value) ok err' s ↔ ok () { s with ret := Function.update s.ret i value } := Iff.rfl

@[simp] theorem wp_setGranule (state : GranuleState) : wp (setGranule index state) ok err' s ↔
    ok () { s with
      core := setStateCore index state s.core
      history := ⟨index, (s.core.granules index).state, state⟩ :: s.history } := Iff.rfl

@[simp] theorem wp_pageTableUnmap (addr : Nat) : wp (pageTableUnmap addr) ok err' s ↔
    ok () { s with pageTable := s.pageTable.unmap addr } := Iff.rfl

@[simp] theorem wp_numChildren {ok : Nat → Machine → Prop} :
    wp (numChildren index) ok err' s ↔ ok (s.core.granules index).refCount.toNat s := Iff.rfl

@[simp] theorem wp_incCount : wp (incCount index) ok err' s ↔
    ok () { s with
      core := s.core.setGranule index
        { s.core.granules index with refCount := (s.core.granules index).refCount + 1 } } := Iff.rfl

@[simp] theorem wp_decCount : wp (decCount index) ok err' s ↔
    ok () { s with
      core := s.core.setGranule index
        { s.core.granules index with refCount := (s.core.granules index).refCount - 1 } } := Iff.rfl

variable [Platform]

@[simp] theorem wp_contentRd {ok : Rd → Machine → Prop} :
    wp (contentRd index) ok err' s ↔ ok (s.core.mem (indexToAddr index)).asRd s := Iff.rfl

omit [Platform] in
@[simp] theorem wp_setRd (rd : Rd) : wp (setRd index rd) ok err' s ↔
    ok () { s with core := s.core.setContent (indexToAddr index) (.rd rd) } := Iff.rfl

@[simp] theorem wp_contentRec {ok : Rec → Machine → Prop} :
    wp (contentRec index) ok err' s ↔ ok (s.core.mem (indexToAddr index)).asRec s := Iff.rfl

omit [Platform] in
@[simp] theorem wp_setRec (r : Rec) : wp (setRec index r) ok err' s ↔
    ok () { s with core := s.core.setContent (indexToAddr index) (.recCtx r) } := Iff.rfl

@[simp] theorem wp_contentPage {addr : Nat} {ok : Page → Machine → Prop} :
    wp (contentPage addr) ok err' s ↔ ok (s.core.mem addr).words s := Iff.rfl

omit [Platform] in
@[simp] theorem wp_setPage {addr : Nat} (page : Page) : wp (setPage addr page) ok err' s ↔
    ok () { s with core := s.core.setContent addr (.raw page) } := Iff.rfl

end Effects

/-! ### Locks -/

section Locks

variable {addr : Nat}

theorem wp_lock {index : Nat} {ok : Unit → Machine → Prop} (stuck : index ∈ s.held → err' .deadlock s)
    (good : index ∉ s.held → ok () { s with held := index :: s.held }) : wp (lock index) ok err' s := by
  unfold lock
  rw [wp_visible]
  by_cases held : index ∈ s.held
  · simp only [if_pos held]
    exact stuck held
  · simp only [if_neg held]
    exact good held

theorem wp_getGranule {ok : Nat → Machine → Prop}
    (bad : validateAddr addr = false → err' (.error .rmiErrorInput) s)
    (stuck : validateAddr addr = true → granuleAddrToIndex addr ∈ s.held → err' .deadlock s)
    (good : validateAddr addr = true → granuleAddrToIndex addr ∉ s.held →
      ok (granuleAddrToIndex addr) { s with held := granuleAddrToIndex addr :: s.held }) :
    wp (getGranule addr) ok err' s := by
  unfold getGranule
  by_cases valid : validateAddr addr = true
  · rw [if_pos valid]
    simp only
    rw [if_neg (Nat.not_le.mpr (granuleAddrToIndex_lt valid)), wp_bind]
    exact wp_lock (stuck valid) (good valid)
  · rw [if_neg valid]
    exact bad ((Bool.not_eq_true _).mp valid)

theorem wp_getGranuleIf {ok : Nat → Machine → Prop} {state : GranuleState}
    (bad : ¬(validateAddr addr = true ∧ s.core.stateOf addr = state) →
      (validateAddr addr = true → granuleAddrToIndex addr ∉ s.held) → err' (.error .rmiErrorInput) s)
    (stuck : validateAddr addr = true → granuleAddrToIndex addr ∈ s.held → err' .deadlock s)
    (good : validateAddr addr = true → s.core.stateOf addr = state → granuleAddrToIndex addr ∉ s.held →
      ok (granuleAddrToIndex addr) { s with held := granuleAddrToIndex addr :: s.held }) :
    wp (getGranuleIf addr state) ok err' s := by
  unfold getGranuleIf
  rw [wp_bind]
  refine wp_getGranule ?_ stuck ?_
  · intro invalid
    refine bad (fun both => ?_) fun valid => ?_
    · rw [invalid] at both
      exact nomatch both.1
    · rw [invalid] at valid
      exact nomatch valid
  · intro valid free
    rw [wp_bind]
    change wp (if (s.core.granules (granuleAddrToIndex addr)).state = state then _ else _) _ _ _
    rw [wp_ite]
    constructor
    · intro same
      exact good valid same free
    · intro other
      rw [wp_bind]
      change err' _ { s with held := (granuleAddrToIndex addr :: s.held).erase (granuleAddrToIndex addr) }
      rw [List.erase_cons_head]
      exact bad (fun both => other both.2) fun _ => free

/-- Locking a granule that is known to have the wanted state and to be free. -/
theorem wp_getGranuleIf_free {ok : Nat → Machine → Prop} {state : GranuleState}
    (valid : validateAddr addr = true) (same : s.core.stateOf addr = state)
    (free : granuleAddrToIndex addr ∉ s.held)
    (next : ok (granuleAddrToIndex addr) { s with held := granuleAddrToIndex addr :: s.held }) :
    wp (getGranuleIf addr state) ok err' s :=
  wp_getGranuleIf (fun bad _ => absurd ⟨valid, same⟩ bad) (fun _ held => absurd held free) fun _ _ _ => next

theorem wp_isNotInRealm {ok : Bool → Machine → Prop}
    (stuck : validateAddr addr = true → granuleAddrToIndex addr ∈ s.held → err' .deadlock s)
    (yes : s.core.Has addr .undelegated → granuleAddrToIndex addr ∉ s.held → ok true s)
    (no : ¬s.core.Has addr .undelegated → (validateAddr addr = true → granuleAddrToIndex addr ∉ s.held) →
      ok false s) :
    wp (isNotInRealm addr) ok err' s := by
  unfold isNotInRealm
  rw [wp_bind]
  exact wp_result (wp_inScope (wp_getGranuleIf no stuck fun valid state free => yes ⟨valid, state⟩ free))

theorem wp_copyFrom [Platform] {ok : Option Page → Machine → Prop}
    (stuck : validateAddr addr = true → granuleAddrToIndex addr ∈ s.held → err' .deadlock s)
    (yes : s.core.Has addr .undelegated → granuleAddrToIndex addr ∉ s.held →
      ok (some (s.core.mem addr).words) s)
    (no : ¬s.core.Has addr .undelegated → (validateAddr addr = true → granuleAddrToIndex addr ∉ s.held) →
      ok none s) :
    wp (copyFrom addr) ok err' s := by
  unfold copyFrom
  rw [wp_bind]
  exact wp_isNotInRealm stuck yes no

end Locks

/-! ### The page table -/

theorem wp_pageTableMap {addr : Nat} {secure : Bool} {ok : Unit → Machine → Prop}
    (done : ∀ pt, s.pageTable.map addr secure = .done pt → ok () { s with pageTable := pt })
    (stuck : (∀ pt, s.pageTable.map addr secure ≠ .done pt) → err' .panic s ∧ err' .diverge s) :
    wp (pageTableMap addr secure) ok err' s := by
  unfold pageTableMap
  rw [wp_act]
  generalize s.pageTable.map addr secure = mapped at done stuck
  cases mapped with
  | done pt => exact done pt rfl
  | panic => exact (stuck nofun).1
  | diverge => exact (stuck nofun).2

/-- Mapping a granule returns. -/
theorem wp_mapGranule {addr : Nat} {secure : Bool} {ok : Unit → Machine → Prop}
    (valid : validateAddr addr = true)
    (next : ∀ pt, s.pageTable.map addr secure = .done pt → ok () { s with pageTable := pt }) :
    wp (pageTableMap addr secure) ok err' s := by
  refine wp_pageTableMap next fun stuck => ?_
  obtain ⟨pt, run, _⟩ := @Mm.PageTable.map_granule s.pageTable addr valid secure
  exact absurd run (stuck pt)

theorem wp_mapSecure {addr : Nat} {ok : Unit → Machine → Prop} (valid : validateAddr addr = true)
    (next : ∀ pt, Mm.PageTable.Safe s.pageTable pt → ok () { s with pageTable := pt }) :
    wp (pageTableMap addr true) ok err' s := by
  refine wp_mapGranule valid fun pt run => ?_
  obtain ⟨pt', run', safe⟩ := @Mm.PageTable.Safe.map_secure s.pageTable addr valid
  rw [run'] at run
  cases run
  exact next _ safe

/-! ### Reading -/

/-- The computation changes nothing and takes no lock for good. -/
def Quiet (m : RmmM α) : Prop := ∀ s, (m.run s).2 = s ∧ (m.run s).1 ≠ .error .deadlock

namespace Quiet

variable {m : RmmM α}

protected theorem wp (quiet : Quiet m) (next : ∀ a, ok a s) (stop : ∀ halt, halt ≠ .deadlock → err' halt s) :
    m.wp ok err' s := by
  obtain ⟨same, free⟩ := quiet s
  unfold Prog.wp
  generalize m.run s = last at same free ⊢
  obtain ⟨outcome, t⟩ := last
  simp only at same
  subst same
  cases outcome with
  | ok a => exact next a
  | error halt => exact stop halt fun equal => free (by rw [equal])

theorem bind {f : α → RmmM β} (first : Quiet m) (rest : ∀ a, Quiet (f a)) : Quiet (m >>= f) := by
  intro s
  obtain ⟨same, free⟩ := first s
  rw [bind_run]
  generalize m.run s = last at same free ⊢
  obtain ⟨outcome, t⟩ := last
  simp only at same
  subst same
  cases outcome with
  | ok a => exact rest a _
  | error halt => exact ⟨rfl, fun equal => free (by simpa using equal)⟩

protected theorem pure (a : α) : Quiet (pure a : RmmM α) := fun _ => ⟨rfl, nofun⟩

protected theorem err (e : Error) : Quiet (err e : RmmM α) := fun _ => ⟨rfl, nofun⟩

protected theorem panic : Quiet (fail .panic : RmmM α) := fun _ => ⟨rfl, nofun⟩

protected theorem getCore : Quiet getCore := fun _ => ⟨rfl, nofun⟩

protected theorem errIf (c : Prop) [Decidable c] (e : Error) : Quiet (errIf c e) := by
  unfold errIf rejectIf
  split
  · exact .err e
  · exact .pure ()

protected theorem orPanic (value : Option α) : Quiet (orPanic value) := by
  cases value with
  | none => exact .panic
  | some a => exact .pure a

protected theorem result (quiet : Quiet m) : Quiet (result m) := by
  intro s
  obtain ⟨same, free⟩ := quiet s
  unfold Rmi.result
  rw [attempt_run]
  generalize m.run s = last at same free ⊢
  obtain ⟨outcome, t⟩ := last
  simp only at same
  subst same
  cases outcome with
  | ok a => exact ⟨rfl, nofun⟩
  | error halt =>
    cases halt with
    | error e => exact ⟨rfl, nofun⟩
    | panic => exact ⟨rfl, nofun⟩
    | deadlock => exact absurd rfl free
    | diverge => exact ⟨rfl, nofun⟩

theorem ite {c : Prop} [Decidable c] {n : RmmM α} (yes : Quiet m) (no : Quiet n) :
    Quiet (if c then m else n) := by
  split
  · exact yes
  · exact no

end Quiet

variable [Platform]

/-- From `s` to `t` a command has made moves, legal changes of state, and safe changes of the
monitor's own page table. -/
structure Kept (c₀ : Core) (cmd : Command) (s t : Machine) : Prop where
  moves : Moves c₀ cmd s.core t.core
  legal : LegalSince s t
  pageTable : Mm.PageTable.Safe s.pageTable t.pageTable

namespace Kept

variable {c₀ : Core} {cmd : Command} {s t u : Machine}

/-- Nothing but locks, return registers and the `Run` structure differs. -/
theorem of_eq (core : t.core = s.core) (trace : t.trace = s.trace)
    (pageTable : t.pageTable = s.pageTable) : Kept c₀ cmd s t :=
  ⟨by rw [core], .of_eq trace, by rw [pageTable]; exact .refl _⟩

theorem trans (first : Kept c₀ cmd s t) (second : Kept c₀ cmd t u) : Kept c₀ cmd s u :=
  ⟨first.moves.trans second.moves, first.legal.trans second.legal,
    first.pageTable.trans second.pageTable⟩

/-- One move, with one store and one change of state. -/
theorem single {index : Nat} {prev state : GranuleState} (move : Move c₀ cmd s.core t.core)
    {set : PteSet} (trace : t.trace = (⟨index, prev, state⟩ :: s.history, set :: s.stores)) (sound : set.Sound)
    (legal : prev = .delegated ∧ state ≠ .delegated ∨ prev ≠ .delegated ∧ state = .delegated)
    (pageTable : t.pageTable = s.pageTable) : Kept c₀ cmd s t :=
  ⟨.single move, legal_storeState trace sound legal, by rw [pageTable]; exact .refl _⟩

end Kept

/-- How a command that does not succeed stops: with an error after moves of its own, or by a panic.
It does not deadlock, and it is not `ready` for what would make it succeed. -/
def Stops (c₀ : Core) (cmd : Command) (s : Machine) (ready : Prop) (halt : Halt) (t : Machine) : Prop :=
  ¬ready ∧ match halt with
    | .error _ => Kept c₀ cmd s t
    | .deadlock => False
    | .panic => LegalSince s t
    | .diverge => LegalSince s t

theorem Kept.error {c₀ : Core} {cmd : Command} {s t : Machine} {ready : Prop} {e : Error}
    (kept : Kept c₀ cmd s t) (notReady : ¬ready) : Stops c₀ cmd s ready (.error e) t := ⟨notReady, kept⟩

theorem Kept.panic {c₀ : Core} {cmd : Command} {s t : Machine} {ready : Prop} (kept : Kept c₀ cmd s t)
    (notReady : ¬ready) : Stops c₀ cmd s ready .panic t := ⟨notReady, kept.legal⟩

/-- A command that has kept everything so far may stop here. -/
theorem Kept.stops {c₀ : Core} {cmd : Command} {s t : Machine} {ready : Prop} {halt : Halt}
    (kept : Kept c₀ cmd s t) (notReady : ¬ready) (free : halt ≠ .deadlock) : Stops c₀ cmd s ready halt t := by
  refine ⟨notReady, ?_⟩
  cases halt with
  | error e => exact kept
  | panic => exact kept.legal
  | deadlock => exact absurd rfl free
  | diverge => exact kept.legal

/-- The command left `p` mapped and has done nothing else. -/
structure LeftMapped (s t : Machine) (p : Nat) : Prop where
  core : t.core = s.core
  trace : t.trace = s.trace
  pageTable : ∃ pt, Mm.PageTable.Safe s.pageTable pt ∧ pt.map p false = .done t.pageTable

/-- How a command stops that may deadlock, or leave a pointer of the host mapped. -/
def Ends (cmd : Command) (s : Machine) (halt : Halt) (t : Machine) : Prop :=
  (halt = .deadlock ↔ SelfLocks s.core cmd) ∧ LegalSince s t ∧ match halt with
    | .error _ => Kept s.core cmd s t ∧ (∀ p, ¬LeavesMapped s.core cmd p) ∨
      ∃ p, LeavesMapped s.core cmd p ∧ LeftMapped s t p
    | _ => True

/-- Such a command stops early and has left nothing behind. -/
theorem Kept.ends {cmd : Command} {s t : Machine} {halt : Halt} (kept : Kept s.core cmd s t)
    (free : halt ≠ .deadlock) (unlocked : ¬SelfLocks s.core cmd) (clean : ∀ p, ¬LeavesMapped s.core cmd p) :
    Ends cmd s halt t := by
  refine ⟨iff_of_false free unlocked, kept.legal, ?_⟩
  cases halt with
  | error e => exact .inl ⟨kept, clean⟩
  | panic => exact trivial
  | deadlock => exact trivial
  | diverge => exact trivial

/-- Fetching a page of the host. -/
theorem wp_fetch {p : Nat} {next : Page → RmmM α} (small : p < 2 ^ 64)
    (stuck : validateAddr p = true → granuleAddrToIndex p ∈ s.held → ∀ t, t.core = s.core → t.trace = s.trace →
      err' .deadlock t)
    (lost : ¬s.core.Has p .undelegated → ¬Stray s.core p → err' .panic s ∧ err' .diverge s)
    (stray : Stray s.core p → (validateAddr p = true → granuleAddrToIndex p ∉ s.held) →
      ∀ pt, s.pageTable.map p false = .done pt → err' (.error .rmiErrorInput) { s with pageTable := pt })
    (good : s.core.Has p .undelegated → granuleAddrToIndex p ∉ s.held → ∀ pt, s.pageTable.map p false = .done pt →
      wp (next (s.core.mem p).words) ok err' { s with pageTable := pt }) :
    wp (pageTableMap p false >>= fun _ => copyFrom p >>= fun page => orInput page >>= next) ok err' s := by
  rw [wp_bind]
  refine wp_pageTableMap (fun pt run => ?_) fun never => ?_
  · have limit : p ≤ Mm.PageTable.mapLimit := by
      by_contra large
      exact Mm.PageTable.map_stuck false (by omega) small pt run
    rw [wp_bind]
    refine wp_copyFrom (fun valid held => stuck valid held _ rfl rfl) (fun has free => ?_) fun none free => ?_
    · rw [wp_bind]
      exact good has free pt run
    · rw [wp_bind]
      exact stray ⟨limit, none⟩ free pt run
  · refine lost (fun has => ?_) fun can => ?_
    · obtain ⟨pt, run, _⟩ := @Mm.PageTable.map_granule s.pageTable p has.1 false
      exact never pt run
    · by_cases zero : p = 0
      · exact never s.pageTable (if_pos zero)
      · obtain ⟨pt, run, _⟩ := @Mm.PageTable.map_done s.pageTable p false zero can.1
        exact never pt run

/-! ### Walks of tables -/

section Walks

open Stage2Translation

omit [Platform] in
theorem Quiet.s2Table (rd : Rd) : Quiet (s2Table rd) := Quiet.getCore.bind fun _ => .orPanic _

theorem Quiet.walkTo (rd : Rd) (ipa level : Nat) (check : Bool) : Quiet (walkTo rd ipa level check) := by
  refine (Quiet.s2Table rd).bind fun t => Quiet.getCore.bind fun c => ?_
  split
  · exact .pure _
  · exact .pure _
  · exact .panic

theorem Quiet.getS2tte (rd : Rd) (ipa level : Nat) (code : Error) : Quiet (getS2tte rd ipa level code) := by
  refine (Quiet.walkTo rd ipa level false).bind fun found => ?_
  split
  · exact Quiet.getCore.bind fun _ => .pure _
  · exact .err _

theorem Quiet.entries (rd : Rd) (ipa level : Nat) : Quiet (entries rd ipa level) := by
  refine (Quiet.s2Table rd).bind fun t => Quiet.getCore.bind fun c => ?_
  split
  · exact .pure _
  · exact .err _
  · exact .panic

theorem Quiet.skipNonLiveEntries (rd : Rd) (base level : Nat) :
    Quiet (Rtt.skipNonLiveEntries rd base level) :=
  (Quiet.orPanic _).bind fun _ => (Quiet.errIf _ _).bind fun _ =>
    ((Quiet.s2Table rd).bind fun _ => .orPanic _).bind fun _ =>
      (Quiet.entries rd base level).bind fun _ => .pure _

theorem Quiet.isLiveRtt (rd : Rd) (base level : Nat) : Quiet (Rtt.isLiveRtt rd base level) := by
  refine (Quiet.entries rd base level).result.bind fun found => ?_
  split
  · exact .pure _
  · exact .pure _

omit [Platform] in
theorem wp_addrAsBlock {e : Word} {level : Nat} {ok : Word → Machine → Prop} (low : 1 ≤ level)
    (high : level ≤ 3) (next : ok (Bits.getMasked e (S2tte.blockMask level)) s) :
    wp (addrAsBlock e level) ok err' s := by
  unfold addrAsBlock S2tte.addrAsBlock?
  rw [if_pos ⟨low, high⟩]
  exact next

variable {a : Nat} {rd : Rd}

omit [Platform] in
theorem wp_listed {ok : Stage2Translation → Machine → Prop} (listed : s.core.rttTables rd.id = some rd.tables)
    (next : ok rd.tables s) : wp (s2Table rd) ok err' s := by
  unfold s2Table
  rw [wp_bind]
  refine wp_orPanic ?_ ?_
  · intro missing
    exact nomatch listed.symm.trans missing
  · intro t found
    cases listed.symm.trans found
    exact next

theorem wp_s2Table {ok : Stage2Translation → Machine → Prop} (realm : s.core.realm? a = some rd) (inv : s.core.Inv)
    (next : ok rd.tables s) : wp (s2Table rd) ok err' s :=
  wp_listed (inv.realms.registered realm) next

/-- A walk through the tables of a realm, by its outcome. -/
theorem wp_walkTo {ipa level : Nat} {check : Bool} {ok : Option (Slot × Nat) → Machine → Prop}
    (listed : s.core.rttTables rd.id = some rd.tables)
    (found : ∀ slot last, rd.tables.walk s.core ipa level check = .found slot last → ok (some (slot, last)) s)
    (missing : rd.tables.walk s.core ipa level check = .missing → ok none s)
    (panics : rd.tables.walk s.core ipa level check = .panic → err' .panic s) :
    wp (walkTo rd ipa level check) ok err' s := by
  unfold walkTo
  rw [wp_bind]
  refine wp_listed listed ?_
  rw [wp_bind, wp_getCore]
  cases walked : rd.tables.walk s.core ipa level check with
  | found slot last => exact found slot last walked
  | missing => exact missing walked
  | panic => exact panics walked

theorem wp_walkTo_found {ipa level last : Nat} {slot : Slot} {check : Bool} {ok : Option (Slot × Nat) → Machine → Prop}
    (listed : s.core.rttTables rd.id = some rd.tables)
    (walked : rd.tables.walk s.core ipa level check = .found slot last) (next : ok (some (slot, last)) s) :
    wp (walkTo rd ipa level check) ok err' s := by
  refine wp_walkTo listed (fun slot' last' found => ?_) (fun missing => ?_) fun panics => ?_
  · cases walked.symm.trans found
    exact next
  · cases walked.symm.trans missing
  · cases walked.symm.trans panics

theorem wp_listedEntries {ipa level last : Nat} {range : TableRange} {ok : List Word × Nat → Machine → Prop}
    (listed : s.core.rttTables rd.id = some rd.tables)
    (found : rd.tables.tableEntries s.core ipa level = .found range last)
    (next : ok (readEntries s.core range, last) s) : wp (entries rd ipa level) ok err' s := by
  unfold entries
  rw [wp_bind]
  refine wp_listed listed ?_
  rw [wp_bind, wp_getCore, found]
  exact next

/-- What a walk inside the IPA space of a realm finds. -/
theorem walk_inside {ipa level : Nat} (realm : s.core.realm? a = some rd) (inv : s.core.Inv)
    (bound : level ≤ 3) (inside : ipa < rd.ipaSize) :
    ∃ slot last, rd.tables.walk s.core ipa level false = .found slot last ∧
      Reached s.core a (ipa / 4096) rd.s2StartingLevel level slot last := by
  have shape := inv.realms.shape realm
  have reached := walk_reached realm shape ipa false bound
  generalize rd.tables.walk s.core ipa level false = w at reached ⊢
  cases w with
  | found slot last =>
    rw [shape.walkPage_eq inside] at reached
    exact ⟨slot, last, rfl, reached.1⟩
  | missing => exact nomatch reached
  | panic => exact absurd inside reached

theorem wp_getS2tte {ipa level : Nat} {code : Error} {ok : Word × Nat → Machine → Prop}
    (realm : s.core.realm? a = some rd) (inv : s.core.Inv) (bound : level ≤ 3)
    (inside : ipa < rd.ipaSize)
    (next : ∀ slot last, rd.tables.walk s.core ipa level false = .found slot last →
      Reached s.core a (ipa / 4096) rd.s2StartingLevel level slot last → ok (pte s.core slot, last) s) :
    wp (getS2tte rd ipa level code) ok err' s := by
  obtain ⟨slot, last, found, reached⟩ := walk_inside realm inv bound inside
  unfold getS2tte
  rw [wp_bind]
  exact wp_walkTo_found (inv.realms.registered realm) found (next slot last found reached)

theorem wp_ipaToPteSet {ipa level last : Nat} {slot : Slot} {value : Word} {tlbi : Tlbi} {ok : Unit → Machine → Prop}
    (realm : s.core.realm? a = some rd) (inv : s.core.Inv)
    (found : rd.tables.walk s.core ipa level false = .found slot last)
    (next : ok () { s with
      core := storePte slot value s.core
      stores := ⟨rd.id, last, pte s.core slot, value, tlbi⟩ :: s.stores }) :
    wp (ipaToPteSet rd ipa level value tlbi) ok err' s := by
  unfold ipaToPteSet
  rw [wp_bind]
  exact wp_walkTo_found (inv.realms.registered realm) found next

/-- Storing in the table of a level that is there. -/
theorem wp_setAt {ipa level b : Nat} {value : Word} {tlbi : Tlbi} {ok : Unit → Machine → Prop}
    (realm : s.core.realm? a = some rd) (inv : s.core.Inv) (bound : level ≤ 3)
    (inside : ipa < rd.ipaSize)
    (there : s.core.forest.node a level (ipa / 4096 / 512 ^ (3 - level) / 512) = some b)
    (next : ok () { s with
      core := storePte ⟨b, ipa / 4096 / 512 ^ (3 - level) % 512⟩ value s.core
      stores := ⟨rd.id, level, s.core.forest.read b (ipa / 4096 / 512 ^ (3 - level) % 512), value, tlbi⟩ :: s.stores }) :
    wp (ipaToPteSet rd ipa level value tlbi) ok err' s := by
  have shape := inv.realms.shape realm
  have page := shape.walkPage_eq inside
  have found := walk_to_node realm shape bound inside (by rw [page]; exact there)
  rw [page] at found
  exact wp_ipaToPteSet realm inv found next

theorem readEntries_table (c : Core) (b : Nat) :
    readEntries c ⟨b, 1⟩ = (List.range 512).map fun i => c.forest.read b i := by
  apply List.map_congr_left
  intro i member
  have index := List.mem_range.mp member
  simp only [Nat.mul_one] at index
  rw [Nat.div_eq_of_lt index, Nat.mod_eq_of_lt index]
  rfl

theorem wp_entries {ipa level b : Nat} {ok : List Word × Nat → Machine → Prop}
    (realm : s.core.realm? a = some rd) (inv : s.core.Inv) (bound : level ≤ 3)
    (inside : ipa < rd.ipaSize) (below : rd.s2StartingLevel < level)
    (there : s.core.forest.node a level (ipa / 4096 / 512 ^ (3 - level) / 512) = some b)
    (next : ok ((List.range 512).map fun i => s.core.forest.read b i, level) s) :
    wp (entries rd ipa level) ok err' s := by
  have shape := inv.realms.shape realm
  have found := tableEntries_of_node realm shape bound inside below
    (by rw [shape.walkPage_eq inside]; exact there)
  rw [← readEntries_table] at next
  exact wp_listedEntries (inv.realms.registered realm) found next

omit [Platform] in
theorem mappingSize?_eq {level : Nat} (bound : level ≤ 3) :
    S2tte.mappingSize? level = some (2 ^ (39 - 9 * level)) := by
  obtain rfl | rfl | rfl | rfl : level = 0 ∨ level = 1 ∨ level = 2 ∨ level = 3 := by omega
  all_goals rfl

omit [Platform] in
theorem wp_mappingSize {level : Nat} {ok : Nat → Machine → Prop} (bound : level ≤ 3)
    (next : ok (2 ^ (39 - 9 * level)) s) : wp (mappingSize level) ok err' s := by
  unfold mappingSize
  rw [mappingSize?_eq bound]
  exact next

theorem wp_levelSpaceSize {level : Nat} {ok : Nat → Machine → Prop}
    (realm : s.core.realm? a = some rd) (inv : s.core.Inv) (bound : level ≤ 3)
    (next : ∀ size, rd.tables.spaceSize? level = some size → ok size s) :
    wp (levelSpaceSize rd level) ok err' s := by
  unfold levelSpaceSize
  rw [wp_bind]
  refine wp_s2Table realm inv (wp_orPanic ?_ next)
  intro missing
  cases level with
  | zero => simp [spaceSize?, S2tte.mappingSize?] at missing
  | succ level => simp [spaceSize?, mappingSize?_eq (show level ≤ 3 by omega)] at missing

omit [Platform] in
/-- From the entry for `base`, which is number `k`, the loop passes the entries that are not live. -/
theorem Rtt.skipLoop_spec {size base k : Nat} (pos : 0 < size) (es : List Word) {bottom addr : Nat}
    (start : bottom + k * size = base) : ∃ n, Rtt.skipLoop size base es bottom addr = addr + n * size ∧
      (∀ j < n, ∃ e, es[k + j]? = some e ∧ S2tte.isLive e = false) ∧
      ∀ e, es[k]? = some e → S2tte.isLive e = false → 0 < n := by
  induction es generalizing k bottom addr with
  | nil => exact ⟨0, by simp [Rtt.skipLoop], nofun, by simp⟩
  | cons first rest ih =>
    unfold Rtt.skipLoop
    cases k with
    | succ k =>
      -- not yet at `base`
      have grow : (k + 1) * size = k * size + size := Nat.succ_mul k size
      rw [if_pos (by omega)]
      obtain ⟨n, value, passed, progress⟩ := @ih k (bottom + size) addr (by omega)
      refine ⟨n, value, fun j before => ?_, progress⟩
      rw [show k + 1 + j = k + j + 1 by omega]
      exact passed j before
    | zero =>
      rw [if_neg (by omega)]
      by_cases live : S2tte.isLive first = true
      · rw [if_pos live]
        refine ⟨0, by omega, nofun, ?_⟩
        intro e found dead
        cases Option.some.inj found
        exact nomatch live.symm.trans dead
      · rw [if_neg live]
        obtain ⟨n, value, passed, _⟩ := @ih 0 bottom (addr + size) start
        refine ⟨n + 1, ?_, fun j before => ?_, fun _ _ _ => Nat.succ_pos n⟩
        · rw [value, Nat.succ_mul]
          omega
        · cases j with
          | zero => exact ⟨first, rfl, by simpa using live⟩
          | succ j =>
            obtain ⟨e, found, dead⟩ := passed j (by omega)
            exact ⟨e, by rw [show 0 + (j + 1) = 0 + j + 1 by omega]; exact found, dead⟩

/-- From `base` up to `top`, the entries of the level are not live; if that for `base` is not, `top` is beyond it. -/
structure Core.Skips (c : Core) (a level base top : Nat) : Prop where
  dead : ∀ x, base ≤ x → x < top → ∃ e, c.forest.entry a level (x / 2 ^ (39 - 9 * level)) = some e ∧
    S2tte.isLive e = false
  progress : ∀ e, c.forest.entry a level (base / 2 ^ (39 - 9 * level)) = some e → S2tte.isLive e = false → base < top

/-- The loop over `n` entries, of which the first is entry `first` of the level. -/
theorem Core.Skips.of_loop {c : Core} {level base first n : Nat} {f : Nat → Word} (aligned : base % 2 ^ (39 - 9 * level) = 0)
    (low : first ≤ base / 2 ^ (39 - 9 * level)) (high : base / 2 ^ (39 - 9 * level) < first + n)
    (listed : ∀ i < n, c.forest.entry a level (first + i) = some (f i)) :
    c.Skips a level base (Rtt.skipLoop (2 ^ (39 - 9 * level)) base ((List.range n).map f)
      (first * 2 ^ (39 - 9 * level)) base) := by
  have pos : 0 < 2 ^ (39 - 9 * level) := Nat.two_pow_pos _
  have whole := Nat.div_mul_cancel (Nat.dvd_of_mod_eq_zero aligned)
  obtain ⟨k, number⟩ := Nat.exists_eq_add_of_le low
  have start : first * 2 ^ (39 - 9 * level) + k * 2 ^ (39 - 9 * level) = base := by rw [← Nat.add_mul, ← number, whole]
  have read : ∀ {i e}, ((List.range n).map f)[i]? = some e → c.forest.entry a level (first + i) = some e := by
    intro i e found
    simp only [List.getElem?_map, Option.map_eq_some_iff, List.getElem?_eq_some_iff, List.length_range] at found
    obtain ⟨_, ⟨inside, rfl⟩, rfl⟩ := found
    rw [List.getElem_range]
    exact listed i inside
  obtain ⟨m, value, passed, progress⟩ := @Rtt.skipLoop_spec _ base k pos ((List.range n).map f) _ base start
  rw [value]
  refine ⟨fun x lower upper => ?_, fun e entry dead => ?_⟩
  · -- `x` is in one of the entries that were passed
    obtain ⟨d, rfl⟩ := Nat.exists_eq_add_of_le lower
    have inside : d / 2 ^ (39 - 9 * level) < m := (Nat.div_lt_iff_lt_mul pos).mpr (by omega)
    obtain ⟨e, found, dead⟩ := passed _ inside
    have place : (base + d) / 2 ^ (39 - 9 * level) = first + (k + d / 2 ^ (39 - 9 * level)) := by
      rw [Nat.add_div_of_dvd_right (Nat.dvd_of_mod_eq_zero aligned), number, Nat.add_assoc]
    rw [place]
    exact ⟨e, read found, dead⟩
  · have same := listed k (by omega)
    rw [← number, entry] at same
    cases same
    exact Nat.lt_add_of_pos_right (Nat.mul_pos (progress (f k) (by rw [List.getElem?_map, List.getElem?_range (by omega)]; rfl) dead) pos)

omit [Platform] in
/-- What the entries of a table cover; the root tables count as one. -/
theorem spaceSize?_eq {level size : Nat} (high : level ≤ 3) (space : rd.tables.spaceSize? level = some size) :
    size = 2 ^ (39 - 9 * level) * (512 * if level = rd.s2StartingLevel then rd.rttNumStart else 1) := by
  have wide : 512 * 2 ^ (39 - 9 * level) = 2 ^ (39 - 9 * level) * 512 := Nat.mul_comm _ _
  unfold Stage2Translation.spaceSize? at space
  dsimp only at space
  rcases level with _ | _ | _ | _ | level
  · cases space
    exact Nat.mul_assoc _ _ _
  · cases space
    exact Nat.mul_assoc (2 ^ 30) 512 _
  · cases space
    exact Nat.mul_assoc (2 ^ 21) 512 _
  · cases space
    exact Nat.mul_assoc (2 ^ 12) 512 _
  · omega

omit [Platform] in
/-- The start of the table of `n` pages that an aligned address belongs to. -/
theorem alignedTo_space (base size n : Nat) :
    Rtt.alignedTo base (size * (512 * n)) = base / size / (512 * n) * (512 * n) * size := by
  rw [Rtt.alignedTo, Vmsa.alignDown, ← Nat.div_div_eq_div_mul, Nat.mul_comm size, ← Nat.mul_assoc]

/-- The entries of the root tables. -/
theorem wp_rootEntries {ipa : Nat} {ok : List Word × Nat → Machine → Prop} (realm : s.core.realm? a = some rd)
    (inv : s.core.Inv) (next : ok (readEntries s.core ⟨rd.rttBase, rd.rttNumStart⟩, rd.s2StartingLevel) s) :
    wp (entries rd ipa rd.s2StartingLevel) ok err' s := by
  have top := (inv.realms.shape realm).level_le
  have found : rd.tables.tableEntries s.core ipa rd.s2StartingLevel =
      .found ⟨rd.rttBase, rd.rttNumStart⟩ rd.s2StartingLevel := by
    unfold tableEntries
    rw [if_neg (by omega), if_neg (show ¬rd.tables.rootLevel < rd.s2StartingLevel from Nat.lt_irrefl _)]
    rfl
  exact wp_listedEntries (inv.realms.registered realm) found next

/-- An entry of the root tables by its number. -/
theorem entry_root {c : Core} {i : Nat} (realm : c.realm? a = some rd) (inside : i < 512 * rd.rttNumStart) :
    c.forest.entry a rd.s2StartingLevel i = some (pte c ⟨rd.rttBase + 4096 * (i / 512), i % 512⟩) := by
  rw [Forest.entry, root_place realm (by omega)]
  rfl

/-- Looking for the next live entry in the table at which a walk has arrived. -/
theorem wp_skipNonLiveEntries {base level b : Nat} {ok : Nat → Machine → Prop} (realm : s.core.realm? a = some rd)
    (inv : s.core.Inv) (bound : level ≤ 3) (inside : base < rd.ipaSize) (aligned : base % 2 ^ (39 - 9 * level) = 0)
    (there : s.core.forest.node a level (base / 4096 / 512 ^ (3 - level) / 512) = some b)
    (next : ∀ top, s.core.Skips a level base top → ok top s) :
    wp (Rtt.skipNonLiveEntries rd base level) ok err' s := by
  have shape := inv.realms.shape realm
  have whole : Rtt.alignedTo base (2 ^ (39 - 9 * level)) = base := Nat.div_mul_cancel (Nat.dvd_of_mod_eq_zero aligned)
  have number : base / 4096 / 512 ^ (3 - level) = base / 2 ^ (39 - 9 * level) := by
    rw [Nat.div_div_eq_div_mul, entry_bytes bound]
  have low := Forest.top_le_of_node there
  rw [Core.forest_top realm] at low
  unfold Rtt.skipNonLiveEntries
  rw [wp_bind]
  refine wp_mappingSize bound ?_
  rw [wp_bind]
  refine wp_errIf (fun bad => absurd whole bad) fun _ => ?_
  rw [wp_bind, whole]
  refine wp_levelSpaceSize realm inv bound fun size known => ?_
  rw [wp_bind, spaceSize?_eq bound known, alignedTo_space]
  rcases Nat.eq_or_lt_of_le low with root | below
  · subst root
    have small : base / 2 ^ (39 - 9 * rd.s2StartingLevel) < 512 * rd.rttNumStart := by
      rw [← number, ← (shape.rootIndex inside).1]
      exact (shape.rootIndex inside).2
    rw [if_pos rfl]
    refine wp_rootEntries realm inv ?_
    rw [wp_pure, Nat.div_eq_of_lt small, Nat.zero_mul]
    refine next _ (.of_loop aligned (Nat.zero_le _) (by rw [Nat.zero_add]; exact small) fun i inside => ?_)
    rw [Nat.zero_add]
    exact entry_root realm inside
  · refine wp_entries realm inv bound inside below there ?_
    rw [wp_pure, if_neg (Nat.ne_of_gt below)]
    rw [number] at there
    refine next _ (.of_loop aligned (Nat.div_mul_le_self _ _) ?_ fun i inside => ?_)
    · omega
    · generalize base / 2 ^ (39 - 9 * level) = q at there ⊢
      rw [Forest.entry, show (q / (512 * 1) * (512 * 1) + i) / 512 = q / 512 by omega, there,
        show (q / (512 * 1) * (512 * 1) + i) % 512 = i by omega]
      rfl

end Walks

/-! ### Realm descriptors -/

theorem wp_lockRd {a : Nat} {f : Nat → Rd → RmmM α}
    (bad : s.core.realm? a = none → (validateAddr a = true → granuleAddrToIndex a ∉ s.held) →
      err' (.error .rmiErrorInput) s)
    (stuck : validateAddr a = true → granuleAddrToIndex a ∈ s.held → err' .deadlock s)
    (good : ∀ rd, s.core.realm? a = some rd → granuleAddrToIndex a ∉ s.held →
      wp (f (granuleAddrToIndex a) rd) ok err' { s with held := granuleAddrToIndex a :: s.held }) :
    wp (getGranuleIf a .rd >>= fun g => contentRd g >>= f g) ok err' s := by
  rw [wp_bind]
  refine wp_getGranuleIf (fun missing free => bad (if_neg missing) free) stuck fun valid state free => ?_
  rw [wp_bind, wp_contentRd, indexToAddr_granuleAddrToIndex valid]
  exact good _ (Core.realm?_eq_some.mpr ⟨valid, state, rfl⟩) free

omit [Platform] in
theorem wp_recOwner {r : Rec} {o : Nat} {ok : Nat → Machine → Prop} (owner : r.owner = some o) (next : ok o s) :
    wp (recOwner r) ok err' s := by
  unfold recOwner
  rw [owner]
  exact next

theorem wp_recRealmid {r : Rec} {o : Nat} {ok : Nat → Machine → Prop} (owner : r.owner = some o)
    (next : ok (s.core.mem o).asRd.vmid s) : wp (recRealmid r) ok err' s := by
  unfold recRealmid
  rw [wp_bind]
  exact wp_recOwner owner next

omit [Platform] in
/-- While only one granule is locked, every other one can be. -/
theorem free_of_ne {a b : Nat} (valid : validateAddr a = true) (valid' : validateAddr b = true) (other : b ≠ a) :
    granuleAddrToIndex b ∉ [granuleAddrToIndex a] := by
  rw [List.mem_singleton, granuleAddrToIndex_inj valid' valid]
  exact other

end Islet.Rmm
