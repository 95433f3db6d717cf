import Islet.Rmm.Rules

/-! Several granules that change to one state, one after the other. -/

namespace Islet.Rmm

open Lib Prog Rmi

/-- From `c` to `c'` the granules of `S` went to one state, and no memory outside `W` changed. -/
structure Sets (c c' : Core) (S W : Nat → Prop) (state : GranuleState) : Prop where
  valid : ∀ b, S b → validateAddr b = true
  inside : ∀ b, S b → c'.stateOf b = state
  outside : ∀ b, validateAddr b = true → ¬S b → c'.stateOf b = c.stateOf b
  zero : state = .delegated → ∀ b, S b → c'.mem b = .raw .zero
  mem : ∀ b, ¬W b → c'.mem b = c.mem b
  refCount : ∀ b, c'.refCount b = c.refCount b
  gpt : ∀ b, c'.gptOf b = c.gptOf b
  rttTables : c'.rttTables = c.rttTables
  vmidSet : c'.vmidSet = c.vmidSet
  log : c'.log = c.log

namespace Sets

variable {c c' : Core} {S W : Nat → Prop} {state : GranuleState} {x : Nat}

protected theorem refl (c : Core) (W : Nat → Prop) (state : GranuleState) :
    Sets c c (fun _ => False) W state :=
  ⟨nofun, nofun, fun _ _ _ => rfl, fun _ => nofun, fun _ _ => rfl, fun _ => rfl, fun _ => rfl, rfl, rfl, rfl⟩

theorem congr {T : Nat → Prop} (sets : Sets c c' S W state) (same : ∀ b, T b ↔ S b) : Sets c c' T W state := by
  refine ⟨fun b inT => sets.valid b ((same b).mp inT), fun b inT => sets.inside b ((same b).mp inT),
    fun b valid notT => sets.outside b valid fun inS => notT ((same b).mpr inS),
    fun wiped b inT => sets.zero wiped b ((same b).mp inT), sets.mem, sets.refCount, sets.gpt, sets.rttTables,
    sets.vmidSet, sets.log⟩

theorem not_wipes {prev : GranuleState} (inRealm : state ≠ .undelegated) (used : state ≠ .delegated) :
    wipes prev state = false := by
  unfold wipes
  cases prev <;> simp [inRealm, used]

/-- One more granule. -/
theorem next (sets : Sets c c' S W state) (valid : validateAddr x = true) (inRealm : state ≠ .undelegated)
    (written : state = .delegated → W x) :
    Sets c (setStateCore (granuleAddrToIndex x) state c') (fun b => S b ∨ b = x) W state := by
  refine ⟨?_, ?_, ?_, ?_, ?_, fun b => ?_, fun b => ?_, ?_, ?_, ?_⟩
  · rintro b (inS | rfl)
    · exact sets.valid b inS
    · exact valid
  · intro b member
    by_cases same : b = x
    · subst same
      exact Core.stateOf_setStateCore_same state
    · rcases member with inS | equal
      · rw [Core.stateOf_setStateCore_of_ne state valid (sets.valid b inS) same]
        exact sets.inside b inS
      · exact absurd equal same
  · intro b validB outside
    rw [not_or] at outside
    rw [Core.stateOf_setStateCore_of_ne state valid validB outside.2]
    exact sets.outside b validB outside.1
  · rintro rfl b member
    by_cases same : b = x
    · subst same
      exact Core.mem_setStateCore_delegated valid
    · rcases member with inS | equal
      · rw [Core.mem_setStateCore_of_ne _ valid same]
        exact sets.zero rfl b inS
      · exact absurd equal same
  · intro b outside
    by_cases used : state = .delegated
    · have other : b ≠ x := by
        rintro rfl
        exact outside (written used)
      rw [Core.mem_setStateCore_of_ne _ valid other]
      exact sets.mem b outside
    · rw [Core.mem_setStateCore_of_not_wipes _ (not_wipes inRealm used)]
      exact sets.mem b outside
  · rw [Core.refCount_setStateCore]
    exact sets.refCount b
  · rw [Core.gptOf_setStateCore]
    exact sets.gpt b
  · rw [Core.rttTables_setStateCore]
    exact sets.rttTables
  · rw [Core.vmidSet_setStateCore]
    exact sets.vmidSet
  · rw [Core.log_setStateCore]
    exact sets.log

/-- A write to a granule that is written anyway. -/
theorem write (sets : Sets c c' S W state) (content : Content) (written : W x)
    (fresh : ¬S x) : Sets c (c'.setContent x content) S W state := by
  refine ⟨sets.valid, sets.inside, sets.outside, ?_, ?_, sets.refCount, sets.gpt, sets.rttTables, sets.vmidSet,
    sets.log⟩
  · intro wiped b inS
    rw [Core.mem_setContent_of_ne]
    · exact sets.zero wiped b inS
    · rintro rfl
      exact fresh inS
  · intro b outside
    rw [Core.mem_setContent_of_ne]
    · exact sets.mem b outside
    · rintro rfl
      exact outside written

end Sets

/-- The program went from `s` to `t` by such changes of state, all of them legal. -/
structure SetsBy (s t : Machine) (S W : Nat → Prop) (state : GranuleState) : Prop where
  sets : Sets s.core t.core S W state
  legal : LegalSince s t
  pageTable : Mm.PageTable.Safe s.pageTable t.pageTable
  held : t.held = s.held
  ret : t.ret = s.ret

namespace SetsBy

variable {s t : Machine} {S W : Nat → Prop} {state : GranuleState} {x : Nat}

protected theorem refl (s : Machine) (W : Nat → Prop) (state : GranuleState) :
    SetsBy s s (fun _ => False) W state :=
  ⟨.refl _ _ _, .of_eq rfl, .refl _, rfl, rfl⟩

/-- The same, with the set written differently and another page table. -/
theorem congr {T : Nat → Prop} (by' : SetsBy s t S W state) (same : ∀ b, T b ↔ S b) : SetsBy s t T W state :=
  ⟨by'.sets.congr same, by'.legal, by'.pageTable, by'.held, by'.ret⟩

/-- One more granule, by `set_granule`. -/
theorem next {u : Machine} (by' : SetsBy s t S W state) (valid : validateAddr x = true)
    (inRealm : state ≠ .undelegated) (written : state = .delegated → W x)
    (legal : t.core.stateOf x = .delegated ∧ state ≠ .delegated ∨
      t.core.stateOf x ≠ .delegated ∧ state = .delegated)
    (core : u.core = setStateCore (granuleAddrToIndex x) state t.core)
    (trace : u.trace = (⟨granuleAddrToIndex x, t.core.stateOf x, state⟩ :: t.history, t.stores))
    (pageTable : Mm.PageTable.Safe t.pageTable u.pageTable) (held : u.held = t.held) (ret : u.ret = t.ret) :
    SetsBy s u (fun b => S b ∨ b = x) W state :=
  ⟨by rw [core]; exact by'.sets.next valid inRealm written, by'.legal.trans (legal_setGranule trace legal),
    by'.pageTable.trans pageTable, held.trans by'.held, ret.trans by'.ret⟩

end SetsBy

/-- The addresses of the first `j` of a family of granules. -/
def Among (f : Nat → Nat) (j b : Nat) : Prop := ∃ i < j, b = f i

theorem among_succ {f : Nat → Nat} {j b : Nat} : Among f (j + 1) b ↔ Among f j b ∨ b = f j := by
  constructor
  · rintro ⟨i, bound, rfl⟩
    rcases Nat.lt_succ_iff_lt_or_eq.mp bound with earlier | rfl
    · exact .inl ⟨i, earlier, rfl⟩
    · exact .inr rfl
  · rintro (⟨i, bound, rfl⟩ | rfl)
    · exact ⟨i, by omega, rfl⟩
    · exact ⟨j, by omega, rfl⟩

theorem among_zero {f : Nat → Nat} {b : Nat} : ¬Among f 0 b := by
  rintro ⟨i, bound, _⟩
  exact Nat.not_lt_zero i bound

end Islet.Rmm
