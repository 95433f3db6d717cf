import Islet.Rmm.Lifetimes

/-! Changes of contents alone: descriptors and RECs that keep what the rest of the
state relies on, the memory of realms, and the memory of the host. Everything a
realm does between two exits, and everything the monitor does for it, is of this
kind. -/

namespace Islet.Rmm

open Lib Bits Rmi Stage2Translation

variable [Platform]

/-- States of granules whose contents change without a change of state. -/
def Writable (state : GranuleState) : Prop :=
  state = .rd ∨ state = .recCtx ∨ state = .data ∨ state = .undelegated

structure Calm (c c' : Core) : Prop where
  granules : c'.granules = c.granules
  gpt : c'.gpt = c.gpt
  rttTables : c'.rttTables = c.rttTables
  vmidSet : c'.vmidSet = c.vmidSet
  realms : SameRealms c c'
  metadata : SameMetadata c c'
  recs : SameRecs c c'
  fixed : ∀ b, ¬Writable (c.stateOf b) → c'.mem b = c.mem b

namespace Calm

variable {c c' c'' : Core} {a : Nat}

theorem stateOf (calm : Calm c c') (b : Nat) : c'.stateOf b = c.stateOf b := by
  unfold Core.stateOf Core.granule
  rw [calm.granules]

theorem refCount (calm : Calm c c') (b : Nat) : c'.refCount b = c.refCount b := by
  unfold Core.refCount Core.granule
  rw [calm.granules]

theorem gptOf (calm : Calm c c') (b : Nat) : c'.gptOf b = c.gptOf b := by
  unfold Core.gptOf
  rw [calm.gpt]

protected theorem refl (c : Core) : Calm c c :=
  ⟨rfl, rfl, rfl, rfl, fun _ => rfl, fun _ => rfl,
    ⟨fun _ _ => Iff.rfl, fun _ _ _ => rfl, fun _ _ _ => rfl, fun _ _ _ => id⟩, fun _ _ => rfl⟩

theorem sameOwners (calm : Calm c c') : SameOwners c c' := by
  refine ⟨calm.realms, fun b _ state => ⟨by rw [calm.stateOf]; exact state, ?_⟩,
    fun b _ state => by rw [calm.stateOf]; exact state⟩
  rw [calm.fixed b (by rw [state]; simp [Writable])]

theorem inv (calm : Calm c c') (inv : c.Inv) : c'.Inv :=
  ⟨inv.realms.of_same calm.realms calm.rttTables calm.vmidSet,
    inv.metadata.of_same calm.metadata fun m _ state => by rw [calm.stateOf]; exact state,
    inv.tables.of_same calm.sameOwners, inv.recs.of_same calm.recs,
    inv.gpt.of_same (fun b _ => by rw [calm.stateOf]) calm.gptOf,
    inv.counts.of_same calm.recs calm.refCount fun b _ state => by rw [← calm.stateOf]; exact state⟩

omit [Platform] in
theorem fixed_setContent {content : Content} (writable : Writable (c.stateOf a)) (b : Nat)
    (fixed : ¬Writable (c.stateOf b)) : (c.setContent a content).mem b = c.mem b := by
  apply Core.mem_setContent_of_ne
  rintro rfl
  exact fixed writable

/-- Memory of realms and of the host is free. -/
theorem setContent {content : Content} (free : c.stateOf a = .data ∨ c.stateOf a = .undelegated) :
    Calm c (c.setContent a content) := by
  have realm : c.stateOf a ≠ .rd := by rcases free with same | same <;> rw [same] <;> exact nofun
  have recs : c.stateOf a ≠ .recCtx := by rcases free with same | same <;> rw [same] <;> exact nofun
  exact ⟨rfl, rfl, rfl, rfl, sameRealms_setContent realm, sameMetadata_setContent realm,
    sameRecs_setContent recs, fixed_setContent (.inr (.inr free))⟩

/-- A realm may change its descriptor, but not the layout and metadata it records. -/
theorem setRd {rd rd' : Rd} (realm : c.realm? a = some rd) (layout : rd'.layout = rd.layout)
    (metadata : rd'.metadata = rd.metadata) : Calm c (c.setContent a (.rd rd')) := by
  have state := (Core.realm?_eq_some.mp realm).2.1
  refine ⟨rfl, rfl, rfl, rfl, sameRealms_setRd realm layout, ?_,
    sameRecs_setContent (by rw [state]; exact nofun), fixed_setContent (.inl state)⟩
  intro b
  rw [realm?_setRd realm]
  split
  · rename_i same
    rw [same, realm, Option.map_some, Option.map_some, metadata]
  · rfl

/-- Events change nothing but the log. -/
theorem emits (calm : Calm c c') (events : List Event) : Calm c (c'.emits events) :=
  ⟨calm.granules, calm.gpt, calm.rttTables, calm.vmidSet, calm.realms, calm.metadata,
    ⟨calm.recs.states, calm.recs.owner, calm.recs.aux, calm.recs.ripas⟩, calm.fixed⟩

/-- A REC may change, but neither its owner nor its auxiliary granules. -/
theorem setRec {r : Rec} (state : c.stateOf a = .recCtx) (owner : r.owner = (c.mem a).asRec.owner)
    (aux : r.aux = (c.mem a).asRec.aux)
    (ripas : (c.mem a).asRec.ripas.state ≤ 1 → r.ripas.state ≤ 1) :
    Calm c (c.setContent a (.recCtx r)) := by
  have realm : c.stateOf a ≠ .rd := by rw [state]; exact nofun
  have mem : ∀ b, b ≠ a → (c.setContent a (.recCtx r)).mem b = c.mem b := fun b other =>
    Core.mem_setContent_of_ne _ other
  refine ⟨rfl, rfl, rfl, rfl, sameRealms_setContent realm, sameMetadata_setContent realm,
    ⟨fun _ _ => Iff.rfl, ?_, ?_, ?_⟩, fixed_setContent (.inr (.inl state))⟩
  · intro b _ _
    by_cases same : b = a
    · rw [same, Core.mem_setContent_same]
      exact owner
    · rw [mem b same]
  · intro b _ _
    by_cases same : b = a
    · rw [same, Core.mem_setContent_same]
      exact aux
    · rw [mem b same]
  · intro b _ _ known
    by_cases same : b = a
    · subst same
      rw [Core.mem_setContent_same]
      exact ripas known
    · rw [mem b same]
      exact known

end Calm

end Islet.Rmm
