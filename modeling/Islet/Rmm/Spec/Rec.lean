import Mathlib.Data.List.Chain
import Islet.Rmm.Spec.Create

/-! REC_CREATE, REC_DESTROY and PSCI_COMPLETE. -/

namespace Islet.Rmm

open Lib Prog Bits Rmi Stage2Translation

variable [Platform] {cmd : Command} {s : Machine} {a r : Nat} {err' : Halt → Machine → Prop}

/-! ### Registers -/

/-- Only the register context differs. -/
def Rec.SameBesidesContext (rc rc' : Rec) : Prop := ∃ context, rc' = { rc with context := context }

namespace Rec.SameBesidesContext

omit [Platform]

variable {rc rc' rc'' : Rec}

protected theorem refl (rc : Rec) : rc.SameBesidesContext rc := ⟨rc.context, rfl⟩

protected theorem trans (first : rc.SameBesidesContext rc') (second : rc'.SameBesidesContext rc'') :
    rc.SameBesidesContext rc'' := by
  obtain ⟨_, rfl⟩ := first
  obtain ⟨context, rfl⟩ := second
  exact ⟨context, rfl⟩

end Rec.SameBesidesContext

/-- Only general registers and the program counter differ. -/
def Rec.SameBesidesRegs (rc rc' : Rec) : Prop :=
  ∃ gpRegs elr, rc' = { rc with context := { rc.context with gpRegs := gpRegs, elr := elr } }

namespace Rec.SameBesidesRegs

omit [Platform]

variable {rc rc' rc'' : Rec}

theorem besidesContext (same : rc.SameBesidesRegs rc') : rc.SameBesidesContext rc' := by
  obtain ⟨_, _, rfl⟩ := same
  exact ⟨_, rfl⟩

protected theorem refl (rc : Rec) : rc.SameBesidesRegs rc := ⟨rc.context.gpRegs, rc.context.elr, rfl⟩

protected theorem trans (first : rc.SameBesidesRegs rc') (second : rc'.SameBesidesRegs rc'') :
    rc.SameBesidesRegs rc'' := by
  obtain ⟨_, _, rfl⟩ := first
  obtain ⟨gpRegs, elr, rfl⟩ := second
  exact ⟨gpRegs, elr, rfl⟩

theorem setReg (rc : Rec) (register : Nat) (value : Word) : rc.SameBesidesRegs (rc.setReg register value) := by
  unfold Rec.setReg
  split
  · exact ⟨_, _, rfl⟩
  · split
    · exact ⟨_, _, rfl⟩
    · exact .refl rc

theorem foldl_setReg {α : Type} (register : α → Nat) (value : α → Word) (list : List α) (rc : Rec) :
    rc.SameBesidesRegs (list.foldl (fun rc x => rc.setReg (register x) (value x)) rc) := by
  induction list generalizing rc with
  | nil => exact .refl rc
  | cons x list ih => exact (setReg rc _ _).trans (ih _)

theorem setParamRegs (params : RecParams) (rc : Rec) : rc.SameBesidesRegs (Rmi.setParamRegs params rc) :=
  (foldl_setReg id params.gprs (List.range 8) rc).trans (setReg _ _ _)

end Rec.SameBesidesRegs

/-! ### Parameters of a REC -/

section Params

variable {params : RecParams} {p : Nat}

omit [Platform] in
theorem wp_checkAux {list : List Nat} {prev : Option Nat} {ok : Unit → Machine → Prop} (idle : s.held = [])
    (pointer : s.core.stateOf p ≠ .delegated)
    (bad : ((∀ x ∈ list, s.core.Has x .delegated ∧ x ≠ r ∧ x ≠ a) → (∀ x, prev = some x → list.head? ≠ some x) →
      ¬list.IsChain (· ≠ ·)) → err' (.error .rmiErrorInput) s)
    (good : (∀ x ∈ list, s.core.Has x .delegated ∧ x ≠ r ∧ x ≠ a) →
      (∀ x, prev = some x → list.head? ≠ some x) → list.IsChain (· ≠ ·) → ok () s) :
    wp (checkAux r a p prev list) ok err' s := by
  induction list generalizing prev with
  | nil => exact good nofun (fun _ _ => nofun) .nil
  | cons x list ih =>
    unfold checkAux
    rw [wp_bind]
    refine wp_errIf (fun hit => bad fun all _ _ => ?_) fun apart => ?_
    · obtain ⟨has, notRec, notRd⟩ := all x List.mem_cons_self
      rcases hit with same | same | rfl
      · exact notRec same
      · exact notRd same
      · exact pointer has.2
    rw [wp_bind]
    refine wp_errIf (fun twice => bad fun _ head _ => head x twice rfl) fun fresh => ?_
    rw [wp_bind]
    refine wp_inScope (wp_getGranuleIf (fun missing _ => bad fun all _ _ => missing (all x List.mem_cons_self).1)
      (fun _ held => not_stuck idle held) fun valid state _ => ih (fun wrong => bad fun all _ chain => ?_)
      fun all head chain => good (fun y member => ?_) (fun y before same => ?_) ?_)
    · obtain ⟨first, rest⟩ := List.isChain_cons.mp chain
      refine wrong (fun y later => all y (List.mem_cons_of_mem _ later)) (fun y before same => ?_) rest
      cases before
      exact first x same rfl
    · rcases List.mem_cons.mp member with rfl | later
      · rw [not_or, not_or] at apart
        exact ⟨⟨valid, state⟩, apart.1, apart.2.1⟩
      · exact all y later
    · cases same
      exact fresh before
    · exact List.isChain_cons.mpr ⟨fun y first => fun same => head x rfl (same ▸ first), chain⟩

omit [Platform] in
theorem RecParams.sortedAux_perm : params.sortedAux.Perm ((List.range maxRecAuxGranules).map params.aux) := by
  unfold RecParams.sortedAux
  exact List.perm_insertionSort _ _

omit [Platform] in
/-- Neighbours of a sorted list differ only if all its elements do. -/
theorem RecParams.aux_inj (chain : params.sortedAux.IsChain (· ≠ ·)) {i j : Nat} (left : i < maxRecAuxGranules)
    (right : j < maxRecAuxGranules) (same : params.aux i = params.aux j) : i = j := by
  have ordered : params.sortedAux.Pairwise (· ≤ ·) := by
    unfold RecParams.sortedAux
    exact List.pairwise_insertionSort _ _
  have strict : params.sortedAux.Pairwise (· < ·) := by
    rw [← List.isChain_iff_pairwise, List.isChain_iff_getElem] at ordered ⊢
    rw [List.isChain_iff_getElem] at chain
    exact fun k inside => Nat.lt_of_le_of_ne (ordered k inside) (chain k inside)
  have nodup : ((List.range maxRecAuxGranules).map params.aux).Nodup :=
    RecParams.sortedAux_perm.nodup_iff.mp (strict.imp Nat.ne_of_lt)
  exact List.inj_on_of_nodup_map nodup (List.mem_range.mpr left) (List.mem_range.mpr right) same

omit [Platform] in
theorem RecParams.sortedAux_chain (apart : ∀ i < maxRecAuxGranules, ∀ j < i, params.aux i ≠ params.aux j) :
    params.sortedAux.IsChain (· ≠ ·) := by
  refine List.Pairwise.isChain (RecParams.sortedAux_perm.nodup_iff.mpr ?_)
  refine List.Nodup.map_on (fun i left j right same => ?_) List.nodup_range
  rcases Nat.lt_trichotomy i j with lower | equal | higher
  · exact absurd same.symm (apart j (List.mem_range.mp right) i lower)
  · exact equal
  · exact absurd same (apart i (List.mem_range.mp left) j higher)

/-- The parameters name sixteen delegated granules, all different, none of them the REC's or the realm's. -/
structure RecParams.Sound (params : RecParams) (c : Core) (a r : Nat) : Prop where
  mpidr : Mpidr.validate params.mpidr = true
  numAux : params.numAux = maxRecAuxGranules
  aux : ∀ i < maxRecAuxGranules, c.Has (params.aux i) .delegated ∧ params.aux i ≠ r ∧ params.aux i ≠ a
  apart : ∀ i < maxRecAuxGranules, ∀ j < i, params.aux i ≠ params.aux j

omit [Platform] in
theorem wp_verifyRecParams {ok : Unit → Machine → Prop} (idle : s.held = [])
    (pointer : s.core.stateOf p ≠ .delegated)
    (bad : ¬params.Sound s.core a r → err' (.error .rmiErrorInput) s) (good : params.Sound s.core a r → ok () s) :
    wp (verifyRecParams params r a p) ok err' s := by
  have listed : ∀ {x}, x ∈ params.sortedAux ↔ ∃ i < maxRecAuxGranules, params.aux i = x := by
    intro x
    rw [RecParams.sortedAux_perm.mem_iff, List.mem_map]
    simp only [List.mem_range]
  unfold verifyRecParams
  rw [wp_bind]
  refine wp_errIf (fun wrong => bad fun sound => ?_) fun right => wp_checkAux idle pointer
    (fun wrong => bad fun sound => ?_) fun all _ chain => good ⟨?_, ?_, fun i inside => ?_, ?_⟩
  · simp [sound.mpidr, sound.numAux] at wrong
  · refine wrong (fun x member => ?_) (fun _ => nofun) (RecParams.sortedAux_chain sound.apart)
    obtain ⟨i, inside, rfl⟩ := listed.mp member
    exact sound.aux i inside
  · simpa using (not_or.mp right).1
  · exact not_not.mp (not_or.mp right).2
  · exact all _ (listed.mpr ⟨i, inside, rfl⟩)
  · intro i inside j earlier same
    have := RecParams.aux_inj chain inside (by omega) same
    omega

end Params

/-! ### REC_CREATE -/

section Create

variable {rd : Rd} {rc : Rec} {params : RecParams}

omit [Platform] in
theorem wp_claimAux {ok : Unit → Machine → Prop}
    (aux : ∀ i < maxRecAuxGranules, s.core.Has (params.aux i) .delegated ∧
      granuleAddrToIndex (params.aux i) ∉ s.held)
    (apart : ∀ i < maxRecAuxGranules, ∀ j < i, params.aux i ≠ params.aux j)
    (next : ∀ t, SetsBy s t (Among params.aux maxRecAuxGranules) (fun _ => False) .recAux → ok () t) :
    wp (claimAux params.aux) ok err' s := by
  unfold claimAux
  refine wp_mono (wp_times (fun i t => SetsBy s t (Among params.aux i) (fun _ => False) .recAux) _ 0
    ((SetsBy.refl s _ _).congr fun b => iff_of_false among_zero id) ?_) (fun _ t sets => ?_) fun _ _ => id
  · intro i t _ inside sets
    obtain ⟨⟨valid, state⟩, free⟩ := aux i (by omega)
    have fresh : ¬Among params.aux i (params.aux i) := by
      rintro ⟨j, earlier, same⟩
      exact apart i (by omega) j earlier same
    have now : t.core.stateOf (params.aux i) = .delegated := by
      rw [sets.sets.outside _ valid fresh]
      exact state
    refine wp_inScope ?_
    rw [wp_bind]
    refine wp_mapSecure valid fun pt safe => ?_
    rw [wp_bind]
    refine wp_getGranuleIf_free valid now (by rw [sets.held]; exact free) ?_
    rw [wp_setGranule]
    exact SetsBy.congr (sets.next valid nofun nofun (.inl ⟨now, nofun⟩) rfl rfl safe rfl rfl) fun b => among_succ
  · rw [Nat.zero_add] at sets
    exact next t sets

/-- The REC that REC_CREATE makes. -/
def Rec.created (owner vcpuid : Nat) (params : RecParams) (vttbr vtcr : Word) (sveEn : Bool) : Rec :=
  { setParamRegs params (initRec owner vcpuid params vttbr (params.mpidr ||| (1#64 <<< 31)) sveEn) with vtcr := vtcr }

omit [Platform] in
theorem Rec.created_spec (owner vcpuid : Nat) (params : RecParams) (vttbr vtcr : Word) (sveEn : Bool) :
    let rc := Rec.created owner vcpuid params vttbr vtcr sveEn
    rc.owner = some owner ∧ rc.Clear ∧ rc.ripas.state ≤ 1 ∧ rc.aux = params.aux ∧ rc.vcpuid = vcpuid ∧
      rc.context.vttbr = vttbr ∧ rc.attestState = .noAttestInProgress := by
  obtain ⟨_, _, same⟩ := Rec.SameBesidesRegs.setParamRegs params
    (initRec owner vcpuid params vttbr (params.mpidr ||| (1#64 <<< 31)) sveEn)
  unfold Rec.created
  rw [same]
  exact ⟨rfl, ⟨rfl, rfl, rfl, rfl⟩, Nat.zero_le _, rfl, rfl, rfl, rfl⟩

/-- The REC that REC_CREATE makes for a realm. -/
def Rd.newRec (rd : Rd) (owner : Nat) (params : RecParams) : Rec :=
  .created owner rd.vcpuIndex params (vttbrOf rd rd.tables) (Platform.vtcr rd.s2StartingLevel rd.ipaBits) rd.sveEn

/-- The descriptor and the REC are written, and then the granules change state. -/
theorem NewRec.of_commit {c c₁ c₂ : Core} (realm : c.realm? a = some rd) (valid : validateAddr r = true)
    (state : c.stateOf r = .delegated) (isNew : rd.state = .new) (owner : rc.owner = some a) (clear : rc.Clear)
    (ripas : rc.ripas.state ≤ 1) (attest : rc.attestState = .noAttestInProgress) (number : rc.vcpuid = rd.vcpuIndex)
    (mpidr : Mpidr.validate params.mpidr = true ∧ Mpidr.index params.mpidr = rd.recIndex) (sameAux : rc.aux = params.aux)
    (aux : ∀ i < maxRecAuxGranules, c.Has (params.aux i) .delegated ∧ params.aux i ≠ r ∧ params.aux i ≠ a)
    (written : c₁ = (((c.setContent r (.recCtx rc)).setContent a (.rd (rd.addRec params.page))).emit
      (.measured a (.recCreate params.page))).emit (.recCreated r))
    (sets : Sets c₁ c₂ (Among params.aux maxRecAuxGranules) (fun _ => False) .recAux) :
    NewRec c (setStateCore (granuleAddrToIndex r) .recCtx (c₂.setGranule (granuleAddrToIndex a)
      { c₂.granules (granuleAddrToIndex a) with refCount := (c₂.granules (granuleAddrToIndex a)).refCount + 1 }))
      a r rd rc := by
  obtain ⟨validA, stateA, _⟩ := Core.realm?_eq_some.mp realm
  subst written
  have other : r ≠ a := by
    rintro rfl
    rw [stateA] at state
    exact nomatch state
  have index : ∀ {b}, validateAddr b = true → b ≠ a → granuleAddrToIndex b ≠ granuleAddrToIndex a :=
    fun validB apart same => apart ((granuleAddrToIndex_inj validB validA).mp same)
  constructor
  case realm => exact realm
  case valid => exact valid
  case state => exact state
  case isNew => exact isNew
  case owner => exact owner
  case clear => exact clear
  case ripas => exact ripas
  case attest => exact attest
  case aux =>
    intro i inside
    obtain ⟨⟨validX, stateX⟩, notRec, _⟩ := aux i inside
    rw [sameAux]
    exact ⟨validX, stateX, notRec⟩
  case isRec => exact Core.stateOf_setStateCore_same _
  case isAux =>
    intro i inside
    obtain ⟨⟨validX, _⟩, notRec, _⟩ := aux i inside
    rw [sameAux, Core.stateOf_setStateCore_of_ne _ valid validX notRec, EndRec.stateOf_setCount]
    exact sets.inside _ ⟨i, inside, rfl⟩
  case others =>
    intro b validB notRec notAux
    rw [Core.stateOf_setStateCore_of_ne _ valid validB notRec, EndRec.stateOf_setCount, sets.outside b validB]
    · rfl
    · rintro ⟨i, inside, same⟩
      rw [sameAux] at notAux
      exact notAux i inside same
  case number => exact number
  case desc =>
    refine ⟨params.page, ?_, ?_, mpidr⟩
    · rw [Core.mem_setStateCore_of_ne _ valid (Ne.symm other)]
      exact (sets.mem a id).trans (Core.mem_setContent_same _)
    · rw [Core.log_setStateCore]
      exact sets.log
  case context =>
    refine (congrFun (Core.mem_setStateCore_of_not_wipes .recCtx (Sets.not_wipes nofun nofun)) r).trans ?_
    exact (sets.mem r id).trans ((Core.mem_setContent_of_ne _ other).trans (Core.mem_setContent_same _))
  case mem =>
    intro b notRec notRd
    rw [Core.mem_setStateCore_of_ne _ valid notRec]
    exact (sets.mem b id).trans ((Core.mem_setContent_of_ne _ notRd).trans (Core.mem_setContent_of_ne _ notRec))
  case count =>
    rw [Core.refCount_setStateCore]
    refine (congrArg Granule.refCount (Function.update_self _ _ _)).trans ?_
    exact congrArg (· + 1) (sets.refCount a)
  case refCount =>
    intro b validB apart
    rw [Core.refCount_setStateCore]
    exact (congrArg Granule.refCount (Function.update_of_ne (index validB apart) _ _)).trans (sets.refCount b)
  case gpt =>
    intro b
    rw [Core.gptOf_setStateCore]
    exact sets.gpt b
  case rttTables =>
    rw [Core.rttTables_setStateCore]
    exact sets.rttTables
  case vmidSet =>
    rw [Core.vmidSet_setStateCore]
    exact sets.vmidSet

theorem wp_prepareVtcr {ok : Word → Machine → Prop} (shape : rd.Shape)
    (next : ok (Platform.vtcr rd.s2StartingLevel rd.ipaBits) s) : wp (prepareVtcr rd) ok err' s := by
  have := shape.level_le
  have := shape.bits
  have := shape.halves
  unfold prepareVtcr
  rw [wp_bind]
  refine wp_errIf (fun deep => by omega) fun _ => ?_
  rw [wp_bind]
  exact wp_errIf (fun wide => by omega) fun _ => next

theorem wp_modifyRec {x : Nat} {f : Rec → Rec} {ok : Unit → Machine → Prop} (valid : validateAddr x = true) :
    wp (modifyRec (granuleAddrToIndex x) f) ok err' s ↔
      ok () { s with core := s.core.setContent x (.recCtx (f (s.core.mem x).asRec)) } := by
  unfold modifyRec
  rw [wp_bind, wp_contentRec, wp_setRec, indexToAddr_granuleAddrToIndex valid]

/-- The end of REC_CREATE, once descriptor and REC are written. -/
theorem wp_commitRec {c : Core} {ok : Unit → Machine → Prop}
    (held : s.held = [granuleAddrToIndex r, granuleAddrToIndex a]) (realm : c.realm? a = some rd)
    (valid : validateAddr r = true) (state : c.stateOf r = .delegated) (isNew : rd.state = .new)
    (owner : rc.owner = some a) (clear : rc.Clear) (ripas : rc.ripas.state ≤ 1)
    (attest : rc.attestState = .noAttestInProgress) (number : rc.vcpuid = rd.vcpuIndex)
    (mpidr : Mpidr.validate params.mpidr = true ∧ Mpidr.index params.mpidr = rd.recIndex) (sameAux : rc.aux = params.aux)
    (aux : ∀ i < maxRecAuxGranules, c.Has (params.aux i) .delegated ∧ params.aux i ≠ r ∧ params.aux i ≠ a)
    (apart : ∀ i < maxRecAuxGranules, ∀ j < i, params.aux i ≠ params.aux j)
    (written : s.core = (((c.setContent r (.recCtx rc)).setContent a (.rd (rd.addRec params.page))).emit
      (.measured a (.recCreate params.page))).emit (.recCreated r))
    (done : ∀ t, NewRec c t.core a r rd rc → t.ret = s.ret → LegalSince s t →
      Mm.PageTable.Safe s.pageTable t.pageTable → ok () t) :
    wp (do
      claimAux params.aux
      incCount (granuleAddrToIndex a)
      setGranule (granuleAddrToIndex r) .recCtx) ok err' s := by
  obtain ⟨validA, stateA, _⟩ := Core.realm?_eq_some.mp realm
  have other : r ≠ a := by
    rintro rfl
    rw [stateA] at state
    exact nomatch state
  have states : ∀ b, s.core.stateOf b = c.stateOf b := fun b => by rw [written]; rfl
  rw [wp_bind]
  refine wp_claimAux (fun i inside => ⟨⟨(aux i inside).1.1, ?_⟩, ?_⟩) apart fun t sets => ?_
  · rw [states]
    exact (aux i inside).1.2
  · obtain ⟨⟨validX, _⟩, notRec, notRd⟩ := aux i inside
    rw [held, List.mem_cons, List.mem_singleton, granuleAddrToIndex_inj validX valid,
      granuleAddrToIndex_inj validX validA, not_or]
    exact ⟨notRec, notRd⟩
  rw [wp_bind, wp_incCount, wp_setGranule]
  refine done _ (NewRec.of_commit realm valid state isNew owner clear ripas attest number mpidr sameAux aux written
    sets.sets) sets.ret ?_ sets.pageTable
  have now : t.core.stateOf r = .delegated := by
    rw [sets.sets.outside r valid, states, state]
    rintro ⟨i, inside, same⟩
    exact (aux i inside).2.1 same.symm
  refine sets.legal.trans (legal_setGranule rfl (.inl ⟨?_, nofun⟩))
  rw [← now]
  exact congrArg Granule.state (Function.update_of_ne
    (fun same => other ((granuleAddrToIndex_inj valid validA).mp same)) _ _)

/-- The part of REC_CREATE after the checks. -/
theorem wp_buildRec {ok : Unit → Machine → Prop} (inv : s.core.Inv)
    (held : s.held = [granuleAddrToIndex r, granuleAddrToIndex a]) (realm : s.core.realm? a = some rd)
    (valid : validateAddr r = true) (state : s.core.stateOf r = .delegated) (isNew : rd.state = .new)
    (mpidr : Mpidr.validate params.mpidr = true ∧ Mpidr.index params.mpidr = rd.recIndex)
    (aux : ∀ i < maxRecAuxGranules, s.core.Has (params.aux i) .delegated ∧ params.aux i ≠ r ∧ params.aux i ≠ a)
    (apart : ∀ i < maxRecAuxGranules, ∀ j < i, params.aux i ≠ params.aux j)
    (done : ∀ t, NewRec s.core t.core a r rd (rd.newRec a params) → t.ret 1 = rd.vcpuIndex → LegalSince s t →
      Mm.PageTable.Safe s.pageTable t.pageTable → ok () t) :
    wp (do
      pageTableMap r true
      setRec (granuleAddrToIndex r) Rec.new
      let t ← s2Table rd
      let vcpuid := rd.vcpuIndex
      let rd := { rd with vcpuIndex := vcpuid + 1 }
      setRd (granuleAddrToIndex a) rd
      setRet 1 vcpuid
      errIf (a = 0) .rmiErrorInput
      setRec (granuleAddrToIndex r) (initRec a vcpuid params (vttbrOf rd t)
        (params.mpidr ||| (1#64 <<< 31)) rd.sveEn)
      modifyRec (granuleAddrToIndex r) (setParamRegs params)
      let vtcr ← prepareVtcr rd
      modifyRec (granuleAddrToIndex r) fun r => { r with vtcr := vtcr }
      let rd := { rd with recIndex := rd.recIndex + 1 }
      setRd (granuleAddrToIndex a) rd
      let measured ← ofExcept (HashContext.measureRecParams rd params)
      setRd (granuleAddrToIndex a) measured
      emit (.measured a (.recCreate params.page))
      emit (.recCreated r)
      claimAux params.aux
      incCount (granuleAddrToIndex a)
      setGranule (granuleAddrToIndex r) .recCtx) ok err' s := by
  obtain ⟨validA, stateA, _⟩ := Core.realm?_eq_some.mp realm
  have shape := inv.realms.shape realm
  have hash := inv.realms.hash realm
  rw [wp_bind]
  refine wp_mapSecure valid fun pt safe => ?_
  rw [wp_bind, wp_setRec, indexToAddr_granuleAddrToIndex valid, wp_bind]
  have notRd : s.core.stateOf r ≠ .rd := by rw [state]; exact nofun
  refine wp_s2Table (a := a) ?_ (inv.setContent notRd (by rw [state]; exact nofun) (by rw [state]; exact nofun)) ?_
  · rw [realm?_setContent notRd]
    exact realm
  dsimp only
  rw [wp_bind, wp_setRd, indexToAddr_granuleAddrToIndex validA, wp_bind, wp_setRet, wp_bind]
  refine wp_errIf (fun zero => ?_) fun _ => ?_
  · rw [validateAddr_iff] at validA
    omega
  rw [wp_bind, wp_setRec, indexToAddr_granuleAddrToIndex valid, wp_bind, wp_modifyRec valid,
    Core.mem_setContent_same, Content.asRec_recCtx, wp_bind]
  refine wp_prepareVtcr (@Rd.Shape.of_layout rd _ rfl shape) ?_
  rw [wp_bind, wp_modifyRec valid, Core.mem_setContent_same, Content.asRec_recCtx]
  rw [wp_bind, wp_setRd, indexToAddr_granuleAddrToIndex validA, wp_bind]
  dsimp only
  have measured : HashContext.measureRecParams
      { rd with vcpuIndex := rd.vcpuIndex + 1, recIndex := rd.recIndex + 1 } params =
      .ok (rd.addRec params.page) := by
    refine HashContext.measureRecParams_ok ?_ params
    exact hash
  refine wp_ofExcept (fun e wrong => ?_) fun rd' run => ?_
  · rw [measured] at wrong
    exact nomatch wrong
  cases measured.symm.trans run
  rw [wp_bind, wp_setRd, indexToAddr_granuleAddrToIndex validA, wp_bind, wp_emit, wp_bind, wp_emit]
  obtain ⟨owner, clear, ripas, sameAux, number, _, attest⟩ := Rec.created_spec a rd.vcpuIndex params (vttbrOf rd rd.tables)
    (Platform.vtcr rd.s2StartingLevel rd.ipaBits) rd.sveEn
  refine wp_commitRec held realm valid state isNew owner clear ripas attest number mpidr sameAux aux apart ?_
    fun t new ret legal safe' => done t new (by rw [ret]; rfl) ((LegalSince.of_eq rfl).trans legal) (safe.trans safe')
  simp only [Core.emit, Core.setContent]
  congr 1
  funext b
  by_cases isRd : b = a
  · subst isRd
    simp
  · by_cases isRec : b = r
    · subst isRec
      simp only [ne_eq, isRd, not_false_eq_true, Function.update_of_ne, Function.update_self]
      rfl
    · simp [isRd, isRec]

/-- What REC_CREATE asks for. -/
structure ReadyForRec (c : Core) (a r p : Nat) (params : RecParams) : Prop where
  other : r ≠ a
  pointer : c.Has p .undelegated
  sound : params.Sound c a r
  realm : ∃ rd, c.realm? a = some rd ∧ rd.state = .new ∧ Mpidr.index params.mpidr = rd.recIndex
  context : c.Has r .delegated

/-- REC_CREATE either makes the REC or changes nothing. -/
theorem recCreate_spec (rdW recW ptrW : Word) {p : Nat} (inv : s.core.Inv) (idle : s.held = [])
    (rdEq : rdW.toNat = a) (recEq : recW.toNat = r) (ptrEq : ptrW.toNat = p)
    (command : cmd = .recCreate rdW recW ptrW) :
    wp (Rmi.recCreate a r p)
      (fun _ t => Kept s.core cmd s t ∧ (∀ q, ¬LeavesMapped s.core cmd q) ∧
        RecParams.Sound ⟨(s.core.mem p).words⟩ s.core a r ∧
        ∃ rd, NewRec s.core t.core a r rd (rd.newRec a ⟨(s.core.mem p).words⟩) ∧ t.ret 1 = rd.vcpuIndex)
      (fun halt t => Ends cmd s halt t ∧ (∀ e, halt = .error e → t.core = s.core) ∧
        ¬ReadyForRec s.core a r p ⟨(s.core.mem p).words⟩) s := by
  generalize paramsEq : (⟨(s.core.mem p).words⟩ : RecParams) = params
  have unlocked : ¬SelfLocks s.core cmd := by
    rw [command]
    exact id
  have leaves : ∀ q, LeavesMapped s.core cmd q ↔ p = q ∧ r ≠ a ∧ Stray s.core q := by
    rw [command]
    intro q
    rw [LeavesMapped, rdEq, recEq, ptrEq]
  have early : ∀ {t : Machine} {halt : Halt}, (∀ q, ¬LeavesMapped s.core cmd q) →
      ¬ReadyForRec s.core a r p params → halt ≠ .deadlock → t.core = s.core → t.trace = s.trace →
      Mm.PageTable.Safe s.pageTable t.pageTable →
      Ends cmd s halt t ∧ (∀ e, halt = .error e → t.core = s.core) ∧ ¬ReadyForRec s.core a r p params :=
    fun clean unready free core trace safe =>
      ⟨Kept.ends ⟨by rw [core], .of_eq trace, safe⟩ free unlocked clean, fun _ _ => core, unready⟩
  unfold Rmi.recCreate
  rw [wp_bind]
  refine wp_errIf (fun same => early (fun q left => ?_) (fun ready => ready.other same) (by simp) rfl rfl (.refl _))
    fun other => ?_
  · exact ((leaves q).mp left).2.1 same
  have small : p < 2 ^ 64 := by
    rw [← ptrEq]
    exact ptrW.isLt
  refine wp_fetch small (fun _ held => not_stuck idle held) (fun missing stray => ?_) (fun stray _ pt run => ?_)
    fun has _ pt run => ?_
  · have clean : ∀ q, ¬LeavesMapped s.core cmd q := by
      intro q left
      obtain ⟨rfl, _, can⟩ := (leaves q).mp left
      exact stray can
    have unready : ¬ReadyForRec s.core a r p params := fun ready => missing ready.pointer
    exact ⟨early clean unready (by simp) rfl rfl (.refl _), early clean unready (by simp) rfl rfl (.refl _)⟩
  · refine ⟨⟨iff_of_false (by simp) unlocked, .of_eq rfl, .inr ⟨p, ?_, rfl, rfl, s.pageTable, .refl _, run⟩⟩,
      fun _ _ => rfl, fun ready => stray.2 ready.pointer⟩
    exact (leaves p).mpr ⟨rfl, other, stray⟩
  have clean : ∀ q, ¬LeavesMapped s.core cmd q := by
    intro q left
    obtain ⟨rfl, _, stray⟩ := (leaves q).mp left
    exact stray.2 has
  have pointer : s.core.stateOf p ≠ .delegated := by
    rw [has.2]
    simp
  obtain ⟨pt', run', safe⟩ := @Mm.PageTable.Safe.map_unmap s.pageTable p has.1 false
  cases run'.symm.trans run
  rw [wp_bind, wp_pageTableUnmap, wp_bind]
  rw [paramsEq]
  refine wp_verifyRecParams idle pointer (fun wrong => early clean (fun ready => wrong ready.sound) (by simp) rfl rfl safe)
    fun sound => ?_
  refine wp_lockRd (fun missing _ => early clean (fun ready => ?_) (by simp) rfl rfl safe)
    (fun _ held => not_stuck idle held) fun rd realm _ => ?_
  · obtain ⟨rd, realm, _⟩ := ready.realm
    cases missing.symm.trans realm
  obtain ⟨validA, _, _⟩ := Core.realm?_eq_some.mp realm
  rw [wp_bind]
  refine wp_errIf (fun late => early clean (fun ready => ?_) (by simp) rfl rfl safe) fun isNew => ?_
  · obtain ⟨_, found, isNew, _⟩ := ready.realm
    cases realm.symm.trans found
    simp [Rd.atState, isNew] at late
  rw [wp_bind]
  refine wp_errIf (fun wrong => early clean (fun ready => ?_) (by simp) rfl rfl safe) fun index => ?_
  · obtain ⟨_, found, _, index⟩ := ready.realm
    cases realm.symm.trans found
    exact wrong index
  rw [wp_bind]
  refine wp_getGranuleIf (fun missing _ => early clean (fun ready => missing ready.context) (by simp) rfl rfl safe)
    (fun valid held => ?_) fun valid state _ => ?_
  · simp only [idle] at held
    exact absurd held (free_of_ne validA valid other)
  subst paramsEq
  refine wp_buildRec (s := { s with
    pageTable := pt.unmap p
    held := granuleAddrToIndex r :: granuleAddrToIndex a :: s.held }) inv ?_ realm valid state ?_
    ⟨sound.mpidr, not_not.mp index⟩ sound.aux sound.apart fun t new ret legal safe' => ?_
  · simp only [idle]
  · simpa [Rd.atState] using isNew
  · exact ⟨⟨.single (.newRec (by rw [command]; exact rdEq) new), legal, safe.trans safe'⟩, clean, sound, rd, new, ret⟩

end Create

/-! ### REC_DESTROY -/

section Destroy

variable {rc : Rec}

/-- From `s` to `t` the command has kept everything and not touched the REC at `r`. -/
structure KeptRec (cmd : Command) (r : Nat) (s t : Machine) : Prop where
  kept : Kept s.core cmd s t
  state : t.core.stateOf r = s.core.stateOf r
  mem : t.core.mem r = s.core.mem r
  held : t.held = s.held

theorem wp_releaseAux {aux : Nat → Nat} {ok : Unit → Machine → Prop} (valid : validateAddr r = true)
    (held : s.held = [granuleAddrToIndex r]) (apart : ∀ i < maxRecAuxGranules, aux i ≠ r)
    (bad : ∀ e t, Kept s.core cmd s t → err' (.error e) t) (good : ∀ t, KeptRec cmd r s t → ok () t) :
    wp (releaseAux aux) ok err' s := by
  unfold releaseAux
  refine wp_mono (wp_times (fun _ t => KeptRec cmd r s t) _ 0 ⟨.of_eq rfl rfl rfl, rfl, rfl, rfl⟩ ?_)
    (fun _ => good) fun _ _ => id
  intro i t _ inside before
  refine wp_inScope ?_
  rw [wp_bind]
  refine wp_getGranuleIf (fun _ _ => bad _ _ (before.kept.trans (.of_eq rfl rfl rfl))) (fun validX locked => ?_)
    fun validX state _ => ?_
  · rw [before.held, held] at locked
    exact absurd locked (free_of_ne valid validX (apart i (by omega)))
  rw [wp_bind, wp_setGranule, wp_pageTableUnmap]
  have other : r ≠ aux i := Ne.symm (apart i (by omega))
  have move : Move s.core cmd t.core (setStateCore (granuleAddrToIndex (aux i)) .delegated t.core) :=
    .aux validX (.inr state) (.inl rfl)
  refine ⟨before.kept.trans ⟨.single move, legal_setGranule rfl (.inr ⟨?_, rfl⟩), .unmap validX⟩, ?_, ?_, before.held⟩
  · exact Eq.trans_ne state (show GranuleState.recAux ≠ .delegated from nofun)
  · exact (Core.stateOf_setStateCore_of_ne _ validX valid other).trans before.state
  · exact (Core.mem_setStateCore_of_ne _ validX other).trans before.mem

theorem recDestroy_spec (inv : s.core.Inv) (idle : s.held = []) :
    wp (Rmi.recDestroy r) (fun _ t => Kept s.core cmd s t) (Stops s.core cmd s False) s := by
  unfold Rmi.recDestroy
  rw [wp_bind]
  refine wp_getGranuleIf (fun _ _ => Kept.error (.of_eq rfl rfl rfl) id) (fun _ held => not_stuck idle held)
    fun valid state _ => ?_
  rw [wp_bind, wp_contentRec, indexToAddr_granuleAddrToIndex valid, wp_bind]
  obtain ⟨⟨o, owner, other⟩, apart, _⟩ := inv.recs r valid state
  refine wp_errIf (fun _ => Kept.error (.of_eq rfl rfl rfl) id) fun _ => ?_
  rw [wp_bind]
  have held : granuleAddrToIndex r :: s.held = [granuleAddrToIndex r] := by rw [idle]
  refine wp_releaseAux valid held apart (fun e t kept => Kept.error ⟨kept.moves, kept.legal, kept.pageTable⟩ id)
    fun t before => ?_
  have kept : Kept s.core cmd s t := ⟨before.kept.moves, before.kept.legal, before.kept.pageTable⟩
  rw [wp_bind]
  refine wp_inScope ?_
  rw [wp_bind]
  refine wp_recOwner owner ?_
  rw [wp_bind]
  refine wp_getGranuleIf (fun _ _ => (kept.trans (.of_eq rfl rfl rfl)).error id) (fun validO locked => ?_)
    fun validO stateO _ => ?_
  · rw [before.held, held] at locked
    exact absurd locked (free_of_ne valid validO other)
  rw [wp_decCount, wp_bind, wp_setGranule, wp_pageTableUnmap]
  have now : t.core.stateOf r = .recCtx := before.state.trans state
  have ended : EndRec t.core r o := ⟨valid, now, by rw [before.mem]; exact owner, validO, stateO⟩
  have move : Move s.core cmd t.core (endRecCore t.core r o) := .endRec ended
  refine kept.trans ⟨.single move, legal_setGranule rfl (.inr ⟨?_, rfl⟩), .unmap valid⟩
  refine Eq.trans_ne ?_ (show GranuleState.recCtx ≠ .delegated from nofun)
  exact (EndRec.stateOf_setCount r _).trans now

end Destroy

/-! ### PSCI_COMPLETE -/

omit [Platform] in
theorem Rec.SameBesidesContext.fixed {rc rc' : Rec} (same : rc.SameBesidesContext rc') : rc.Fixed rc' := by
  obtain ⟨_, rfl⟩ := same
  exact ⟨rfl, rfl, rfl, id⟩

/-- What PSCI_COMPLETE makes of caller and target. -/
structure Completed (caller target done done' : Rec) : Prop where
  index : Mpidr.index (caller.getReg 1) = target.vcpuid
  answered : ∃ context, done = { caller with context := context, psciPending := false }
  started : done' = target ∨ (caller.getReg 0).toNat = Rsi.psciCpuOnCmd ∧ target.runnable = false ∧
    done' = ((target.resetCtx.setReg 0 (caller.getReg 3)).setReg regPc (caller.getReg 2)).setRunnable 1

omit [Platform] in
theorem completePsci?_spec {caller target done done' : Rec} {status : Word}
    (run : completePsci? caller target status = some (done, done')) : Completed caller target done done' := by
  unfold completePsci? at run
  dsimp only at run
  generalize (if (caller.getReg 0).toNat = Rsi.psciCpuOnCmd then _ else _ : Word) = ret at run
  have answered : caller.SameBesidesContext ((((caller.setReg 0 ret).setReg 1 0).setReg 2 0).setReg 3 0) :=
    ((((Rec.SameBesidesRegs.setReg _ _ _).trans (.setReg _ _ _)).trans (.setReg _ _ _)).trans
      (.setReg _ _ _)).besidesContext
  split at run
  · exact nomatch run
  rename_i index
  iterate 3
    split at run
    · exact nomatch run
  cases run
  refine ⟨not_not.mp index, ?_, ?_⟩
  · obtain ⟨context, same⟩ := answered
    exact ⟨context, by rw [same]⟩
  · split
    · rename_i starts
      exact .inr ⟨starts.1, by simpa using starts.2.1, rfl⟩
    · exact .inl rfl

omit [Platform] in
/-- PSCI_COMPLETE leaves alone what is fixed about the two RECs. -/
theorem Completed.fixed {caller target done done' : Rec} (completed : Completed caller target done done') :
    caller.Fixed done ∧ target.Fixed done' := by
  obtain ⟨_, ⟨context, rfl⟩, started⟩ := completed
  refine ⟨⟨rfl, rfl, rfl, id⟩, ?_⟩
  rcases started with rfl | ⟨_, _, rfl⟩
  · exact ⟨rfl, rfl, rfl, id⟩
  · have same : target.SameBesidesContext
        ((target.resetCtx.setReg 0 (caller.getReg 3)).setReg regPc (caller.getReg 2)) :=
      (show target.SameBesidesContext target.resetCtx from ⟨_, rfl⟩).trans
        ((Rec.SameBesidesRegs.setReg _ _ _).trans (.setReg _ _ _)).besidesContext
    exact ⟨same.fixed.owner, same.fixed.aux, same.fixed.vcpuid, same.fixed.ripas⟩

/-- PSCI_COMPLETE accepts the two RECs. -/
structure Core.CanComplete (c : Core) (r target : Nat) (status : Word) : Prop where
  other : r ≠ target
  hasCaller : c.Has r .recCtx
  hasTarget : c.Has target .recCtx
  pending : (c.mem r).asRec.psciPending = true
  sibling : (c.mem target).asRec.owner = (c.mem r).asRec.owner
  accepts : completePsci? (c.mem r).asRec (c.mem target).asRec status ≠ none

theorem psciComplete_spec {target : Nat} {status : Word} (callerW targetW : Word) (inv : s.core.Inv)
    (idle : s.held = []) (callerEq : callerW.toNat = r) (targetEq : targetW.toNat = target)
    (command : cmd = .psciComplete callerW targetW status) :
    wp (Rmi.psciComplete r target status)
      (fun _ t => Kept s.core cmd s t ∧ ∃ done done', Completes s.core cmd r target done done' ∧
        t.core = (s.core.setContent r (.recCtx done)).setContent target (.recCtx done'))
      (fun halt t => Stops s.core cmd s False halt t ∧ (∀ e, halt = .error e → t.core = s.core) ∧
        ¬s.core.CanComplete r target status) s := by
  have early : ∀ {t : Machine} (e : Error), t.core = s.core → t.trace = s.trace → t.pageTable = s.pageTable →
      ¬s.core.CanComplete r target status → Stops s.core cmd s False (.error e) t ∧
        (∀ e', Halt.error e = .error e' → t.core = s.core) ∧ ¬s.core.CanComplete r target status :=
    fun _ core trace pageTable refused =>
      ⟨Kept.error (.of_eq core trace pageTable) id, fun _ _ => core, refused⟩
  unfold Rmi.psciComplete
  rw [wp_bind]
  refine wp_errIf (fun same => early _ rfl rfl rfl fun can => can.other same) fun other => ?_
  rw [wp_bind]
  refine wp_getGranuleIf (fun missing _ => early _ rfl rfl rfl fun can => missing can.hasCaller)
    (fun _ held => not_stuck idle held) fun valid state _ => ?_
  rw [wp_bind, wp_contentRec, indexToAddr_granuleAddrToIndex valid, wp_bind]
  refine wp_getGranuleIf (fun missing _ => early _ rfl rfl rfl fun can => missing can.hasTarget)
    (fun validT locked => ?_) fun validT stateT _ => ?_
  · simp only [idle] at locked
    exact absurd locked (free_of_ne valid validT (Ne.symm other))
  rw [wp_bind, wp_contentRec, indexToAddr_granuleAddrToIndex validT, wp_bind]
  refine wp_errIf (fun idle => early _ rfl rfl rfl fun can => ?_) fun pending => ?_
  · have pending : (s.core.mem r).asRec.psciPending = true := can.pending
    simp [pending] at idle
  obtain ⟨⟨o, owner, _⟩, _, _⟩ := inv.recs r valid state
  obtain ⟨⟨o', owner', _⟩, _, _⟩ := inv.recs target validT stateT
  rw [wp_bind]
  refine wp_recRealmid owner ?_
  rw [wp_bind]
  refine wp_recRealmid owner' ?_
  rw [wp_bind]
  refine wp_errIf (fun differ => early _ rfl rfl rfl fun can => ?_) fun same => ?_
  · cases owner.symm.trans (can.sibling.symm.trans owner')
    exact differ rfl
  rw [wp_bind]
  refine wp_orInput (fun refused => early _ rfl rfl rfl fun can => can.accepts refused) fun done run => ?_
  obtain ⟨done, done'⟩ := done
  rw [wp_bind, wp_setRec, wp_setRec, indexToAddr_granuleAddrToIndex valid, indexToAddr_granuleAddrToIndex validT]
  obtain ⟨fixed, fixed'⟩ := (completePsci?_spec run).fixed
  have completes : Completes s.core cmd r target done done' :=
    ⟨other, ⟨valid, validT⟩, ⟨state, stateT⟩, by simpa using pending, ⟨o, o', owner, owner', not_not.mp same⟩,
      callerW, targetW, status, command, callerEq, targetEq, run⟩
  have first : Move s.core cmd s.core _ := .setRec valid state (.answered rfl completes) fixed
  have kept : ((s.core.setContent r (.recCtx done)).mem target).asRec = (s.core.mem target).asRec := by
    rw [Core.mem_setContent_of_ne _ (Ne.symm other)]
  have second : Move s.core cmd (s.core.setContent r (.recCtx done)) _ :=
    .setRec validT stateT (.started kept.symm completes) (kept.symm ▸ fixed')
  exact ⟨⟨.tail (.single first) second, .of_eq rfl, .refl _⟩, done, done', completes, rfl⟩

end Islet.Rmm
