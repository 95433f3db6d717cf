import Islet.Rmm.Sets
import Islet.Rmm.Spec.Data

/-! REALM_ACTIVATE, REALM_DESTROY, REC_AUX_COUNT and ISLET_REALM_SET_METADATA. -/

namespace Islet.Rmm

open Lib Prog Rmi Stage2Translation

variable [Platform] {cmd : Command} {s : Machine} {a : Nat} {rd : Rd} {err' : Halt → Machine → Prop}

/-- The metadata granule of a realm is not the descriptor. -/
theorem Core.Inv.metadata_ne {c : Core} {m : Nat} (inv : c.Inv) (realm : c.realm? a = some rd)
    (has : rd.metadata = some m) : validateAddr m = true ∧ c.stateOf m = .metadata ∧ m ≠ a := by
  obtain ⟨valid, state⟩ := inv.metadata.state realm has
  refine ⟨valid, state, ?_⟩
  rintro rfl
  rw [(Core.realm?_eq_some.mp realm).2.1] at state
  exact nomatch state

/-! ### REALM_ACTIVATE -/

theorem wp_checkMetadata {m : Nat} {ok : Unit → Machine → Prop} (valid : validateAddr m = true)
    (state : s.core.stateOf m = .metadata) (free : granuleAddrToIndex m ∉ s.held)
    (bad : ∀ halt, halt ≠ .deadlock → err' halt s)
    (good : rd.Agrees ⟨(s.core.mem m).words⟩ → ok () s) :
    wp (inScope (checkMetadata rd m)) ok err' s := by
  refine wp_inScope ?_
  unfold checkMetadata
  rw [wp_bind]
  refine wp_getGranuleIf_free valid state free ?_
  rw [wp_bind, wp_contentPage, indexToAddr_granuleAddrToIndex valid, wp_bind]
  refine wp_errIf (fun _ => bad _ (by simp)) fun sameRim => ?_
  rw [wp_bind]
  refine wp_orPanic (fun _ => bad _ (by simp)) fun sameAlgo found => ?_
  refine wp_errIf (fun _ => bad _ (by simp)) fun same => good ⟨?_, ?_⟩
  · rw [Bool.not_eq_true, Bool.not_eq_false'] at sameRim
    exact sameRim
  · rw [found]
    simpa using same

/-- What is enough for REALM_ACTIVATE of a realm without metadata. -/
def ReadyToActivate (c : Core) (a : Nat) : Prop := ∃ rd, c.realm? a = some rd ∧ rd.state = .new ∧ rd.metadata = none

theorem realmActivate_spec (cmd : Command) (inv : s.core.Inv) (idle : s.held = []) (activates : cmd.Activates) :
    wp (Rmi.realmActivate a)
      (fun _ t => Kept s.core cmd s t ∧ ∃ rd, s.core.realm? a = some rd ∧ rd.state = .new ∧
        t.core = s.core.setContent a (.rd { rd with state := .active }))
      (fun halt t => Stops s.core cmd s (ReadyToActivate s.core a) halt t ∧ t.core = s.core) s := by
  have early : ∀ {t : Machine} {halt : Halt}, t.core = s.core → t.trace = s.trace →
      t.pageTable = s.pageTable → halt ≠ .deadlock → ¬ReadyToActivate s.core a →
      Stops s.core cmd s (ReadyToActivate s.core a) halt t ∧ t.core = s.core :=
    fun core trace pageTable free unready => ⟨Kept.stops (.of_eq core trace pageTable) unready free, core⟩
  unfold Rmi.realmActivate
  refine wp_lockRd (fun missing _ => early rfl rfl rfl (by simp) fun ready => ?_)
    (fun _ held => not_stuck idle held) fun rd realm _ => ?_
  · obtain ⟨rd, realm, _⟩ := ready
    cases missing.symm.trans realm
  obtain ⟨validA, _, _⟩ := Core.realm?_eq_some.mp realm
  have rest : (∀ m, rd.metadata = some m → rd.Agrees ⟨(s.core.mem m).words⟩) →
      wp (errIf (!rd.atState .new) (.rmiErrorRealm 0) >>= fun _ =>
        setRd (granuleAddrToIndex a) { rd with state := .active })
        (fun _ t => Kept s.core cmd s t ∧ ∃ rd, s.core.realm? a = some rd ∧ rd.state = .new ∧
          t.core = s.core.setContent a (.rd { rd with state := .active }))
        (fun halt t => Stops s.core cmd s (ReadyToActivate s.core a) halt t ∧ t.core = s.core)
        { s with held := granuleAddrToIndex a :: s.held } := by
    intro agrees
    rw [wp_bind]
    refine wp_errIf (fun late => early rfl rfl rfl (by simp) fun ready => ?_) fun isNew => ?_
    · obtain ⟨rd', realm', isNew, _⟩ := ready
      cases realm.symm.trans realm'
      simp [Rd.atState, isNew] at late
    replace isNew : rd.state = .new := by simpa [Rd.atState] using isNew
    rw [wp_setRd, indexToAddr_granuleAddrToIndex validA]
    have move : Move s.core cmd s.core _ := .setRd realm (.activate activates isNew agrees)
    exact ⟨⟨.single move, .of_eq rfl, .refl _⟩, rd, realm, isNew, rfl⟩
  dsimp only
  split
  · rename_i m has
    obtain ⟨valid, state, other⟩ := inv.metadata_ne realm has
    rw [wp_bind]
    refine wp_checkMetadata valid state (by simp only [idle]; exact free_of_ne validA valid other)
      (fun halt free => early rfl rfl rfl free fun ready => ?_)
      fun agrees => rest fun m' some => ?_
    · obtain ⟨rd', realm', _, without⟩ := ready
      cases realm.symm.trans realm'
      cases without.symm.trans has
    · rw [has] at some
      cases some
      exact agrees
  · rename_i none
    refine rest fun m has => ?_
    rw [none] at has
    cases has

theorem recAuxCount_spec (idle : s.held = []) :
    wp (Rmi.recAuxCount a) (fun _ t => Kept s.core cmd s t) (Stops s.core cmd s False) s := by
  unfold Rmi.recAuxCount
  rw [wp_bind]
  refine wp_inScope (wp_getGranuleIf (fun _ _ => Kept.error (.of_eq rfl rfl rfl) id)
    (fun _ held => not_stuck idle held) fun _ _ _ => ?_)
  rw [wp_setRet]
  exact .of_eq rfl rfl rfl

/-! ### REALM_DESTROY -/

section Destroy

/-- What REALM_DESTROY asks for. -/
def ReadyToDestroy (c : Core) (a : Nat) : Prop := ∃ rd, c.realm? a = some rd ∧ c.refCount a = 0

/-- The `i`-th root table. -/
def Rd.rootAt (rd : Rd) (i : Nat) : Nat := rd.rttBase + i * granuleSize

omit [Platform] in
theorem Rd.isRoot_iff {b : Nat} : rd.IsRoot b ↔ Among rd.rootAt rd.rttNumStart b := by
  unfold Rd.IsRoot Among Rd.rootAt granuleSize
  simp only [Nat.mul_comm]

theorem Core.Inv.root {c : Core} {i : Nat} (inv : c.Inv) (realm : c.realm? a = some rd) (inside : i < rd.rttNumStart) :
    validateAddr (rd.rootAt i) = true ∧ c.stateOf (rd.rootAt i) = .rtt ∧ rd.rootAt i ≠ a ∧
      c.refCount (rd.rootAt i) = 0 := by
  have place : c.forest.node a rd.s2StartingLevel i = some (rd.rootAt i) := by
    rw [root_place realm inside, Rd.rootAt, Nat.mul_comm]
  obtain ⟨valid, state⟩ := inv.tables.tables place
  refine ⟨valid, state, ?_, inv.counts.others valid (by rw [state]; exact nofun)⟩
  intro same
  rw [same, (Core.realm?_eq_some.mp realm).2.1] at state
  exact nomatch state

theorem wp_releaseMetadata {m : Nat} {ok : Unit → Machine → Prop} (inv : s.core.Inv)
    (realm : s.core.realm? a = some rd) (has : rd.metadata = some m) (held : s.held = [granuleAddrToIndex a])
    (next : ∀ t, SetsBy s t (fun b => b = m) (rd.Frees a) .delegated → ok () t) :
    wp (releaseMetadata (granuleAddrToIndex a) rd m) ok err' s := by
  obtain ⟨valid, state, other⟩ := inv.metadata_ne realm has
  have validA := (Core.realm?_eq_some.mp realm).1
  unfold releaseMetadata
  refine wp_inScope ?_
  rw [wp_bind]
  refine wp_getGranuleIf_free valid state (by rw [held]; exact free_of_ne validA valid other) ?_
  rw [wp_bind, wp_setGranule, wp_setRd, indexToAddr_granuleAddrToIndex validA]
  have sets : SetsBy s { s with
      core := setStateCore (granuleAddrToIndex m) .delegated s.core
      history := ⟨granuleAddrToIndex m, s.core.stateOf m, .delegated⟩ :: s.history } _ (rd.Frees a) .delegated :=
    (SetsBy.refl s (rd.Frees a) .delegated).next valid nofun (fun _ => .inr (.inr has))
      (.inr ⟨by rw [state]; exact nofun, rfl⟩) rfl rfl (.refl _) rfl rfl
  have only : ∀ b, b = m ↔ False ∨ b = m := fun b => by rw [false_or]
  exact next _ ⟨(sets.sets.congr only).write _ (.inl rfl) (Ne.symm other), sets.legal, sets.pageTable, rfl, rfl⟩

omit [Platform] in
/-- No root table has children. -/
theorem wp_checkRoots {ok : Unit → Machine → Prop}
    (roots : ∀ i < rd.rttNumStart, validateAddr (rd.rootAt i) = true ∧
      granuleAddrToIndex (rd.rootAt i) ∉ s.held ∧ s.core.refCount (rd.rootAt i) = 0) (next : ok () s) :
    wp (times rd.rttNumStart 0 fun i => inScope do
      let rttGranule ← getGranule (rd.rttBase + i * granuleSize)
      let children ← numChildren rttGranule
      errIf (0 < children) (.rmiErrorRealm 0)) ok err' s := by
  refine wp_mono (wp_times (fun _ t => t = s) _ 0 rfl ?_) (fun _ t same => same ▸ next) fun _ _ => id
  rintro i t _ inside rfl
  obtain ⟨valid, free, count⟩ := roots i (by omega)
  refine wp_inScope ?_
  rw [wp_bind]
  refine wp_getGranule (fun invalid => ?_) (fun _ held => absurd held free) fun _ _ => ?_
  · rw [show validateAddr (rd.rttBase + i * granuleSize) = true from valid] at invalid
    exact nomatch invalid
  rw [wp_bind, wp_numChildren]
  have none : (t.core.granules (granuleAddrToIndex (rd.rttBase + i * granuleSize))).refCount = 0 := count
  rw [none]
  exact wp_errIf (fun children => absurd children (by decide)) fun _ => rfl

omit [Platform] in
/-- The root tables go back, after the granules of `S`. -/
theorem wp_releaseRoots {S : Nat → Prop} {u : Machine} {ok : Unit → Machine → Prop}
    (start : SetsBy s u S (rd.Frees a) .delegated)
    (roots : ∀ i < rd.rttNumStart, validateAddr (rd.rootAt i) = true ∧
      granuleAddrToIndex (rd.rootAt i) ∉ s.held ∧ s.core.stateOf (rd.rootAt i) ≠ .delegated)
    (apart : ∀ i < rd.rttNumStart, ¬S (rd.rootAt i))
    (next : ∀ t, SetsBy s t (fun b => S b ∨ rd.IsRoot b) (rd.Frees a) .delegated → ok () t) :
    wp (times rd.rttNumStart 0 fun i => inScope do
      let rttGranule ← getGranule (rd.rttBase + i * granuleSize)
      setGranule rttGranule .delegated) ok err' u := by
  refine wp_mono (wp_times (fun j t => SetsBy s t (fun b => S b ∨ Among rd.rootAt j b) (rd.Frees a) .delegated)
    _ 0 (start.congr fun b => ?_) ?_) (fun _ t sets => next t ?_) fun _ _ => id
  · rw [or_iff_left among_zero]
  · intro i t _ inside sets
    obtain ⟨valid, free, state⟩ := roots i (by omega)
    refine wp_inScope ?_
    rw [wp_bind]
    refine wp_getGranule (fun invalid => ?_) (fun _ held => ?_) fun _ _ => ?_
    · rw [show validateAddr (rd.rttBase + i * granuleSize) = true from valid] at invalid
      exact nomatch invalid
    · rw [sets.held] at held
      exact absurd held free
    rw [wp_setGranule]
    have fresh : ¬(S (rd.rootAt i) ∨ Among rd.rootAt i (rd.rootAt i)) := by
      rintro (inS | ⟨j, earlier, same⟩)
      · exact apart i (by omega) inS
      · unfold Rd.rootAt granuleSize at same
        omega
    have now : t.core.stateOf (rd.rootAt i) ≠ .delegated := by
      rw [sets.sets.outside _ valid fresh]
      exact state
    refine SetsBy.congr (sets.next valid nofun (fun _ => .inr (.inl (Rd.isRoot_iff.mpr ⟨i, by omega, rfl⟩)))
      (.inr ⟨now, rfl⟩) rfl rfl (.refl _) rfl rfl) fun b => ?_
    rw [among_succ, or_assoc]
  · refine sets.congr fun b => ?_
    rw [Nat.zero_add, Rd.isRoot_iff]

/-- The last part of REALM_DESTROY, once the metadata is gone. -/
theorem wp_endRealm {u : Machine} {ok : Unit → Machine → Prop} (inv : s.core.Inv)
    (realm : s.core.realm? a = some rd) (count : s.core.refCount a = 0) (held : s.held = [granuleAddrToIndex a])
    (start : SetsBy s u (fun b => rd.metadata = some b) (rd.Frees a) .delegated)
    (next : ∀ t, EndRealm s.core t.core a rd → LegalSince s t → Mm.PageTable.Safe s.pageTable t.pageTable →
      ok () t) :
    wp (do
      times rd.rttNumStart 0 fun i => inScope do
        let rttGranule ← getGranule (rd.rttBase + i * granuleSize)
        let children ← numChildren rttGranule
        errIf (0 < children) (.rmiErrorRealm 0)
      times rd.rttNumStart 0 fun i => inScope do
        let rttGranule ← getGranule (rd.rttBase + i * granuleSize)
        setGranule rttGranule .delegated
      setGranule (granuleAddrToIndex a) .delegated
      pageTableUnmap a
      removeVmid rd.id) ok err' u := by
  obtain ⟨validA, stateA, _⟩ := Core.realm?_eq_some.mp realm
  have roots : ∀ i < rd.rttNumStart, validateAddr (rd.rootAt i) = true ∧
      granuleAddrToIndex (rd.rootAt i) ∉ s.held ∧ s.core.stateOf (rd.rootAt i) = .rtt ∧
      s.core.refCount (rd.rootAt i) = 0 := by
    intro i inside
    obtain ⟨valid, state, other, children⟩ := inv.root realm inside
    refine ⟨valid, ?_, state, children⟩
    rw [held]
    exact free_of_ne validA valid other
  rw [wp_bind]
  refine wp_checkRoots (fun i inside => ?_) ?_
  · obtain ⟨valid, free, _, children⟩ := roots i inside
    refine ⟨valid, ?_, ?_⟩
    · rw [start.held]
      exact free
    · rw [start.sets.refCount]
      exact children
  rw [wp_bind]
  refine wp_releaseRoots start (fun i inside => ?_) (fun i inside has => ?_) fun t sets => ?_
  · obtain ⟨valid, free, state, _⟩ := roots i inside
    exact ⟨valid, free, by rw [state]; exact nofun⟩
  · have state := (inv.metadata.state realm has).2
    rw [(roots i inside).2.2.1] at state
    exact nomatch state
  have fresh : ¬(rd.metadata = some a ∨ rd.IsRoot a) := by
    rintro (has | root)
    · exact (inv.metadata_ne realm has).2.2 rfl
    · obtain ⟨i, inside, same⟩ := Rd.isRoot_iff.mp root
      exact (inv.root realm inside).2.2.1 same.symm
  have state : t.core.stateOf a ≠ .delegated := by
    rw [sets.sets.outside a validA fresh, stateA]
    exact nofun
  rw [wp_bind, wp_setGranule, wp_bind, wp_pageTableUnmap]
  have last : SetsBy s
      { t with
        core := setStateCore (granuleAddrToIndex a) .delegated t.core
        history := ⟨granuleAddrToIndex a, t.core.stateOf a, .delegated⟩ :: t.history
        pageTable := t.pageTable.unmap a } (rd.Frees a) (rd.Frees a) .delegated := by
    refine SetsBy.congr (sets.next validA nofun (fun _ => .inl rfl) (.inr ⟨state, rfl⟩) rfl rfl (.unmap validA)
      rfl rfl) fun b => ?_
    unfold Rd.Frees
    rw [or_comm, or_comm (b := rd.metadata = some b)]
  have listed : rd.vmid ∈ t.core.vmidSet := by
    rw [sets.sets.vmidSet]
    exact inv.realms.listed realm
  unfold removeVmid
  rw [wp_bind, wp_getCore, wp_bind]
  refine wp_errIf (fun missing => absurd ?_ missing) fun _ => ?_
  · exact (Core.vmidSet_setStateCore .delegated).symm ▸ listed
  rw [wp_modifyCore]
  have ended : EndRealm s.core { setStateCore (granuleAddrToIndex a) .delegated t.core with
      vmidSet := (setStateCore (granuleAddrToIndex a) .delegated t.core).vmidSet.erase rd.id } a rd :=
    ⟨realm, count, fun b frees => ⟨last.sets.inside b frees, last.sets.zero rfl b frees⟩, last.sets.outside,
      last.sets.mem, last.sets.refCount, last.sets.gpt, last.sets.rttTables,
      congrArg (Finset.erase · rd.vmid) last.sets.vmidSet, last.sets.log⟩
  exact next _ ended last.legal last.pageTable

theorem realmDestroy_spec (cmd : Command) (inv : s.core.Inv) (idle : s.held = []) :
    wp (Rmi.realmDestroy a) (fun _ t => Kept s.core cmd s t ∧ ∃ rd, EndRealm s.core t.core a rd)
      (Stops s.core cmd s (ReadyToDestroy s.core a)) s := by
  unfold Rmi.realmDestroy
  rw [wp_bind]
  refine wp_getGranuleIf (fun none _ => Kept.error (.of_eq rfl rfl rfl) ?_) (fun _ held => not_stuck idle held)
    fun validA stateA _ => ?_
  · rintro ⟨_, realm, _⟩
    obtain ⟨valid, state, _⟩ := Core.realm?_eq_some.mp realm
    exact none ⟨valid, state⟩
  rw [wp_bind, wp_numChildren, wp_bind]
  refine wp_errIf (fun children => Kept.error (.of_eq rfl rfl rfl) ?_) fun childless => ?_
  · rintro ⟨_, _, count⟩
    have zero : (s.core.granules (granuleAddrToIndex a)).refCount = 0 := count
    rw [zero] at children
    exact absurd children (by decide)
  have count : s.core.refCount a = 0 := BitVec.eq_of_toNat_eq (Nat.eq_zero_of_not_pos childless)
  rw [wp_bind, wp_contentRd, indexToAddr_granuleAddrToIndex validA]
  have realm : s.core.realm? a = some (s.core.mem a).asRd := Core.realm?_eq_some.mpr ⟨validA, stateA, rfl⟩
  generalize (s.core.mem a).asRd = rd at realm ⊢
  have locked : ({ s with held := granuleAddrToIndex a :: s.held } : Machine).held = [granuleAddrToIndex a] := by
    simp only [idle]
  have done : ∀ t : Machine, EndRealm s.core t.core a rd → LegalSince s t →
      Mm.PageTable.Safe s.pageTable t.pageTable →
      Kept s.core cmd s t ∧ ∃ rd, EndRealm s.core t.core a rd := fun t ended legal pageTable =>
    ⟨⟨.single (.endRealm ended), legal, pageTable⟩, rd, ended⟩
  dsimp only
  split
  · rename_i m has
    rw [wp_bind]
    refine wp_releaseMetadata inv realm has locked fun u sets =>
      wp_endRealm (s := { s with held := granuleAddrToIndex a :: s.held }) inv realm count locked (sets.congr fun b => ?_) done
    rw [has, Option.some_inj, eq_comm]
  · rename_i none
    refine wp_endRealm (s := { s with held := granuleAddrToIndex a :: s.held }) inv realm count locked
      ((SetsBy.refl _ _ _).congr fun b => ?_) done
    rw [none]
    exact ⟨nofun, False.elim⟩

end Destroy

/-! ### ISLET_REALM_SET_METADATA -/

theorem isletRealmSetMetadata_spec (rdW mdgW ptrW : Word) {mdg ptr : Nat} (idle : s.held = [])
    (rdEq : rdW.toNat = a) (mdgEq : mdgW.toNat = mdg) (ptrEq : ptrW.toNat = ptr)
    (command : cmd = .isletRealmSetMetadata rdW mdgW ptrW) :
    wp (Rmi.isletRealmSetMetadata a mdg ptr)
      (fun _ t => Kept s.core cmd s t ∧ ¬SelfLocks s.core cmd ∧
        ∃ rd, s.core.realm? a = some rd ∧ rd.state = .new ∧ t.core = metadataCore s.core a mdg rd (s.core.mem ptr).words)
      (fun halt t => Ends cmd s halt t ∧ ¬(ReadyForMetadata s.core a ptr ∧ s.core.Has mdg .delegated)) s := by
  have locks : SelfLocks s.core cmd ↔ mdg = a ∧ ReadyForMetadata s.core a ptr := by
    rw [command, SelfLocks, rdEq, mdgEq, ptrEq]
  have clean : ∀ p, ¬LeavesMapped s.core cmd p := by
    rw [command]
    exact fun _ => id
  have early : ∀ {t : Machine} {halt : Halt}, ¬ReadyForMetadata s.core a ptr → halt ≠ .deadlock →
      t.core = s.core → t.trace = s.trace → t.pageTable = s.pageTable →
      Ends cmd s halt t ∧ ¬(ReadyForMetadata s.core a ptr ∧ s.core.Has mdg .delegated) :=
    fun unready free core trace pageTable =>
      ⟨Kept.ends (.of_eq core trace pageTable) free (fun self => unready (locks.mp self).2) clean,
        fun both => unready both.1⟩
  unfold Rmi.isletRealmSetMetadata metadataFromNs
  rw [wp_bind]
  refine wp_inScope ?_
  rw [wp_bind]
  refine wp_getGranuleIf (fun none _ => early (fun ready => none ready.1) (by simp) rfl rfl rfl)
    (fun _ held => not_stuck idle held) fun validP stateP _ => ?_
  rw [wp_bind, wp_contentPage, wp_pure, indexToAddr_granuleAddrToIndex validP, wp_bind]
  dsimp only
  refine wp_errIf (fun unsigned => early (fun ready => ?_) (by simp) rfl rfl rfl) fun signed => ?_
  · simp [ready.2.1] at unsigned
  rw [wp_bind]
  refine wp_errIf (fun refused => early (fun ready => ?_) (by simp) rfl rfl rfl) fun accepted => ?_
  · simp [ready.2.2.1] at refused
  refine wp_lockRd (fun none _ => early (fun ready => ?_) (by simp) rfl rfl rfl)
    (fun _ held => not_stuck idle held) fun rd realm _ => ?_
  · obtain ⟨_, _, _, _, found, _⟩ := ready
    rw [none] at found
    cases found
  obtain ⟨validA, stateA, _⟩ := Core.realm?_eq_some.mp realm
  rw [wp_bind]
  refine wp_errIf (fun old => early (fun ready => ?_) (by simp) rfl rfl rfl) fun isNew => ?_
  · obtain ⟨_, _, _, _, found, new, _⟩ := ready
    cases realm.symm.trans found
    simp [Rd.atState, new] at old
  rw [wp_bind]
  refine wp_errIf (fun has => early (fun ready => ?_) (by simp) rfl rfl rfl) fun vacant => ?_
  · obtain ⟨_, _, _, _, found, _, free⟩ := ready
    cases realm.symm.trans found
    simp [free] at has
  have isNew : rd.state = .new := by simpa [Rd.atState] using isNew
  have vacant : rd.metadata = none := by simpa using vacant
  have signed : Platform.verifySignature (s.core.mem ptr).words = true := by simpa using signed
  have accepted : (RealmMetadata.mk (s.core.mem ptr).words).validate = true := by simpa using accepted
  have ready : ReadyForMetadata s.core a ptr := ⟨⟨validP, stateP⟩, signed, accepted, rd, realm, isNew, vacant⟩
  rw [wp_bind]
  refine wp_getGranuleIf (fun missing free => ?_) (fun valid held => ?_) fun valid state free => ?_
  · refine ⟨Kept.ends (.of_eq rfl rfl rfl) (by simp) (fun self => ?_) clean, fun both => missing both.2⟩
    obtain ⟨rfl, _⟩ := locks.mp self
    exact free validA (.head _)
  · simp only [idle, List.mem_singleton] at held
    obtain rfl := (granuleAddrToIndex_inj valid validA).mp held
    exact ⟨⟨iff_of_true rfl (locks.mpr ⟨rfl, ready⟩), .of_eq rfl, trivial⟩,
      fun both => by cases both.2.2.symm.trans stateA⟩
  rw [wp_bind, wp_setPage, wp_bind, wp_setGranule, wp_setRd, indexToAddr_granuleAddrToIndex validA]
  have move : Move s.core cmd s.core _ := .metadata realm isNew vacant valid state signed accepted
  refine ⟨⟨.single move, legal_setGranule rfl (.inl ⟨state, (by simp)⟩), .refl _⟩, fun self => ?_, rd, realm, isNew, rfl⟩
  obtain ⟨rfl, _⟩ := locks.mp self
  exact free (.head _)

end Islet.Rmm
