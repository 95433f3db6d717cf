import Mathlib.Tactic.IntervalCases
import Islet.Rmm.Spec.Realm

/-! REALM_CREATE: the checks of the parameters, the root tables, and the realm that
results. -/

namespace Islet.Rmm

open Lib Prog Bits Rmi Stage2Translation

variable [Platform] {cmd : Command} {s : Machine} {a : Nat} {err' : Halt → Machine → Prop}

/-! ### Parameters -/

/-- Accepted parameters with supported root tables give a realm the shape that walks rely on. -/
theorem RealmParams.shape {p : RealmParams} {rd : Nat} (accepted : p.verifyCompliance rd = true)
    (supported : Stage2Translation.supported p.rttLevelStart.toNat p.rttNumStart = true) :
    2 ^ p.ipaBits ≤ 512 * p.rttNumStart * 2 ^ (39 - 9 * p.rttLevelStart.toNat) ∧
      39 - 9 * p.rttLevelStart.toNat < p.ipaBits ∧ p.ipaBits ≤ 48 := by
  simp only [verifyCompliance, featuresValidate, Bool.and_eq_true, decide_eq_true_eq, Bool.not_eq_true',
    Bool.or_eq_false_iff, decide_eq_false_iff_not, beq_iff_eq] at accepted
  obtain ⟨⟨⟨⟨⟨⟨⟨⟨_, _⟩, low, high⟩, range⟩, roots⟩, _⟩, _⟩, _⟩, _⟩ := accepted
  have level : p.rttLevelStart = 0#64 ∨ p.rttLevelStart = 1#64 ∨ p.rttLevelStart = 2#64 := by
    unfold Stage2Translation.supported at supported
    split at supported
    · rename_i same
      exact .inl (BitVec.eq_of_toNat_eq same)
    · rename_i same
      exact .inr (.inl (BitVec.eq_of_toNat_eq same))
    · rename_i same
      exact .inr (.inr (BitVec.eq_of_toNat_eq same))
    · exact nomatch supported
  simp only [numRootRtts, minIpaBits, maxIpaBits, slIpaBits, levels] at range roots
  rw [← roots]
  unfold ipaBits at range ⊢
  generalize p.s2sz = bits at low high range ⊢
  rcases level with same | same | same
  all_goals
    simp only [same] at range ⊢
    clear same roots supported
    interval_cases bits <;> revert range <;> decide

theorem RealmParams.hash {p : RealmParams} {rd : Nat} (accepted : p.verifyCompliance rd = true) :
    p.hashAlgo = 0 ∨ p.hashAlgo = 1 := by
  simp only [verifyCompliance, Bool.and_eq_true, Bool.or_eq_true, beq_iff_eq] at accepted
  exact accepted.2

/-- The descriptor that REALM_CREATE writes, over what the granule held. -/
def Rd.created (old : Rd) (params : RealmParams) : Rd :=
  ({ old.init params with hashAlgo := params.hashAlgo } : Rd).setSlot 0
    (HashContext.rimOf params.hashAlgo params)

theorem Rd.created_fresh (old : Rd) (params : RealmParams) : (old.created params).Fresh params.page := by
  refine ⟨rfl, rfl, ?_, fun slot other => ?_, Nat.mod_lt _ (by decide), rfl, rfl, ?_⟩
  · exact (Rd.get_setSlot _ 0 0 _).trans (if_pos rfl)
  · refine (Rd.get_setSlot _ 0 slot _).trans ((if_neg other).trans ?_)
    change (Vector.replicate measurementsSlotNr Measurement.empty)[slot.val] = _
    rw [Vector.getElem_replicate]
  · dsimp only [Rd.created, Rd.setSlot, Rd.init]

/-! ### Root tables -/

section Roots

variable {params : RealmParams}

omit [Platform] in
/-- The root granules are looked at one after the other, up to the descriptor's own. -/
theorem wp_claimRoots {ok : Unit → Machine → Prop} (held : s.held = [granuleAddrToIndex a])
    (validA : validateAddr a = true)
    (bad : ∀ e t i, i < params.rttNumStart → t.core = s.core → t.trace = s.trace →
      Mm.PageTable.Safe s.pageTable t.pageTable → ¬s.core.Has (params.rootAt i) .delegated →
      (∀ j < i, params.rootAt j ≠ a) → err' (.error e) t)
    (stuck : ∀ t i, i < params.rttNumStart → t.trace = s.trace → params.rootAt i = a →
      (∀ j < i, s.core.Has (params.rootAt j) .delegated) → err' .deadlock t)
    (good : ∀ t, t.core = s.core → t.trace = s.trace → Mm.PageTable.Safe s.pageTable t.pageTable →
      t.held = s.held → (∀ i < params.rttNumStart, s.core.Has (params.rootAt i) .delegated) →
      (∀ i < params.rttNumStart, params.rootAt i ≠ a) → ok () t) :
    wp (claimRoots params.rttBase params.rttNumStart) ok err' s := by
  unfold claimRoots
  refine wp_mono (wp_times (fun i t => t.core = s.core ∧ t.trace = s.trace ∧
    Mm.PageTable.Safe s.pageTable t.pageTable ∧ t.held = s.held ∧
    (∀ j < i, s.core.Has (params.rootAt j) .delegated) ∧ ∀ j < i, params.rootAt j ≠ a) _ 0
    ⟨rfl, rfl, .refl _, rfl, nofun, nofun⟩ ?_) (fun _ t ⟨core, trace, safe, same, all, apart⟩ => ?_) fun _ _ => id
  · rintro i t _ inside ⟨core, trace, safe, same, all, apart⟩
    rw [wp_bind]
    refine wp_inScope (wp_getGranuleIf (fun none _ => ?_) (fun valid locked => ?_) fun valid state free => ?_)
    · rw [core] at none
      exact bad _ _ i (by omega) core trace safe none apart
    · rw [same, held, List.mem_singleton] at locked
      exact stuck _ i (by omega) trace ((granuleAddrToIndex_inj valid validA).mp locked) all
    refine wp_mapSecure valid fun pt safe' => ⟨core, trace, safe.trans safe', same, fun j earlier => ?_,
      fun j earlier => ?_⟩
    · rcases Nat.lt_succ_iff_lt_or_eq.mp earlier with before | rfl
      · exact all j before
      · rw [core] at state
        exact ⟨valid, state⟩
    · rcases Nat.lt_succ_iff_lt_or_eq.mp earlier with before | rfl
      · exact apart j before
      · rintro rfl
        refine free ?_
        rw [same, held]
        exact .head _
  · rw [Nat.zero_add] at all apart
    exact good t core trace safe same all apart

/-- Several pages were cleared. -/
structure Cleared (c c' : Core) (S : Nat → Prop) : Prop where
  granules : c'.granules = c.granules
  gpt : c'.gpt = c.gpt
  rttTables : c'.rttTables = c.rttTables
  vmidSet : c'.vmidSet = c.vmidSet
  log : c'.log = c.log
  zero : ∀ b, S b → c'.mem b = .raw .zero
  mem : ∀ b, ¬S b → c'.mem b = c.mem b

omit [Platform] in
theorem wp_clearRoots {base count : Nat} {ok : Unit → Machine → Prop}
    (next : ∀ t, Cleared s.core t.core (Among (fun i => base + i * granuleSize) count) →
      t.trace = s.trace → t.pageTable = s.pageTable → t.held = s.held → ok () t) :
    wp (times count 0 fun i => clearRoot (base + i * granuleSize)) ok err' s := by
  refine wp_mono (wp_times (fun i t => Cleared s.core t.core (Among (fun i => base + i * granuleSize) i) ∧
    t.trace = s.trace ∧ t.pageTable = s.pageTable ∧ t.held = s.held) _ 0
    ⟨⟨rfl, rfl, rfl, rfl, rfl, fun b none => absurd none among_zero, fun _ _ => rfl⟩, rfl, rfl, rfl⟩ ?_)
    (fun _ t ⟨cleared, trace, pageTable, held⟩ => ?_) fun _ _ => id
  · rintro i t _ _ ⟨cleared, trace, pageTable, held⟩
    unfold clearRoot
    rw [wp_visible]
    refine ⟨⟨cleared.granules, cleared.gpt, cleared.rttTables, cleared.vmidSet, cleared.log, fun b member => ?_,
      fun b outside => ?_⟩, trace, pageTable, held⟩
    · by_cases same : b = base + i * granuleSize
      · rw [same]
        exact Core.mem_setContent_same _
      · refine (Core.mem_setContent_of_ne _ same).trans (cleared.zero b ?_)
        rcases among_succ.mp member with earlier | equal
        · exact earlier
        · exact absurd equal same
    · rw [among_succ, not_or] at outside
      exact (Core.mem_setContent_of_ne _ outside.2).trans (cleared.mem b outside.1)
  · rw [Nat.zero_add] at cleared
    exact next t cleared trace pageTable held

omit [Platform] in
/-- The epilogue, when nothing has come in between. -/
theorem wp_commitRealm {ok : Unit → Machine → Prop} (held : s.held = [granuleAddrToIndex a])
    (validA : validateAddr a = true) (stateA : s.core.stateOf a = .delegated)
    (roots : ∀ i < params.rttNumStart, s.core.Has (params.rootAt i) .delegated)
    (apart : ∀ i < params.rttNumStart, params.rootAt i ≠ a)
    (next : ∀ t c, Sets s.core c (Among params.rootAt params.rttNumStart) (fun _ => False) .rtt →
      t.core = setStateCore (granuleAddrToIndex a) .rd c → LegalSince s t → t.pageTable = s.pageTable →
      ok () t) :
    wp (commitRealm (granuleAddrToIndex a) params.rttBase params.rttNumStart) ok err' s := by
  unfold commitRealm
  rw [wp_bind]
  refine wp_mono (wp_times (fun i t => SetsBy s t (Among params.rootAt i) (fun _ => False) .rtt ∧
    t.pageTable = s.pageTable) _ 0
    ⟨(SetsBy.refl s _ _).congr fun b => iff_of_false among_zero id, rfl⟩ ?_)
    (fun _ t ⟨sets, pageTable⟩ => ?_) fun _ _ => id
  · rintro i t _ inside ⟨sets, pageTable⟩
    obtain ⟨valid, state⟩ := roots i (by omega)
    have fresh : ¬Among params.rootAt i (params.rootAt i) := by
      rintro ⟨j, earlier, same⟩
      unfold RealmParams.rootAt granuleSize at same
      omega
    have now : t.core.stateOf (params.rootAt i) = .delegated := by
      rw [sets.sets.outside _ valid fresh]
      exact state
    refine wp_inScope ?_
    rw [wp_bind]
    refine wp_getGranuleIf_free valid now ?_ ?_
    · rw [sets.held, held]
      exact free_of_ne validA valid (apart i (by omega))
    rw [wp_setGranule]
    refine ⟨SetsBy.congr (sets.next valid nofun nofun (.inl ⟨now, nofun⟩) rfl rfl (.refl _) rfl rfl) fun b => ?_, pageTable⟩
    exact among_succ
  · rw [Nat.zero_add] at sets
    rw [wp_setGranule]
    have fresh : ¬Among params.rootAt params.rttNumStart a := by
      rintro ⟨i, inside, same⟩
      exact apart i inside same.symm
    have now : t.core.stateOf a = .delegated := by
      rw [sets.sets.outside a validA fresh]
      exact stateA
    exact next _ t.core sets.sets rfl (sets.legal.trans (legal_setGranule rfl (.inl ⟨now, nofun⟩))) pageTable

end Roots

/-! ### REALM_CREATE -/

section Create

variable {params : RealmParams}

theorem RealmParams.among_iff {old : Rd} {b : Nat} :
    (old.created params).IsRoot b ↔ Among params.rootAt params.rttNumStart b := by
  unfold Rd.IsRoot Among RealmParams.rootAt granuleSize
  simp only [Nat.mul_comm]
  rfl

/-- The root tables are cleared, the descriptor is written, and then the granules change state. -/
theorem NewRealm.of_commit {c c₁ c₂ c₃ : Core} {old : Rd} (validA : validateAddr a = true)
    (stateA : c.stateOf a = .delegated) (accepted : params.verifyCompliance a = true)
    (supported : Stage2Translation.supported params.rttLevelStart.toNat params.rttNumStart = true)
    (roots : ∀ i < params.rttNumStart, c.Has (params.rootAt i) .delegated)
    (apart : ∀ i < params.rttNumStart, params.rootAt i ≠ a) (vmid : params.vmid ∉ c.vmidSet)
    (cleared : Cleared { c with vmidSet := insert params.vmid c.vmidSet } c₁
      (Among params.rootAt params.rttNumStart))
    (written : c₂ = (({ c₁ with
      rttTables := Function.update c₁.rttTables params.vmid (some (old.created params).tables) } : Core).setContent a
        (.rd (old.created params))).emit (.created a params.page))
    (sets : Sets c₂ c₃ (Among params.rootAt params.rttNumStart) (fun _ => False) .rtt) :
    NewRealm c (setStateCore (granuleAddrToIndex a) .rd c₃) a (old.created params) := by
  subst written
  have fresh : ¬Among params.rootAt params.rttNumStart a := by
    rintro ⟨i, inside, same⟩
    exact apart i inside same.symm
  have kept : (setStateCore (granuleAddrToIndex a) .rd c₃).mem = c₃.mem :=
    Core.mem_setStateCore_of_not_wipes _ (Sets.not_wipes nofun nofun)
  obtain ⟨covered, halves, bits⟩ := RealmParams.shape accepted supported
  constructor
  case valid => exact validA
  case state => exact stateA
  case shape => exact ⟨supported, covered, halves, bits⟩
  case hash => exact RealmParams.hash accepted
  case created =>
    refine ⟨params.page, old.created_fresh params, ?_⟩
    rw [Core.log_setStateCore, sets.log]
    exact congrArg _ cleared.log
  case roots =>
    intro b root
    obtain ⟨i, inside, rfl⟩ := RealmParams.among_iff.mp root
    exact ⟨(roots i inside).1, (roots i inside).2, apart i inside⟩
  case vmid => exact vmid
  case isRealm => exact Core.stateOf_setStateCore_same _
  case isTable =>
    intro b root
    have among := RealmParams.among_iff.mp root
    rw [Core.stateOf_setStateCore_of_ne _ validA (sets.valid b among)]
    · exact sets.inside b among
    · rintro rfl
      exact fresh among
  case others =>
    intro b valid other notRoot
    rw [Core.stateOf_setStateCore_of_ne _ validA valid other,
      sets.outside b valid fun among => notRoot (RealmParams.among_iff.mpr among)]
    change (c₁.granules _).state = _
    rw [cleared.granules]
    rfl
  case desc =>
    rw [kept, sets.mem a id]
    exact Core.mem_setContent_same _
  case zero =>
    intro b root
    have among := RealmParams.among_iff.mp root
    rw [kept, sets.mem b id]
    refine (Core.mem_setContent_of_ne _ ?_).trans (cleared.zero b among)
    rintro rfl
    exact fresh among
  case mem =>
    intro b other notRoot
    rw [kept, sets.mem b id]
    exact (Core.mem_setContent_of_ne _ other).trans
      (cleared.mem b fun among => notRoot (RealmParams.among_iff.mpr among))
  case refCount =>
    intro b
    rw [Core.refCount_setStateCore, sets.refCount]
    change (c₁.granules _).refCount = _
    rw [cleared.granules]
    rfl
  case gpt =>
    intro b
    rw [Core.gptOf_setStateCore, sets.gpt]
    change c₁.gpt _ = _
    rw [cleared.gpt]
    rfl
  case rttTables =>
    rw [Core.rttTables_setStateCore, sets.rttTables]
    change Function.update c₁.rttTables _ _ = _
    rw [cleared.rttTables]
    rfl
  case vmidSet =>
    rw [Core.vmidSet_setStateCore, sets.vmidSet]
    exact cleared.vmidSet

/-- The part of REALM_CREATE after the checks. -/
theorem wp_buildRealm {ok : Unit → Machine → Prop} (held : s.held = [granuleAddrToIndex a])
    (validA : validateAddr a = true) (stateA : s.core.stateOf a = .delegated)
    (accepted : params.verifyCompliance a = true)
    (roots : ∀ i < params.rttNumStart, s.core.Has (params.rootAt i) .delegated)
    (apart : ∀ i < params.rttNumStart, params.rootAt i ≠ a)
    (used : params.vmid ∈ s.core.vmidSet → err' (.error .rmiErrorInput) s)
    (unsupported : ¬Stage2Translation.supported params.rttLevelStart.toNat params.rttNumStart = true →
      ∀ t, t.trace = s.trace → err' .panic t)
    (done : ∀ t (old : Rd), NewRealm s.core t.core a (old.created params) → LegalSince s t →
      t.pageTable = s.pageTable → ok () t) :
    wp (do
      createRealm params.vmid
      let s2 ← newStage2 params.rttBase params.rttLevelStart.toNat params.rttNumStart
      insertRtt params.vmid s2
      let old ← contentRd (granuleAddrToIndex a)
      let rd := { old.init params with hashAlgo := params.hashAlgo }
      setRd (granuleAddrToIndex a) rd
      let measured ← ofExcept (HashContext.measureRealmCreate rd params)
      setRd (granuleAddrToIndex a) measured
      emit (.created a params.page)
      match ← result (commitRealm (granuleAddrToIndex a) params.rttBase params.rttNumStart) with
      | .ok _ => pure ()
      | .error e => do
        pageTableUnmap a
        match ← result (removeVmid params.vmid) with
        | .ok _ => err e
        | .error _ => fail .panic) ok err' s := by
  unfold createRealm newStage2 insertRtt
  rw [wp_bind, wp_bind, wp_getCore, wp_bind]
  refine wp_errIf used fun vmid => ?_
  rw [wp_modifyCore, wp_bind]
  refine wp_if (fun bad => unsupported (by simpa using bad) _ rfl) fun fine => ?_
  have supported : Stage2Translation.supported params.rttLevelStart.toNat params.rttNumStart = true := by
    simpa using fine
  rw [wp_bind]
  refine wp_clearRoots fun t cleared trace pageTable same => ?_
  rw [wp_pure, wp_bind, wp_modifyCore, wp_bind, wp_contentRd, indexToAddr_granuleAddrToIndex validA]
  generalize (Content.asRd _ : Rd) = old
  dsimp only
  rw [wp_bind, wp_setRd, indexToAddr_granuleAddrToIndex validA, wp_bind]
  have measured : HashContext.measureRealmCreate { old.init params with hashAlgo := params.hashAlgo } params =
      .ok (old.created params) := by
    refine HashContext.measureRealmCreate_ok (RealmParams.hash accepted) params ?_
    exact Vector.getElem_replicate _
  refine wp_ofExcept (fun e wrong => ?_) fun rd' run => ?_
  · rw [measured] at wrong
    exact nomatch wrong
  cases measured.symm.trans run
  rw [wp_bind, wp_setRd, indexToAddr_granuleAddrToIndex validA, wp_bind, wp_emit, wp_bind]
  refine wp_result (wp_commitRealm ?_ validA ?_ ?_ apart ?_)
  · exact same.trans held
  · change (t.core.granules _).state = _
    rw [cleared.granules]
    exact stateA
  · intro i inside
    refine ⟨(roots i inside).1, ?_⟩
    change (t.core.granules _).state = _
    rw [cleared.granules]
    exact (roots i inside).2
  · intro u c sets core legal kept
    rw [wp_pure]
    refine done u old ?_ ((LegalSince.of_eq trace).trans legal) (kept.trans pageTable)
    rw [core]
    refine NewRealm.of_commit validA stateA accepted supported roots apart vmid cleared ?_ sets
    simp only [Core.emit, Core.setContent, Function.update_idem]
    rfl

/-- What REALM_CREATE asks for. -/
structure ReadyForRealm (c : Core) (a p : Nat) (params : RealmParams) : Prop where
  other : a ≠ p
  rd : c.Has a .delegated
  pointer : c.Has p .undelegated
  accepted : params.verifyCompliance a = true
  roots : ∀ i < params.rttNumStart, c.Has (params.rootAt i) .delegated ∧ params.rootAt i ≠ a
  vmid : params.vmid ∉ c.vmidSet
  supported : Stage2Translation.supported params.rttLevelStart.toNat params.rttNumStart = true

/-- REALM_CREATE either makes the realm or changes nothing. -/
theorem realmCreate_spec (rdW ptrW : Word) {p : Nat} (idle : s.held = []) (rdEq : rdW.toNat = a)
    (ptrEq : ptrW.toNat = p) (command : cmd = .realmCreate rdW ptrW) :
    wp (Rmi.realmCreate a p)
      (fun _ t => Kept s.core cmd s t ∧ ¬SelfLocks s.core cmd ∧ (∀ q, ¬LeavesMapped s.core cmd q) ∧
        ∃ old : Rd, NewRealm s.core t.core a (old.created ⟨(s.core.mem p).words⟩))
      (fun halt t => Ends cmd s halt t ∧ (∀ e, halt = .error e → t.core = s.core) ∧
        ¬ReadyForRealm s.core a p ⟨(s.core.mem p).words⟩) s := by
  generalize paramsEq : (⟨(s.core.mem p).words⟩ : RealmParams) = params
  have locks : SelfLocks s.core cmd ↔ LocksOwnRoot s.core a p := by
    rw [command, SelfLocks, rdEq, ptrEq]
  have leaves : ∀ q, LeavesMapped s.core cmd q ↔ p = q ∧ a ≠ q ∧ s.core.Has a .delegated ∧ Stray s.core q := by
    rw [command]
    intro q
    rw [LeavesMapped, rdEq, ptrEq]
  have early : ∀ {t : Machine} {halt : Halt}, ¬LocksOwnRoot s.core a p → (∀ q, ¬LeavesMapped s.core cmd q) →
      ¬ReadyForRealm s.core a p params → halt ≠ .deadlock → t.core = s.core → t.trace = s.trace →
      Mm.PageTable.Safe s.pageTable t.pageTable →
      Ends cmd s halt t ∧ (∀ e, halt = .error e → t.core = s.core) ∧ ¬ReadyForRealm s.core a p params :=
    fun unlocked clean unready free core trace safe =>
      ⟨Kept.ends ⟨by rw [core], .of_eq trace, safe⟩ free (fun self => unlocked (locks.mp self)) clean,
        fun _ _ => core, unready⟩
  unfold Rmi.realmCreate
  rw [wp_bind]
  refine wp_errIf (fun same => early (fun self => self.1 same) (fun q left => ?_) (fun ready => ready.other same)
    (by simp) rfl rfl (.refl _)) fun other => ?_
  · obtain ⟨rfl, apart, _⟩ := (leaves q).mp left
    exact apart same
  rw [wp_bind]
  refine wp_getGranuleIf (fun missing _ => early (fun self => missing self.2.1) (fun q left => ?_)
    (fun ready => missing ready.rd) (by simp) rfl rfl (.refl _)) (fun _ held => not_stuck idle held)
    fun validA stateA _ => ?_
  · exact missing ((leaves q).mp left).2.2.1
  rw [wp_bind]
  refine wp_mapSecure validA fun pt safe => ?_
  have small : p < 2 ^ 64 := by
    rw [← ptrEq]
    exact ptrW.isLt
  have held : granuleAddrToIndex a :: s.held = [granuleAddrToIndex a] := by rw [idle]
  refine wp_fetch small (fun valid locked => ?_) (fun missing stray => ?_) (fun stray _ pt₁ run => ?_)
    fun has _ pt₁ run => ?_
  · rw [held] at locked
    exact absurd locked (free_of_ne validA valid (Ne.symm other))
  · have unlocked : ¬LocksOwnRoot s.core a p := fun self => missing self.2.2.1
    have clean : ∀ q, ¬LeavesMapped s.core cmd q := by
      intro q left
      obtain ⟨rfl, _, _, can⟩ := (leaves q).mp left
      exact stray can
    have unready : ¬ReadyForRealm s.core a p params := fun ready => missing ready.pointer
    exact ⟨early unlocked clean unready (by simp) rfl rfl safe, early unlocked clean unready (by simp) rfl rfl safe⟩
  · refine ⟨⟨iff_of_false (by simp) fun self => ?_, .of_eq rfl, .inr ⟨p, ?_, rfl, rfl, pt, safe, run⟩⟩, fun _ _ => rfl,
      fun ready => stray.2 ready.pointer⟩
    · obtain ⟨_, _, readable, _⟩ := locks.mp self
      exact stray.2 readable
    · exact (leaves p).mpr ⟨rfl, other, ⟨validA, stateA⟩, stray⟩
  have clean : ∀ q, ¬LeavesMapped s.core cmd q := by
    intro q left
    obtain ⟨rfl, _, _, stray⟩ := (leaves q).mp left
    exact stray.2 has
  obtain ⟨pt₂, run', safe₁⟩ := @Mm.PageTable.Safe.map_unmap pt p has.1 false
  cases run'.symm.trans run
  replace safe := safe.trans safe₁
  have own : LocksOwnRoot s.core a p ↔ params.verifyCompliance a = true ∧
      ∃ i < params.rttNumStart, params.rootAt i = a ∧ ∀ j < i, s.core.Has (params.rootAt j) .delegated := by
    subst paramsEq
    exact ⟨fun self => self.2.2.2, fun rest => ⟨other, ⟨validA, stateA⟩, has, rest⟩⟩
  rw [wp_bind, wp_pageTableUnmap, wp_bind]
  change wp (errIf ((!(RealmParams.mk (s.core.mem p).words).verifyCompliance a) = true) _) _ _ _
  rw [paramsEq]
  refine wp_errIf (fun refused => early (fun self => ?_) clean (fun ready => ?_) (by simp) rfl rfl safe)
    fun accepted => ?_
  · simp [(own.mp self).1] at refused
  · simp [ready.accepted] at refused
  have accepted : params.verifyCompliance a = true := by simpa using accepted
  rw [wp_bind]
  refine wp_claimRoots (a := a) held validA (fun e t i inside core trace safe' missing before => ?_)
    (fun t i inside trace same before => ?_) fun t core trace safe' same roots apart => ?_
  · refine early (fun self => ?_) clean (fun ready => missing (ready.roots i inside).1) (by simp) core trace
      (safe.trans safe')
    obtain ⟨_, j, _, same, delegated⟩ := own.mp self
    rcases Nat.lt_trichotomy j i with lower | rfl | higher
    · exact before j lower same
    · rw [same] at missing
      exact missing ⟨validA, stateA⟩
    · exact missing (delegated i higher)
  · exact ⟨⟨iff_of_true rfl (locks.mpr (own.mpr ⟨accepted, i, inside, same, before⟩)), .of_eq trace, trivial⟩, (by simp),
      fun ready => (ready.roots i inside).2 same⟩
  have unlocked : ¬LocksOwnRoot s.core a p := by
    intro self
    obtain ⟨_, j, inside, same, _⟩ := own.mp self
    exact apart j inside same
  subst paramsEq
  refine wp_buildRealm (same.trans held) validA (by rw [core]; exact stateA) accepted (by rw [core]; exact roots) apart
    (fun used => early unlocked clean (fun ready => ready.vmid (core ▸ used)) (by simp) core trace
      (safe.trans safe')) (fun unsupported u since => ?_) fun u old new legal pageTable => ?_
  · exact ⟨⟨iff_of_false (by simp) fun self => unlocked (locks.mp self), .of_eq (since.trans trace), trivial⟩, (by simp),
      fun ready => unsupported ready.supported⟩
  · rw [core] at new
    refine ⟨⟨.single (.newRealm (by rw [command]; trivial) new), (LegalSince.of_eq trace).trans legal, ?_⟩,
      fun self => unlocked (locks.mp self), clean, old, new⟩
    rw [pageTable]
    exact safe.trans safe'

end Create

end Islet.Rmm
