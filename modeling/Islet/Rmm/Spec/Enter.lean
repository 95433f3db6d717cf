import Islet.Rmm.Spec.Rsi

/-! REC_ENTER: what happens around an entry of the realm, the exits, and the rounds of
the loop. -/

namespace Islet.Rmm

open Lib Prog Bits Rmi Stage2Translation

variable [Platform] {cmd : Command} {s t u : Machine} {r o : Nat} {rd : Rd} {P Q : Rec → Prop}
  {err' : Halt → Machine → Prop}

/-! ### The parts of REC_ENTER -/

namespace Rmi

/-- The checks of REC_ENTER; the REC and the `Run` page that they accept. -/
def recEnterChecks (recAddr runPa : Nat) : RmmM (Nat × Rec × Page) := do
  let recGranule ← getGranuleIf recAddr .recCtx
  pageTableMap runPa false
  let run ← copyFrom runPa
  let run ← orInput run
  modifyRun fun _ => run
  pageTableUnmap runPa
  errIf (!Run.verifyCompliance run) .rmiErrorRec
  inScope do
    let (_, rd) ← Rsi.ownerRd recGranule
    checkRealmState rd.state
  let r ← contentRec recGranule
  errIf (!r.runnable) .rmiErrorRec
  errIf (r.state = .running) .rmiErrorRec
  errIf r.psciPending .rmiErrorRec
  errIf (!Gic.validateState run) .rmiErrorRec
  pure (recGranule, r, run)

/-- What REC_ENTER completes before the realm runs. -/
def recEnterCompletes (recGranule : Nat) (r : Rec) (run : Page) : RmmM Unit := do
  if r.hostCallPending then do
    let ret ← Rsi.doHostCall recGranule
    setRet 0 ret
  modifyRec recGranule (Gic.receiveStateFromHost · run)
  emulateMmio recGranule
  Rsi.completeRipas recGranule

/-- The realm has exited to the host. -/
def recEnterReturns (recGranule runPa ret : Nat) : RmmM Unit := do
  setRet 0 ret
  let r ← contentRec recGranule
  modifyRun fun run => Timer.sendStateToHost r (Gic.sendStateToHost r run)
  pageTableMap runPa false
  let run ← getRun
  let copied ← copyToPtr run runPa
  pageTableUnmap runPa
  orInput copied

theorem recEnter_eq (recAddr runPa : Nat) (script : List RealmStep) : recEnter recAddr runPa script = (do
    let (recGranule, r, run) ← recEnterChecks recAddr runPa
    recEnterCompletes recGranule r run
    let ret ← recEnterLoop recGranule script
    recEnterReturns recGranule runPa ret) := by
  simp only [recEnter, recEnterChecks, recEnterCompletes, recEnterReturns, Prog.bind_assoc, pure_bind, Prog.ite_bind]

/-- A round of the loop up to the exit of the realm. -/
def recEnterRun (recGranule : Nat) (step : RealmStep) : RmmM Unit := do
  modifyRun (Run.setImm · 0)
  modifyRec recGranule fun r => { r with state := .running }
  let rd ← inScope do
    let (_, rd) ← Rsi.ownerRd recGranule
    modifyRec recGranule fun r => { r with emulatableAbort := .notEmulatableAbort }
    pure rd
  runRealm recGranule rd step

theorem recEnterRound_eq (recGranule : Nat) (step : RealmStep) : recEnterRound recGranule step = (do
    recEnterRun recGranule step
    let (returnToNs, ret) ← handleRealmExit recGranule step
    modifyRec recGranule fun r => { r with state := .ready }
    pure (returnToNs, ret)) := by
  simp only [recEnterRound, recEnterRun, Prog.bind_assoc]

theorem recEnterLoop_cons (recGranule : Nat) (step : RealmStep) (rest : List RealmStep) :
    recEnterLoop recGranule (step :: rest) = (do
      recEnterRun recGranule step
      let (returnToNs, ret) ← handleRealmExit recGranule step
      modifyRec recGranule fun r => { r with state := .ready }
      if returnToNs then pure ret else recEnterLoop recGranule rest) := by
  rw [recEnterLoop, recEnterRound_eq]
  simp only [Prog.bind_assoc, pure_bind]

end Rmi

/-! ### The realm runs -/

theorem Left.setState (left : Left cmd s r t) (valid : validateAddr r = true) (state : RecState) :
    Left cmd s r { t with core := t.core.setContent r (.recCtx { (t.core.mem r).asRec with state := state }) } := by
  have step : RecStep s.core t.core cmd r (t.core.mem r).asRec { (t.core.mem r).asRec with state := state } [] :=
    .state left.enters
  have move : Move s.core cmd t.core _ := .setRec valid left.state step ⟨rfl, rfl, rfl, id⟩
  exact ⟨left.enters, left.kept.trans ⟨.single move, .of_eq rfl, .refl _⟩, left.state⟩

section Run

variable (work : InRec cmd s r o Rec.Free t) (inv : s.core.Inv) (valid : validateAddr r = true)
include work

include valid in
/-- The entry is recorded. -/
theorem InRec.enter : InRec cmd s r o Rec.Free { t with core := t.core.emit (.entered r (t.core.mem r).asRec) } := by
  have move : Move s.core cmd t.core _ := .enter work.enters valid work.state (work.flags.imp_right Rec.Free.clear)
  exact ⟨⟨work.enters, work.kept.trans ⟨.single move, .of_eq rfl, .refl _⟩, work.state⟩, work.owner, work.realm, work.flags⟩

include inv in
/-- The stores of a realm, one after the other. -/
theorem InRec.stores (realm : t.core.realm? o = some rd) (list : List RealmStore) :
    InRec cmd s r o Rec.Free { t with core := list.foldl (Core.realmStore rd.tables) t.core } := by
  induction list generalizing t with
  | nil => exact work
  | cons store rest ih =>
    rw [List.foldl_cons]
    unfold Core.realmStore
    split
    · rename_i page hit
      have free := (work.inv inv).realmTarget realm hit
      refine ih (work.write _ free) ((realm?_setContent ?_ o).trans realm)
      intro same
      rw [same] at free
      exact free.elim nofun nofun
    · exact ih work realm

include inv valid in
theorem wp_runRealm {step : RealmStep} {ok : Unit → Machine → Prop} (realm : t.core.realm? o = some rd)
    (panic : ∀ u, LegalSince s u → err' .panic u)
    (next : ∀ u, InRec cmd s r o Rec.Free u → u.held = t.held →
      (u.core.mem r).asRec.getReg = step.context.gpRegs → ok () u) :
    wp (runRealm (granuleAddrToIndex r) rd step) ok err' t := by
  unfold runRealm
  rw [wp_bind]
  refine wp_s2Table realm (work.inv inv) ?_
  rw [wp_bind, wp_contentRec, wp_bind, wp_emit, indexToAddr_granuleAddrToIndex valid, wp_bind, wp_modifyCore, wp_bind,
    wp_contentRec]
  have work := (work.enter valid).stores inv realm step.stores
  refine wp_if (fun _ => panic _ work.kept.legal) fun _ => ?_
  rw [wp_modifyRec valid]
  refine next _ (work.setRegs valid ⟨rfl, rfl, rfl, rfl, rfl, rfl, rfl, rfl⟩) rfl ?_
  rw [Core.mem_setContent_same]
  rfl

end Run

/-! ### Exits -/

section Exit

variable (work : InRec cmd s r o Rec.Free t) (inv : s.core.Inv) (valid : validateAddr r = true)
  (held : t.held = [granuleAddrToIndex r])
include work inv valid held

omit work inv valid held in
theorem Quiet.isNonEmulatableDataAbort (rd : Rd) (ipa : Nat) (esr : Word) :
    Quiet (Rmi.isNonEmulatableDataAbort rd ipa esr) :=
  (Quiet.getS2tte rd ipa _ _).bind fun _ => .ite (.pure _) (.pure _)

omit inv held in
/-- The REC notes the abort and leaves to the host. -/
theorem wp_noteAbort {abort : RecEmulatableAbort} {f : Page → Page} {ok : Nat → Machine → Prop}
    (next : ∀ u, Left cmd s r u → ok Rsi.rmiSuccess u) :
    wp (do
      modifyRec (granuleAddrToIndex r) fun r => { r with emulatableAbort := abort }
      modifyRun f
      pure Rsi.rmiSuccess) ok err' t := by
  rw [wp_bind]
  refine wp_ask work valid (fun rc free => ?_) (fun rc => ⟨rfl, rfl, rfl, id⟩) fun u left => ?_
  · cases abort with
    | emulatableAbort => exact .abort work.enters free.clear
    | notEmulatableAbort =>
      refine .work work.enters ⟨free.psci, free.psci⟩ (fun pending => ?_) (.inl rfl) nofun fun _ => free.runnable
      exact absurd pending (by rw [show _ = false from free.host]; exact nofun)
  · rw [wp_bind, wp_modifyRun, wp_pure]
    exact next _ (left.withLocal _ _)

theorem handleDataAbort_spec {step : RealmStep} :
    wp (handleDataAbort (granuleAddrToIndex r) step) (fun _ u => Left cmd s r u ∧ u.held = t.held)
      (Stops s.core cmd s False) t := by
  unfold handleDataAbort
  refine wp_inScope ?_
  rw [wp_bind]
  refine wp_ownerRd work.owner valid (work.owner_ne inv valid) held (fun _ => ?_) fun rd realm => ?_
  · exact work.kept.error id
  dsimp only
  rw [wp_bind, wp_modifyRun, wp_bind]
  refine (Quiet.isNonEmulatableDataAbort rd _ _).wp (fun hidden => ?_) fun halt free =>
    Kept.stops (Kept.trans work.kept (.of_eq rfl rfl rfl)) id free
  have leaves : ∀ u, Left cmd s r u → Left cmd s r { u with held := t.held } ∧ t.held = t.held :=
    fun u left => ⟨left.of_eq rfl rfl rfl, rfl⟩
  refine wp_if (fun _ => wp_noteAbort (work.withLocal _ _) valid leaves) fun _ => ?_
  rw [wp_bind, wp_contentRec]
  refine wp_if (fun _ => ?_) fun _ => wp_noteAbort (work.withLocal _ _) valid leaves
  rw [wp_bind, wp_modifyRun]
  exact wp_noteAbort (work.withLocal _ _) valid leaves

/-- After an exit the REC either goes back to the realm, without a request, or to the host. -/
theorem handleRealmExit_spec {step : RealmStep} (asks : (t.core.mem r).asRec.getReg = step.context.gpRegs)
    (calls : step.IsRsi → cmd.Calls step.context.gpRegs) :
    wp (handleRealmExit (granuleAddrToIndex r) step)
      (fun ret u => Left cmd s r u ∧ u.held = t.held ∧ (ret.1 = false → InRec cmd s r o Rec.Free u))
      (Stops s.core cmd s False) t := by
  unfold handleRealmExit
  dsimp only
  refine wp_if (fun isRsi => ?_) fun _ => wp_if (fun _ => ?_) fun _ => wp_if (fun _ => ?_) fun _ => wp_if (fun _ => ?_)
    fun _ => ?_
  · rw [wp_bind]
    refine wp_mono (Rsi.handleRsi_spec work inv valid held (by rw [asks]) (by rw [asks]; exact calls isRsi)) ?_ ?_
    · rintro (_ | ret) u ⟨left, same, stays⟩
      · exact ⟨left, same, fun _ => stays (.inl rfl)⟩
      · refine ⟨left, same, fun resumed => stays (.inr ?_)⟩
        simpa using resumed
    · rintro halt u ⟨free, noError, legal⟩
      cases halt with
      | error e => exact absurd rfl (noError e)
      | panic => exact ⟨id, legal⟩
      | deadlock => exact absurd rfl free
      | diverge => exact ⟨id, legal⟩
  · rw [wp_bind]
    exact wp_mono (handleDataAbort_spec work inv valid held) (fun _ u ⟨left, same⟩ => ⟨left, same, nofun⟩)
      fun _ _ => id
  · rw [wp_bind, wp_modifyRun, wp_pure]
    exact ⟨work.toLeft.withLocal _ _, rfl, nofun⟩
  · rw [wp_bind, wp_modifyRun, wp_pure]
    exact ⟨work.toLeft.withLocal _ _, rfl, nofun⟩
  · exact ⟨work.toLeft, rfl, nofun⟩

end Exit

/-! ### Rounds -/

section Rounds

variable (inv : s.core.Inv) (valid : validateAddr r = true)
include inv valid

omit inv in
/-- An entry forgets the abort that the host did not emulate. -/
theorem InRec.forgetAbort (work : InRec cmd s r o Rec.Idle t) : InRec cmd s r o Rec.Free { t with
    core := t.core.setContent r (.recCtx { (t.core.mem r).asRec with emulatableAbort := .notEmulatableAbort }) } := by
  refine work.setRec valid [] ?_ ⟨rfl, rfl, rfl, id⟩ (work.flags.imp_right fun idle => ?_)
  · rcases work.flags with stale | idle
    · exact .stale work.enters stale
    · refine .work work.enters ⟨idle.psci, idle.psci⟩ (fun pending => ?_) (.inl rfl) nofun fun _ => idle.runnable
      exact absurd pending (by rw [show _ = false from idle.host]; exact nofun)
  · exact ⟨⟨⟨idle.psci, idle.host, idle.runnable⟩, idle.ripas⟩, rfl⟩

theorem recEnterRun_spec {step : RealmStep} (work : InRec cmd s r o Rec.Idle t)
    (held : t.held = [granuleAddrToIndex r]) :
    wp (recEnterRun (granuleAddrToIndex r) step)
      (fun _ u => InRec cmd s r o Rec.Free u ∧ u.held = t.held ∧ (u.core.mem r).asRec.getReg = step.context.gpRegs)
      (Stops s.core cmd s False) t := by
  unfold recEnterRun
  rw [wp_bind, wp_modifyRun, wp_bind, wp_modifyRec valid]
  have running := (work.withLocal t.held (Run.setImm t.run 0)).sameFlags valid (fun idle => idle.toSettled)
    (show (t.core.mem r).asRec.SameFlags { (t.core.mem r).asRec with state := .running } from
      ⟨rfl, rfl, rfl, rfl, rfl, rfl, rfl, rfl⟩)
    fun idle => ⟨⟨idle.psci, idle.host, idle.runnable⟩, idle.ripas⟩
  rw [wp_bind]
  refine wp_inScope ?_
  rw [wp_bind]
  refine wp_ownerRd running.owner valid (running.owner_ne inv valid) held (fun _ => running.kept.error id)
    fun rd realm => ?_
  dsimp only
  rw [wp_bind, wp_modifyRec valid, wp_pure]
  have free := running.forgetAbort valid
  refine wp_runRealm (free.withLocal _ _) inv valid ?_ (fun u legal => ⟨id, legal⟩) fun u work same asks =>
    ⟨work, same, asks⟩
  refine (realm?_setContent (fun same => ?_) o).trans realm
  exact nomatch running.state.symm.trans same

omit inv in
/-- A REC that goes back to the realm is ready to run. -/
theorem InRec.setReady (work : InRec cmd s r o Rec.Free t) : InRec cmd s r o Rec.Idle { t with
    core := t.core.setContent r (.recCtx { (t.core.mem r).asRec with state := .ready }) } :=
  have same : ((t.core.mem r).asRec).SameFlags { (t.core.mem r).asRec with state := .ready } :=
    ⟨rfl, rfl, rfl, rfl, rfl, rfl, rfl, rfl⟩
  (work.setRegs valid same).mono Rec.Free.toIdle

theorem recEnterRound_spec {step : RealmStep} (work : InRec cmd s r o Rec.Idle t)
    (held : t.held = [granuleAddrToIndex r]) (calls : step.IsRsi → cmd.Calls step.context.gpRegs) :
    wp (recEnterRound (granuleAddrToIndex r) step)
      (fun ret u => Left cmd s r u ∧ u.held = t.held ∧ (ret.1 = false → InRec cmd s r o Rec.Idle u))
      (Stops s.core cmd s False) t := by
  rw [recEnterRound_eq, wp_bind]
  refine wp_mono (recEnterRun_spec inv valid work held) (fun _ u ⟨work, same, asks⟩ => ?_) fun _ _ => id
  rw [wp_bind]
  refine wp_mono (handleRealmExit_spec work inv valid (same.trans held) asks calls) ?_ fun _ _ => id
  rintro ⟨returnToNs, ret⟩ v ⟨left, same', stays⟩
  dsimp only
  rw [wp_bind, wp_modifyRec valid, wp_pure]
  exact ⟨left.setState valid .ready, same'.trans same, fun resumed => (stays resumed).setReady valid⟩

theorem recEnterLoop_spec (script : List RealmStep) (work : InRec cmd s r o Rec.Idle t)
    (held : t.held = [granuleAddrToIndex r]) (calls : ∀ step ∈ script, step.IsRsi → cmd.Calls step.context.gpRegs) :
    wp (recEnterLoop (granuleAddrToIndex r) script) (fun _ u => Left cmd s r u ∧ u.held = t.held)
      (Stops s.core cmd s False) t := by
  induction script generalizing t with
  | nil =>
    unfold recEnterLoop
    rw [wp_bind, wp_contentRec, wp_bind]
    exact wp_mono (recEnterRound_spec inv valid work held fun isRsi => nomatch isRsi.1) (fun _ u ⟨left, same, _⟩ => ⟨left, same⟩) fun _ _ => id
  | cons step rest ih =>
    unfold recEnterLoop
    rw [wp_bind]
    refine wp_mono (recEnterRound_spec inv valid work held (calls step (List.mem_cons_self ..))) ?_ fun _ _ => id
    rintro ⟨returnToNs, ret⟩ u ⟨left, same, stays⟩
    cases returnToNs with
    | true => exact ⟨left, same⟩
    | false =>
      refine wp_mono (ih (stays rfl) (same.trans held) fun step member => calls step (List.mem_cons_of_mem _ member)) (fun _ v ⟨left, same'⟩ => ⟨left, same'.trans same⟩)
        fun _ _ => id

end Rounds

/-! ### Before the first round -/

section Before

variable (valid : validateAddr r = true)
include valid

theorem wp_setContext {f : Rec → Rec} {ok : Unit → Machine → Prop} (work : InRec cmd s r o Rec.Settled t)
    (same : ∀ rc : Rec, rc.SameBesidesContext (f rc))
    (next : ∀ u, InRec cmd s r o Rec.Settled u → u.held = t.held → ok () u) :
    wp (modifyRec (granuleAddrToIndex r) f) ok err' t := by
  rw [wp_modifyRec valid]
  exact next _ (work.sameFlags valid id (same _).sameFlags (same _).sameFlags.settled) rfl

theorem wp_emulateMmio {ok : Unit → Machine → Prop} (work : InRec cmd s r o Rec.Settled t)
    (stop : ∀ halt, halt ≠ .deadlock → err' halt t)
    (next : ∀ u, InRec cmd s r o Rec.Settled u → u.held = t.held → ok () u) :
    wp (emulateMmio (granuleAddrToIndex r)) ok err' t := by
  unfold emulateMmio
  rw [wp_bind]
  change wp (if Run.entryFlags t.run &&& 1 = 0 then _ else _) _ _ _
  refine wp_if (fun _ => next t work rfl) fun _ => ?_
  rw [wp_bind, wp_contentRec]
  dsimp only
  rw [wp_bind]
  refine wp_errIf (fun _ => stop _ nofun) fun _ => wp_if (fun _ => ?_) fun _ => ?_
  · refine wp_if (fun _ => stop _ nofun) fun _ => ?_
    rw [wp_bind]
    refine wp_setContext valid work (fun _ => (Rec.SameBesidesRegs.setReg _ _ _).besidesContext) fun u work same =>
      wp_setContext valid work (fun _ => ⟨_, rfl⟩) fun v work same' => next v work (same'.trans same)
  · exact wp_setContext valid work (fun _ => ⟨_, rfl⟩) next

theorem wp_completeRipas {ok : Unit → Machine → Prop} (work : InRec cmd s r o Rec.Settled t)
    (next : ∀ u, InRec cmd s r o Rec.Idle u → u.held = t.held → ok () u) :
    wp (Rsi.completeRipas (granuleAddrToIndex r)) ok err' t := by
  unfold Rsi.completeRipas
  rw [wp_bind]
  change wp (contentRec _ >>= _) _ _ _
  rw [wp_bind, wp_contentRec, indexToAddr_granuleAddrToIndex valid]
  refine wp_if (fun _ => ?_) fun asked => ?_
  · rw [wp_modifyRec valid]
    generalize (if Run.entryFlags t.run &&& (1#64 <<< 4) ≠ 0 then 1 else 0 : Word) = response
    have same : (t.core.mem r).asRec.SameFlags ((((t.core.mem r).asRec.setReg 0 Rsi.success).setReg 1
        (BitVec.ofNat 64 (t.core.mem r).asRec.ripas.addr)).setReg 2 response) :=
      .setReg (.setReg (.setReg (.refl _)))
    refine next _ (work.setRec valid [] ?_ ⟨same.owner, same.aux, same.vcpuid, fun _ => Nat.zero_le _⟩
      (work.flags.imp_right fun settled => ?_)) rfl
    · rcases work.flags with stale | settled
      · exact .stale work.enters stale
      · refine .work work.enters ⟨settled.psci, same.psci.trans settled.psci⟩ (fun pending => ?_) (.inr rfl)
          (fun abort => same.abort.symm.trans abort) fun _ => settled.runnable
        exact absurd (same.host.symm.trans pending) (by rw [settled.host]; exact nofun)
    · exact ⟨⟨same.psci.trans settled.psci, same.host.trans settled.host, same.runnable.trans settled.runnable⟩, rfl⟩
  · refine next t ⟨work.toLeft, work.owner, work.realm, work.flags.imp_right fun settled => ⟨settled, ?_⟩⟩ rfl
    exact Nat.eq_zero_of_not_pos asked

/-- The host call that REC_ENTER completes. -/
theorem wp_enterHostCall {ok : Nat → Machine → Prop} (inv : s.core.Inv) (core : t.core = s.core)
    (command : EntersRec cmd r) (kept : Kept s.core cmd s t) (held : t.held = [granuleAddrToIndex r])
    (state : s.core.stateOf r = .recCtx) (owner : (s.core.mem r).asRec.owner = some o)
    (realm : s.core.realm? o = some rd) (active : rd.state = .active)
    (psci : (s.core.mem r).asRec.psciPending = false) (runnable : (s.core.mem r).asRec.runnable = true)
    (pending : (s.core.mem r).asRec.hostCallPending = true)
    (enters : ¬HostCallIpa rd ((s.core.mem r).asRec.getReg 1).toNat → StaleHostCall s.core cmd)
    (stop : err' (.error .rmiErrorInput) t)
    (next : ∀ ret u, InRec cmd s r o Rec.Settled u → u.held = t.held → ok ret u) :
    wp (Rsi.doHostCall (granuleAddrToIndex r)) ok err' t := by
  have work : InRec cmd s r o (fun rc => rc.psciPending = false ∧ rc.runnable = true) t := by
    refine ⟨⟨command, kept, ?_⟩, ?_, ?_, ?_⟩ <;> rw [core]
    · exact state
    · exact owner
    · exact ⟨rd, realm, active⟩
    · exact .inr ⟨psci, runnable⟩
  refine wp_doHostCall work inv valid held (fun rd' found wrong => ?_) (fun _ _ _ _ => stop)
    (fun rd' pa found fine _ isData asked => ?_) fun rd' pa found fine _ idle => ?_
  · rw [core] at found wrong
    cases realm.symm.trans found
    have stale := enters wrong
    refine next _ _ (work.setRec valid _ (.stale command stale) ?_ (.inl stale)) rfl
    exact (Rec.SameBesidesRegs.setReg _ _ _).besidesContext.fixed
  · have other : r ≠ pa := by
      rintro rfl
      rw [work.state] at isData
      exact nomatch isData
    generalize Rsi.storeHostCall (t.core.mem pa).words t.run = page
    have mem : (t.core.setContent pa (.raw page)).mem r = t.core.mem r := Core.mem_setContent_of_ne _ other
    have same : (t.core.mem r).asRec.SameFlags ((t.core.mem r).asRec.setReg 0 Rsi.success) := .setReg (.refl _)
    rw [← core] at psci runnable
    refine next _ _ ((work.write (.raw page) (.inl isData)).setRec valid [] ?_ ?_
      (.inr ⟨same.psci.trans psci, rfl, same.runnable.trans runnable⟩)) rfl
    · change RecStep _ _ _ _ ((t.core.setContent pa (.raw page)).mem r).asRec _ _
      rw [mem]
      exact .work command ⟨psci, same.psci.trans psci⟩ nofun (.inl same.ripas) (fun abort => same.abort.symm.trans abort)
        fun _ => runnable
    · change (((t.core.setContent pa (.raw page)).mem r).asRec).Fixed _
      rw [mem]
      exact ⟨same.owner, same.aux, same.vcpuid, same.fixed.ripas⟩
  · rw [core, pending] at idle
    exact nomatch idle

end Before

/-! ### REC_ENTER -/

/-- The host may enter the REC at `r`, of the realm at `o`, with the `Run` page at `p`. -/
structure Core.Enterable (c : Core) (r p o : Nat) (rd : Rd) : Prop where
  has : c.Has r .recCtx
  host : c.Has p .undelegated
  compliant : Run.verifyCompliance (c.mem p).words = true
  owner : (c.mem r).asRec.owner = some o
  realm : c.realm? o = some rd
  active : rd.state = .active
  runnable : (c.mem r).asRec.runnable = true
  ready : (c.mem r).asRec.state ≠ .running
  psci : (c.mem r).asRec.psciPending = false
  gic : Gic.validateState (c.mem p).words = true

theorem Core.Enterable.other (enterable : s.core.Enterable r p o rd) : p ≠ r := by
  rintro rfl
  exact nomatch enterable.has.2.symm.trans enterable.host.2

section Enter

omit [Platform] in
/-- The realm has to be active. -/
theorem wp_checkRealmState {state : RealmState} {ok : Unit → Machine → Prop}
    (bad : state ≠ .active → ∀ halt, halt ≠ .deadlock → err' halt s) (good : state = .active → ok () s) :
    wp (checkRealmState state) ok err' s := by
  cases state with
  | null => exact bad nofun _ nofun
  | new => exact bad nofun _ nofun
  | active => exact good rfl
  | systemOff => exact bad nofun _ nofun

/-- The `Run` page that goes back to the host. -/
def Rec.report (r : Rec) (run : Page) : Page := Timer.sendStateToHost r (Gic.sendStateToHost r run)

/-- The state that REC_ENTER leaves behind when the host page is still one. -/
def Machine.returned (t : Machine) (r p ret : Nat) (pt : Mm.PageTable) : Machine :=
  { t with
    core := t.core.setContent p (.raw ((t.core.mem r).asRec.report t.run))
    run := (t.core.mem r).asRec.report t.run
    ret := Function.update t.ret 0 ret
    pageTable := pt }

/-- The end of REC_ENTER: the `Run` page goes back to the host. -/
theorem wp_recEnterReturns {p ret : Nat} {ok : Unit → Machine → Prop} (validR : validateAddr r = true)
    (validP : validateAddr p = true) (other : p ≠ r) (held : t.held = [granuleAddrToIndex r])
    (bad : ¬t.core.Has p .undelegated → ∀ e u, u.core = t.core → u.trace = t.trace →
      Mm.PageTable.Safe t.pageTable u.pageTable → err' (.error e) u)
    (good : t.core.Has p .undelegated → ∀ pt, Mm.PageTable.Safe t.pageTable pt → ok () (t.returned r p ret pt)) :
    wp (recEnterReturns (granuleAddrToIndex r) p ret) ok err' t := by
  have free : granuleAddrToIndex p ∉ t.held := by
    rw [held]
    exact free_of_ne validR validP other
  unfold recEnterReturns
  rw [wp_bind, wp_setRet, wp_bind, wp_contentRec, wp_bind, wp_modifyRun, wp_bind, indexToAddr_granuleAddrToIndex validR]
  obtain ⟨pt, run, safe⟩ := @Mm.PageTable.Safe.map_unmap t.pageTable p validP false
  refine wp_mapGranule validP fun pt' run' => ?_
  cases run.symm.trans run'
  rw [wp_bind]
  change wp (copyToPtr ((t.core.mem r).asRec.report t.run) p >>= _) _ _ _
  unfold copyToPtr
  rw [wp_bind, wp_bind]
  refine wp_isNotInRealm (fun _ locked => absurd locked free) (fun has _ => ?_) fun has _ => ?_
  · exact good has _ safe
  · exact bad has _ _ rfl rfl safe

/-- REC_ENTER of an enterable REC, up to the first entry of the realm. -/
theorem recEnterCompletes_spec {p : Nat} {page : Page} (inv : s.core.Inv) (enters : EntersRec cmd r)
    (can : s.core.Enterable r p o rd) (kept : Kept s.core cmd s t) (core : t.core = s.core)
    (held : t.held = [granuleAddrToIndex r]) :
    wp (recEnterCompletes (granuleAddrToIndex r) (s.core.mem r).asRec page)
      (fun _ u => InRec cmd s r o Rec.Idle u ∧ u.held = t.held) (Stops s.core cmd s False) t := by
  have valid := can.has.1
  have rest : ∀ u, InRec cmd s r o Rec.Settled u → u.held = t.held → wp (do
      modifyRec (granuleAddrToIndex r) (Gic.receiveStateFromHost · page)
      emulateMmio (granuleAddrToIndex r)
      Rsi.completeRipas (granuleAddrToIndex r))
      (fun _ u => InRec cmd s r o Rec.Idle u ∧ u.held = t.held) (Stops s.core cmd s False) u := by
    intro u work same
    rw [wp_bind]
    refine wp_setContext valid work (fun _ => ⟨_, rfl⟩) fun u₁ work same₁ => ?_
    rw [wp_bind]
    refine wp_emulateMmio valid work (fun halt free => work.kept.stops id free) fun u₂ work same₂ => ?_
    exact wp_completeRipas valid work fun u₃ work same₃ => ⟨work, same₃.trans (same₂.trans (same₁.trans same))⟩
  unfold recEnterCompletes
  refine wp_if (fun pending => ?_) fun quiet => ?_
  · rw [wp_bind]
    refine wp_enterHostCall valid inv core enters kept held can.has.2 can.owner can.realm can.active can.psci
      can.runnable pending (fun wrong => ?_) (kept.error id) fun ret u work same => ?_
    · cases cmd with
      | recEnter recAddr _ _ =>
        cases enters
        exact ⟨can.has, pending, o, rd, can.owner, can.realm, wrong⟩
      | _ => exact enters.elim
    · rw [wp_bind, wp_setRet]
      exact rest _ (InRec.of_eq work rfl rfl rfl) same
  · refine rest t ⟨⟨enters, kept, ?_⟩, ?_, ?_, .inr ?_⟩ rfl <;> rw [core]
    · exact can.has.2
    · exact can.owner
    · exact ⟨rd, can.realm, can.active⟩
    · exact ⟨can.psci, by simpa using quiet, can.runnable⟩

theorem recEnterReturns_spec {p ret : Nat} (left : Left cmd s r t) (validR : validateAddr r = true)
    (validP : validateAddr p = true) (other : p ≠ r) (held : t.held = [granuleAddrToIndex r]) :
    wp (recEnterReturns (granuleAddrToIndex r) p ret) (fun _ u => Kept s.core cmd s u) (Stops s.core cmd s False) t := by
  refine wp_recEnterReturns validR validP other held (fun _ e u core trace safe => Kept.error ?_ id)
    fun has pt safe => ?_
  · exact left.kept.trans ⟨by rw [core], .of_eq trace, safe⟩
  · exact left.kept.trans ⟨.single (.write (.inr has.2)), .of_eq rfl, safe⟩

section Command

variable (recW runW : Word) {p : Nat} (script : List RealmStep) (inv : s.core.Inv) (idle : s.held = [])
  (recEq : recW.toNat = r) (runEq : runW.toNat = p) (command : cmd = .recEnter recW runW script)
include inv idle recEq runEq command

/-- The checks change nothing but the monitor's own page table, and accept what is enterable. -/
theorem recEnterChecks_spec :
    wp (recEnterChecks r p)
      (fun out t => (∃ o rd, s.core.Enterable r p o rd) ∧
        out = (granuleAddrToIndex r, (s.core.mem r).asRec, (s.core.mem p).words) ∧
        ∃ pt, Mm.PageTable.Safe s.pageTable pt ∧
          t = { s with pageTable := pt, held := [granuleAddrToIndex r], run := (s.core.mem p).words })
      (fun halt t => (∀ o rd, ¬s.core.Enterable r p o rd) ∧ t.core = s.core ∧ Ends cmd s halt t) s := by
  have locks : SelfLocks s.core cmd ↔ p = r ∧ s.core.Has r .recCtx := by
    rw [command, SelfLocks, recEq, runEq]
  have leaves : ∀ q, LeavesMapped s.core cmd q ↔ p = q ∧ r ≠ q ∧ s.core.Has r .recCtx ∧ Stray s.core q := by
    rw [command]
    intro q
    rw [LeavesMapped, recEq, runEq]
  unfold recEnterChecks
  rw [wp_bind]
  refine wp_getGranuleIf (fun missing _ => ⟨fun _ _ can => missing can.has, rfl, Kept.ends (.of_eq rfl rfl rfl) (by simp) ?_ ?_⟩)
    (fun _ held => not_stuck idle held) fun valid state _ => ?_
  · exact fun self => missing (locks.mp self).2
  · exact fun q left => missing ((leaves q).mp left).2.2.1
  have held : granuleAddrToIndex r :: s.held = [granuleAddrToIndex r] := by rw [idle]
  have small : p < 2 ^ 64 := by
    rw [← runEq]
    exact runW.isLt
  refine wp_fetch small (fun validP locked t core trace => ?_) (fun missing stray => ?_) (fun stray free pt run => ?_)
    fun has free pt run => ?_
  · rw [held, List.mem_singleton, granuleAddrToIndex_inj validP valid] at locked
    exact ⟨fun _ _ can => can.other locked, core, iff_of_true rfl (locks.mpr ⟨locked, valid, state⟩), .of_eq trace,
      trivial⟩
  · have never : ∀ o rd, ¬s.core.Enterable r p o rd := fun _ _ can => missing can.host
    have unlocked : ¬SelfLocks s.core cmd := by
      intro self
      obtain ⟨rfl, _⟩ := locks.mp self
      exact stray ⟨(Mm.PageTable.granule_page valid).2.2.1, missing⟩
    have clean : ∀ q, ¬LeavesMapped s.core cmd q := by
      intro q left
      obtain ⟨rfl, _, _, can⟩ := (leaves q).mp left
      exact stray can
    exact ⟨⟨never, rfl, Kept.ends (.of_eq rfl rfl rfl) (by simp) unlocked clean⟩, never, rfl,
      Kept.ends (.of_eq rfl rfl rfl) (by simp) unlocked clean⟩
  · have other : r ≠ p := by
      rintro rfl
      exact free valid (.head _)
    exact ⟨fun _ _ can => stray.2 can.host, rfl, iff_of_false (by simp) fun self => other (locks.mp self).1.symm, .of_eq rfl,
      .inr ⟨p, (leaves p).mpr ⟨rfl, other, ⟨valid, state⟩, stray⟩, rfl, rfl, s.pageTable, .refl _, run⟩⟩
  have other : p ≠ r := by
    rintro rfl
    exact free (.head _)
  have unlocked : ¬SelfLocks s.core cmd := fun self => other (locks.mp self).1
  have clean : ∀ q, ¬LeavesMapped s.core cmd q := by
    intro q left
    obtain ⟨rfl, _, _, stray⟩ := (leaves q).mp left
    exact stray.2 has
  obtain ⟨pt', run', safe⟩ := @Mm.PageTable.Safe.map_unmap s.pageTable p has.1 false
  cases run'.symm.trans run
  have ends : ∀ (halt : Halt) (t : Machine), halt ≠ .deadlock → t.core = s.core → t.trace = s.trace →
      t.pageTable = pt.unmap p → Ends cmd s halt t := fun halt t free core trace pageTable =>
    Kept.ends ⟨core ▸ .refl, .of_eq trace, pageTable ▸ safe⟩ free unlocked clean
  rw [wp_bind, wp_modifyRun, wp_bind, wp_pageTableUnmap, wp_bind]
  refine wp_errIf (fun bad => ⟨fun _ _ can => ?_, rfl, ends _ _ (by simp) rfl rfl rfl⟩) fun compliant => ?_
  · rw [can.compliant] at bad
    cases bad
  rw [wp_bind]
  refine wp_inScope ?_
  rw [wp_bind]
  obtain ⟨⟨o, owner, apart⟩, _, _⟩ := inv.recs r valid state
  refine wp_ownerRd owner valid apart held (fun none => ⟨fun _ _ can => ?_, rfl, ends _ _ (by simp) rfl rfl rfl⟩)
    fun rd realm => ?_
  · cases owner.symm.trans can.owner
    cases none.symm.trans can.realm
  dsimp only
  refine wp_checkRealmState (fun inactive halt free => ⟨fun _ _ can => ?_, rfl, ends _ _ free rfl rfl rfl⟩)
    fun active => ?_
  · cases owner.symm.trans can.owner
    cases realm.symm.trans can.realm
    exact inactive can.active
  rw [wp_bind, wp_contentRec, indexToAddr_granuleAddrToIndex valid, wp_bind]
  refine wp_errIf (fun bad => ⟨fun _ _ can => ?_, rfl, ends _ _ (by simp) rfl rfl rfl⟩) fun runnable => ?_
  · rw [show _ = true from can.runnable] at bad
    cases bad
  rw [wp_bind]
  refine wp_errIf (fun bad => ⟨fun _ _ can => can.ready bad, rfl, ends _ _ (by simp) rfl rfl rfl⟩) fun ready => ?_
  rw [wp_bind]
  refine wp_errIf (fun bad => ⟨fun _ _ can => ?_, rfl, ends _ _ (by simp) rfl rfl rfl⟩) fun psci => ?_
  · cases can.psci.symm.trans bad
  rw [wp_bind]
  refine wp_errIf (fun bad => ⟨fun _ _ can => ?_, rfl, ends _ _ (by simp) rfl rfl rfl⟩) fun gic => ?_
  · rw [can.gic] at bad
    cases bad
  rw [wp_pure]
  refine ⟨⟨o, rd, ⟨valid, state⟩, has, by simpa using compliant, owner, realm, active, by simpa using runnable, ready,
    by simpa using psci, by simpa using gic⟩, rfl, _, safe, ?_⟩
  rw [held]

theorem recEnter_spec :
    wp (Rmi.recEnter r p script)
      (fun _ t => Kept s.core cmd s t ∧ ¬SelfLocks s.core cmd ∧ ∀ q, ¬LeavesMapped s.core cmd q) (Ends cmd s) s := by
  have enters : EntersRec cmd r := by
    rw [command]
    exact recEq
  have calls : ∀ step ∈ script, step.IsRsi → cmd.Calls step.context.gpRegs := by
    rw [command]
    exact fun step member isRsi => ⟨step, member, isRsi, rfl⟩
  rw [Rmi.recEnter_eq, wp_bind]
  refine wp_mono (recEnterChecks_spec recW runW script inv idle recEq runEq command) ?_ fun _ _ ends => ends.2.2
  rintro _ _ ⟨⟨o, rd, can⟩, rfl, pt, safe, rfl⟩
  dsimp only
  have unlocked : ¬SelfLocks s.core cmd := by
    rw [command, SelfLocks, recEq, runEq]
    exact fun self => can.other self.1
  have clean : ∀ q, ¬LeavesMapped s.core cmd q := by
    rw [command]
    intro q left
    rw [LeavesMapped, recEq, runEq] at left
    obtain ⟨rfl, _, _, stray⟩ := left
    exact stray.2 can.host
  have late : ∀ halt u, Stops s.core cmd s False halt u → Ends cmd s halt u := by
    rintro halt u ⟨_, stops⟩
    cases halt with
    | error e => exact Kept.ends stops (by simp) unlocked clean
    | panic => exact ⟨iff_of_false (by simp) unlocked, stops, trivial⟩
    | deadlock => exact absurd stops id
    | diverge => exact ⟨iff_of_false (by simp) unlocked, stops, trivial⟩
  refine wp_mono ?_ (fun _ t kept => ⟨kept, unlocked, clean⟩) late
  rw [wp_bind]
  refine wp_mono (recEnterCompletes_spec inv enters can ⟨.refl, .of_eq rfl, safe⟩ rfl rfl) ?_ fun _ _ => id
  rintro _ u ⟨work, same⟩
  rw [wp_bind]
  refine wp_mono (recEnterLoop_spec inv can.has.1 script work same calls) ?_ fun _ _ => id
  rintro ret v ⟨left, same'⟩
  exact recEnterReturns_spec left can.has.1 can.host.1 can.other (same'.trans same)

end Command

end Enter

end Islet.Rmm
