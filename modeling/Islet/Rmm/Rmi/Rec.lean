import Islet.Rmm.Rsi

/-! The handlers of the REC commands. REC_ENTER runs the realm: what the realm
does between two exits is an input of the command, a script of realm steps. A
step stores words through the realm's own stage-2 tables, leaves a register
context, and exits with four numbers; a realm whose script is used up is
interrupted. -/

namespace Islet.Rmm

open Lib Prog Bits Rmi

/-! ### What a realm does -/

/-- A store of one word by the realm. -/
structure RealmStore where
  ipa : Nat
  index : Nat
  value : Word

/-- What happens from an entry of the realm to its next exit. -/
structure RealmStep where
  stores : List RealmStore
  context : Context
  exitCode : Word
  esr : Word
  hpfar : Word
  far : Word

/-- The interrupt that ends a script. -/
def RealmStep.irq (context : Context) : RealmStep := ⟨[], context, 1, 0, 0, 0⟩

namespace S2tte

/-- A descriptor that the hardware takes as a page or a block. -/
def isHardwareLeaf (e : Word) (level : Nat) : Bool :=
  (level == 3 && getMaskedValue e descType == l3Page) ||
    ((level == 1 || level == 2) && getMaskedValue e descType == l012Block)

end S2tte

variable [Platform]

/-- The granule that a store of the realm reaches: the leaf decides whether the
access is to the realm or the non-secure address space, and EL3's protection
table has to agree. -/
def Core.realmTarget? (c : Core) (t : Stage2Translation) (ipa : Nat) : Option Nat :=
  match t.walk c ipa 3 true with
  | .found slot level =>
    let e := Stage2Translation.pte c slot
    let offset := ipa % 2 ^ (39 - 9 * level) / granuleSize * granuleSize
    let page := (getMasked e (S2tte.blockMask level)).toNat + offset
    let space := if getMaskedValue e S2tte.ns = 0 then GranuleGpt.realm else GranuleGpt.ns
    if S2tte.isHardwareLeaf e level ∧ validateAddr page ∧ c.gptOf page = space then some page
    else none
  | _ => none

/-- A store that reaches no granule faults and changes nothing. -/
def Core.realmStore (t : Stage2Translation) (c : Core) (store : RealmStore) : Core :=
  match c.realmTarget? t store.ipa with
  | some page =>
    c.setContent page
      (.raw (Function.update (c.mem page).words (store.index % 512) store.value))
  | none => c

namespace Rmi

/-! ### REC_CREATE and REC_DESTROY -/

/-- The loop of `Params::verify_compliance` over the sorted auxiliary granules. -/
def checkAux (recAddr rdAddr paramsPtr : Nat) : Option Nat → List Nat → RmmM Unit
  | _, [] => pure ()
  | prev, addr :: rest => do
    errIf (addr = recAddr ∨ addr = rdAddr ∨ addr = paramsPtr) .rmiErrorInput
    errIf (prev = some addr) .rmiErrorInput
    let _ ← inScope (getGranuleIf addr .delegated)
    checkAux recAddr rdAddr paramsPtr (some addr) rest

def verifyRecParams (params : RecParams) (recAddr rdAddr paramsPtr : Nat) : RmmM Unit := do
  errIf (!Mpidr.validate params.mpidr ∨ params.numAux ≠ maxRecAuxGranules) .rmiErrorInput
  checkAux recAddr rdAddr paramsPtr none params.sortedAux

/-- `prepare_vtcr`. -/
def prepareVtcr (rd : Rd) : RmmM Word := do
  errIf (3 < rd.s2StartingLevel) .rmiErrorInput
  errIf (rd.ipaBits = 0 ∨ 64 < rd.ipaBits) .rmiErrorInput
  pure (Platform.vtcr rd.s2StartingLevel rd.ipaBits)

/-- `Rec::init` on a new REC. -/
def initRec (owner vcpuid : Nat) (params : RecParams) (vttbr vmpidr : Word) (sveEn : Bool) : Rec :=
  let r := { Rec.new with owner := some owner, vcpuid := vcpuid, aux := params.aux }.setRunnable
    params.flags
  { r with context := { r.context with
      vttbr := vttbr
      vmpidr := vmpidr
      gicState := { r.context.gicState with ichHcrEl2 := Gic.initHcr }
      sveEn := sveEn } }

/-- General registers and program counter from the parameters. -/
def setParamRegs (params : RecParams) (r : Rec) : Rec :=
  ((List.range 8).foldl (fun r i => r.setReg i (params.gprs i)) r).setReg regPc params.pc

/-- `prepare_args`: VMID and table base for `VTTBR_EL2`. -/
def vttbrOf (rd : Rd) (t : Stage2Translation) : Word :=
  bitsInReg (defineMask 63 48) (BitVec.ofNat 64 rd.id) |||
    bitsInReg (defineMask 47 1) (BitVec.ofNat 64 t.base >>> 1)

/-- The auxiliary granules of a new REC. -/
def claimAux (aux : Nat → Nat) : RmmM Unit :=
  times maxRecAuxGranules 0 fun i => inScope do
    pageTableMap (aux i) true
    let auxGranule ← getGranuleIf (aux i) .delegated
    setGranule auxGranule .recAux

def recCreate (rdAddr recAddr paramsPtr : Nat) : RmmM Unit := do
  errIf (recAddr = rdAddr) .rmiErrorInput
  pageTableMap paramsPtr false
  let page ← copyFrom paramsPtr
  let page ← orInput page
  let params : RecParams := ⟨page⟩
  pageTableUnmap paramsPtr
  verifyRecParams params recAddr rdAddr paramsPtr
  let rdGranule ← getGranuleIf rdAddr .rd
  let rd ← contentRd rdGranule
  errIf (!rd.atState .new) (.rmiErrorRealm 0)
  errIf (Mpidr.index params.mpidr ≠ rd.recIndex) .rmiErrorInput
  let recGranule ← getGranuleIf recAddr .delegated
  pageTableMap recAddr true
  setRec recGranule Rec.new
  let t ← s2Table rd
  let vcpuid := rd.vcpuIndex
  let rd := { rd with vcpuIndex := vcpuid + 1 }
  setRd rdGranule rd
  setRet 1 vcpuid
  errIf (rdAddr = 0) .rmiErrorInput
  setRec recGranule (initRec rdAddr vcpuid params (vttbrOf rd t)
    (params.mpidr ||| (1#64 <<< 31)) rd.sveEn)
  modifyRec recGranule (setParamRegs params)
  let vtcr ← prepareVtcr rd
  modifyRec recGranule fun r => { r with vtcr := vtcr }
  let rd := { rd with recIndex := rd.recIndex + 1 }
  setRd rdGranule rd
  let measured ← ofExcept (HashContext.measureRecParams rd params)
  setRd rdGranule measured
  emit (.measured rdAddr (.recCreate page))
  emit (.recCreated recAddr)
  claimAux params.aux
  incCount rdGranule
  setGranule recGranule .recCtx

/-- The auxiliary granules of a REC that goes away. -/
def releaseAux (aux : Nat → Nat) : RmmM Unit :=
  times maxRecAuxGranules 0 fun i => inScope do
    let auxGranule ← getGranuleIf (aux i) .recAux
    setGranule auxGranule .delegated
    pageTableUnmap (aux i)

def recDestroy (recAddr : Nat) : RmmM Unit := do
  let recGranule ← getGranuleIf recAddr .recCtx
  let r ← contentRec recGranule
  errIf (r.state = .running) .rmiErrorRec
  releaseAux r.aux
  inScope do
    let owner ← recOwner r
    let rdGranule ← getGranuleIf owner .rd
    decCount rdGranule
  setGranule recGranule .delegated
  pageTableUnmap recAddr

/-! ### Exits of a realm -/

def isNonEmulatableDataAbort (rd : Rd) (faultIpa : Nat) (esr : Word) : RmmM Bool := do
  let (e, _) ← getS2tte rd faultIpa S2tte.rttPageLevel (.rmiErrorRtt 0)
  if rd.addrInPar faultIpa then pure (S2tte.isUnassigned e || S2tte.isDestroyed e)
  else pure ((S2tte.isUnassigned e && (esr &&& EsrEl2.isv == 0)) || S2tte.isAssigned e)

/-- `get_write_val`. -/
def writeVal (r : Rec) (esr : Word) : Word :=
  let rt := (getMaskedValue esr EsrEl2.srt).toNat
  if rt = 31 then 0 else r.getReg rt &&& EsrEl2.accessSizeMask esr

def handleDataAbort (recGranule : Nat) (step : RealmStep) : RmmM Nat := inScope do
  let (_, rd) ← Rsi.ownerRd recGranule
  modifyRun fun run => Run.set (Run.setExitReason run Rsi.exitSync) Run.hpfar step.hpfar
  let faultIpa := ((step.hpfar &&& Platform.fipaMask) <<< 8).toNat
  if ← isNonEmulatableDataAbort rd faultIpa step.esr then do
    modifyRec recGranule fun r => { r with emulatableAbort := .notEmulatableAbort }
    modifyRun fun run =>
      Run.set (Run.set run Run.esr (step.esr &&& EsrEl2.nonEmulatableAbortMask)) Run.far 0
  else do
    let r ← contentRec recGranule
    if step.esr &&& EsrEl2.wnr ≠ 0 then
      modifyRun fun run => Run.set run (Run.gpr 0) (writeVal r step.esr)
    modifyRec recGranule fun r => { r with emulatableAbort := .emulatableAbort }
    modifyRun fun run =>
      Run.set (Run.set run Run.esr (step.esr &&& EsrEl2.emulatableAbortMask)) Run.far
        (step.far &&& 0xfff)
  pure Rsi.rmiSuccess

/-- `handle_realm_exit`: whether to return to the host, and `ret[0]`. -/
def handleRealmExit (recGranule : Nat) (step : RealmStep) : RmmM (Bool × Nat) := do
  let reason := step.exitCode.toNat % 16
  let sync := step.exitCode.toNat / 16 % 16
  if reason = 0 ∧ sync = 1 then do
    -- the trap handler takes the function identifier from `x0`
    match ← Rsi.handleRsi (step.context.gpRegs 0).toNat recGranule with
    | some ret => pure (ret ≠ Rsi.rmiSuccessRecEnter, ret)
    | none => pure (false, Rsi.rmiSuccess)
  else if reason = 0 ∧ sync = 2 then do
    let ret ← handleDataAbort recGranule step
    pure (true, ret)
  else if reason = 0 then do
    modifyRun fun run => Run.set (Run.set (Run.setExitReason run Rsi.exitSync) Run.esr step.esr)
      Run.hpfar step.hpfar
    pure (true, Rsi.rmiSuccess)
  else if reason = 1 then do
    modifyRun fun run => Run.set (Run.set (Run.set (Run.setExitReason run Rsi.exitIrq)
      Run.esr step.esr) Run.hpfar step.hpfar) Run.far step.far
    pure (true, Rsi.rmiSuccess)
  else pure (true, Rsi.rmiSuccess)

/-! ### REC_ENTER -/

/-- The realm runs and its context is saved; saving SVE state is not implemented
and panics. Registers of EL2 are not the realm's to change. -/
def runRealm (recGranule : Nat) (rd : Rd) (step : RealmStep) : RmmM Unit := do
  let t ← s2Table rd
  let entered ← contentRec recGranule
  emit (.entered (indexToAddr recGranule) entered)
  modifyCore fun c => step.stores.foldl (Core.realmStore t) c
  let r ← contentRec recGranule
  if r.context.sveEn then fail .panic
  modifyRec recGranule fun r => { r with context := { step.context with
    vttbr := r.context.vttbr, vmpidr := r.context.vmpidr, sveEn := r.context.sveEn } }

/-- One round of the loop of REC_ENTER. -/
def recEnterRound (recGranule : Nat) (step : RealmStep) : RmmM (Bool × Nat) := do
  modifyRun (Run.setImm · 0)
  modifyRec recGranule fun r => { r with state := .running }
  let rd ← inScope do
    let (_, rd) ← Rsi.ownerRd recGranule
    modifyRec recGranule fun r => { r with emulatableAbort := .notEmulatableAbort }
    pure rd
  runRealm recGranule rd step
  let (returnToNs, ret) ← handleRealmExit recGranule step
  modifyRec recGranule fun r => { r with state := .ready }
  pure (returnToNs, ret)

def recEnterLoop (recGranule : Nat) : List RealmStep → RmmM Nat
  | [] => do
    let r ← contentRec recGranule
    let (_, ret) ← recEnterRound recGranule (.irq r.context)
    pure ret
  | step :: rest => do
    let (returnToNs, ret) ← recEnterRound recGranule step
    if returnToNs then pure ret else recEnterLoop recGranule rest

/-- The state of the realm that REC_ENTER accepts. -/
def checkRealmState (state : RealmState) : RmmM Unit :=
  match state with
  | .active => pure ()
  | .new => err (.rmiErrorRealm 0)
  | .systemOff => err (.rmiErrorRealm 1)
  | .null => fail .panic

def recEnter (recAddr runPa : Nat) (script : List RealmStep) : RmmM Unit := do
  let recGranule ← getGranuleIf recAddr .recCtx
  pageTableMap runPa false
  let run ← copyFrom runPa
  let run ← orInput run
  modifyRun fun _ => run
  pageTableUnmap runPa
  errIf (!Run.verifyCompliance run) .rmiErrorRec
  inScope do
    let (_, rd) ← Rsi.ownerRd recGranule
    checkRealmState rd.state
  let r ← contentRec recGranule
  errIf (!r.runnable) .rmiErrorRec
  errIf (r.state = .running) .rmiErrorRec
  errIf r.psciPending .rmiErrorRec
  errIf (!Gic.validateState run) .rmiErrorRec
  if r.hostCallPending then do
    let ret ← Rsi.doHostCall recGranule
    setRet 0 ret
  modifyRec recGranule (Gic.receiveStateFromHost · run)
  emulateMmio recGranule
  Rsi.completeRipas recGranule
  let ret ← recEnterLoop recGranule script
  setRet 0 ret
  let r ← contentRec recGranule
  modifyRun fun run => Timer.sendStateToHost r (Gic.sendStateToHost r run)
  pageTableMap runPa false
  let run ← getRun
  let copied ← copyToPtr run runPa
  pageTableUnmap runPa
  orInput copied

/-! ### PSCI_COMPLETE -/

/-- `complete_psci` on caller and target; `none` is an input error. -/
def completePsci? (caller target : Rec) (status : Word) : Option (Rec × Rec) :=
  let command := (caller.getReg 0).toNat
  let isOn := command = Rsi.psciCpuOnCmd
  let isInfo := command = Rsi.psciAffinityInfoCmd
  if Mpidr.index (caller.getReg 1) ≠ target.vcpuid then none
  else if isOn ∧ status ≠ Rsi.psciSuccess ∧ status ≠ Rsi.psciDenied then none
  else if isInfo ∧ status ≠ Rsi.psciSuccess then none
  else if isOn ∧ target.runnable ∧ status = Rsi.psciDenied then none
  else
    let started := isOn ∧ !target.runnable ∧ status ≠ Rsi.psciDenied
    let ret : Word :=
      if isOn then
        if target.runnable then Rsi.psciAlreadyOn
        else if status = Rsi.psciDenied then Rsi.psciDenied else Rsi.psciSuccess
      else if isInfo then
        if target.runnable then Rsi.psciAffinityOn else Rsi.psciAffinityOff
      else Rsi.psciNotSupported
    let target :=
      if started then
        ((target.resetCtx.setReg 0 (caller.getReg 3)).setReg regPc (caller.getReg 2)).setRunnable 1
      else target
    let caller := (((caller.setReg 0 ret).setReg 1 0).setReg 2 0).setReg 3 0
    some ({ caller with psciPending := false }, target)

def psciComplete (callerPa targetPa : Nat) (status : Word) : RmmM Unit := do
  errIf (callerPa = targetPa) .rmiErrorInput
  let callerGranule ← getGranuleIf callerPa .recCtx
  let caller ← contentRec callerGranule
  let targetGranule ← getGranuleIf targetPa .recCtx
  let target ← contentRec targetGranule
  errIf (!caller.psciPending) .rmiErrorInput
  let callerRealm ← recRealmid caller
  let targetRealm ← recRealmid target
  errIf (callerRealm ≠ targetRealm) .rmiErrorInput
  let (caller, target) ← orInput (completePsci? caller target status)
  setRec callerGranule caller
  setRec targetGranule target

end Rmi

end Islet.Rmm
