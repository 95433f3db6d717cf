import Islet.Rmm.Rec.Context
import Islet.Rmm.Rmi.Gpt
import Islet.Rmm.Rmi.Realm

/-! The services a realm asks the monitor for: RSI and PSCI. A handler works on
the REC in its granule and on the `Run` page and returns `ret[0]`, which decides
whether the REC goes back to the realm or to the host. -/

namespace Islet.Rmm.Rsi

open Lib Prog Bits Rmi

variable [Platform]

/-- `rmi::SUCCESS` and `rmi::SUCCESS_REC_ENTER`. -/
abbrev rmiSuccess : Nat := 0
abbrev rmiSuccessRecEnter : Nat := 4

/-- Exit reasons. -/
abbrev exitSync : Word := 0
abbrev exitIrq : Word := 1
abbrev exitPsci : Word := 3
abbrev exitRipasChange : Word := 4
abbrev exitHostCall : Word := 5

/-- RSI status codes. -/
abbrev success : Word := 0
abbrev errorInput : Word := 1
abbrev errorState : Word := 2
abbrev incomplete : Word := 3

abbrev pageLevel : Nat := S2tte.rttPageLevel

/-- Answer the realm in `x0` and resume it. -/
def answer (g : Nat) (code : Word) : RmmM Nat := do
  modifyRec g (·.setReg 0 code)
  pure rmiSuccessRecEnter

/-- Lock the descriptor of the realm that owns the REC and read it. -/
def ownerRd (g : Nat) : RmmM (Nat × Rd) := do
  let r ← contentRec g
  let owner ← recOwner r
  let rdGranule ← getGranuleIf owner .rd
  let rd ← contentRd rdGranule
  pure (rdGranule, rd)

/-! ### Host calls -/

/-- The general registers of a `HostCall` from the `Run` page. -/
def storeHostCall (page run : Page) : Page := fun i =>
  if 1 ≤ i ∧ i ≤ 31 then Run.entryGpr run (i - 1) else page i

/-- The general registers of the `Run` page from a `HostCall`. -/
def loadHostCall (page run : Page) : Page := fun i =>
  if 320 ≤ i ∧ i < 351 then page (1 + (i - 320)) else run i

def doHostCall (g : Nat) : RmmM Nat := inScope do
  let (_, rd) ← ownerRd g
  let r ← contentRec g
  let ipa := (r.getReg 1).toNat
  if ipa % 0x100 ≠ 0 ∨ ipa / granuleSize ≠ (ipa + 0x100 - 1) / granuleSize ∨ !rd.addrInPar ipa then
    answer g errorInput
  else do
    let pa ← ipaToPa rd ipa pageLevel
    let pa ← orInput pa
    let page ← contentPage pa
    let run ← getRun
    if r.hostCallPending then do
      setPage pa (storeHostCall page run)
      modifyRec g fun r => { r.setReg 0 success with hostCallPending := false }
    else do
      modifyRun fun run =>
        (loadHostCall page run |> (Run.setImm · (page 0 &&& 0xffff))
          |> (Run.setExitReason · exitHostCall))
      modifyRec g fun r => { r with hostCallPending := true }
    pure rmiSuccess

/-! ### Attestation -/

def attestTokenInit (g : Nat) : RmmM Nat := do
  modifyRec g fun r =>
    let challenge := (List.range 8).flatMap fun i => Page.wordBytes (r.getReg (i + 1))
    ({ r with attestChallenge := challenge, attestState := .attestInProgress,
              attestTokenOffset := 0 }.setReg 0 success).setReg 1 4096
  pure rmiSuccessRecEnter

/-- `get_token_part`: the next part of the token and how much is left. -/
def getTokenPart (rd : Rd) (g size : Nat) : RmmM (List Byte × Nat) := do
  let r ← contentRec g
  let token ← orPanic
    (Platform.getToken r.attestChallenge rd.measurements rd.rpv rd.hashAlgo)
  let offset := r.attestTokenOffset
  if token.length < offset then fail .panic
  let partSize := min size (token.length - offset)
  modifyRec g fun r => { r with attestTokenOffset := offset + partSize }
  pure ((token.drop offset).take partSize, token.length - (offset + partSize))

def attestTokenContinue (g : Nat) : RmmM Nat := do
  let (_, rd) ← ownerRd g
  let r ← contentRec g
  if r.attestState ≠ .attestInProgress then answer g errorState
  else if !validateIpa rd (r.getReg 1).toNat then answer g errorInput
  else do
    let pa ← ipaToPa rd (r.getReg 1).toNat pageLevel
    let pa ← orInput pa
    let offset := (r.getReg 2).toNat
    let size := (r.getReg 3).toNat
    if granuleSize < offset + size then answer g errorInput
    else do
      let (part, left) ← getTokenPart rd g size
      let page ← contentPage pa
      setPage pa (page.storeBytes offset part)
      if left = 0 then
        modifyRec g fun r => { r.setReg 0 success with attestState := .noAttestInProgress }
      else modifyRec g (·.setReg 0 incomplete)
      modifyRec g (·.setReg 1 (BitVec.ofNat 64 part.length))
      pure rmiSuccessRecEnter

/-! ### Features, version, measurements, configuration -/

def features (g : Nat) : RmmM Nat := do
  modifyRec g fun r => (r.setReg 0 success).setReg 1 0
  pure rmiSuccessRecEnter

def abiVersion (g : Nat) : RmmM Nat := do
  let r ← contentRec g
  let (major, minor) := decodeVersion (r.getReg 1)
  if major ≠ 1 ∨ minor ≠ 0 then answer g errorInput
  else do
    let version := BitVec.ofNat 64 encodeVersion
    modifyRec g fun r => ((r.setReg 0 success).setReg 1 version).setReg 2 version
    pure rmiSuccessRecEnter

def measurementRead (g : Nat) : RmmM Nat := do
  let (_, rd) ← ownerRd g
  let r ← contentRec g
  let index := (r.getReg 1).toNat
  if measurementsSlotNr ≤ index then answer g errorInput
  else do
    let slot := (rd.measurements.toList.getD index .empty).toList
    modifyRec g fun r => (List.range 8).foldl (fun r i =>
      r.setReg (i + 1) (Page.wordOfBytes (slot.drop (8 * i)))) (r.setReg 0 success)
    pure rmiSuccessRecEnter

def measurementExtend (g : Nat) : RmmM Nat := do
  let (rdGranule, rd) ← ownerRd g
  let r ← contentRec g
  let index := (r.getReg 1).toNat
  let size := (r.getReg 2).toNat
  let buffer := (List.range 8).flatMap fun i => Page.wordBytes (r.getReg (i + 3))
  if 64 < size ∨ index = measurementsSlotRim ∨ measurementsSlotNr ≤ index then answer g errorInput
  else do
    let measured ← ofExcept (HashContext.extendMeasurement rd (buffer.take size) index)
    setRd rdGranule measured
    emit (.extended (indexToAddr rdGranule) index (buffer.take size))
    answer g success

def realmConfig (g : Nat) : RmmM Nat := do
  let r ← contentRec g
  let owner ← recOwner r
  let c ← getCore
  let ipaBits := (c.mem owner).asRd.ipaBits
  let (_, rd) ← ownerRd g
  let ipa := (r.getReg 1).toNat
  if !validateIpa rd ipa then answer g errorInput
  else do
    let pa ← ipaToPa rd ipa pageLevel
    let pa ← orInput pa
    let page ← contentPage pa
    setPage pa (Function.update page 0 (BitVec.ofNat 64 ipaBits))
    answer g success

/-! ### RIPAS -/

def getRipasState (g : Nat) : RmmM Nat := do
  let (_, rd) ← ownerRd g
  let r ← contentRec g
  let ipa := (r.getReg 1).toNat
  if !validateIpa rd ipa then answer g errorInput
  else do
    let ripas ← Rtt.getRipas rd ipa pageLevel
    modifyRec g fun r => (r.setReg 0 success).setReg 1 ripas
    pure rmiSuccessRecEnter

def isRipasValid (ripas : Nat) : Bool := ripas == 0 || ripas == 1

def setRipasState (g : Nat) : RmmM Nat := do
  let r ← contentRec g
  let start := (r.getReg 1).toNat
  let endAddr := (r.getReg 2).toNat
  let state := (r.getReg 3).toNat % 256
  let flags := r.getReg 4
  if endAddr ≤ start then answer g errorInput
  else do
    let (_, rd) ← ownerRd g
    if !isGranuleAligned start ∨ !isGranuleAligned endAddr ∨ !isRipasValid state ∨
        endAddr ≤ start ∨ !rd.addrInPar start ∨ !rd.addrInPar (endAddr - 1) then
      answer g errorInput
    else do
      modifyRun fun run => Run.setRipas (Run.setExitReason run exitRipasChange)
        (r.getReg 1) (r.getReg 2) (BitVec.ofNat 64 state)
      modifyRec g (·.setRipas start endAddr state flags)
      pure rmiSuccess

/-- `complete_ripas`, at the next entry. -/
def completeRipas (g : Nat) : RmmM Unit := do
  let run ← getRun
  let r ← contentRec g
  if 0 < r.ripas.endAddr then do
    let response : Word := if Run.entryFlags run &&& (1#64 <<< 4) ≠ 0 then 1 else 0
    modifyRec g fun r =>
      (((r.setReg 0 success).setReg 1 (BitVec.ofNat 64 r.ripas.addr)).setReg 2 response).setRipas
        0 0 0 0

/-! ### Sealing keys -/

/-- `KdfInfo` as bytes; the hash algorithm in it stays zero. -/
def kdfInfo (publicKey realmId rpv rim : List Byte) (flags svn : Word) : List Byte :=
  publicKey ++ realmId ++ rpv ++ Page.wordBytes flags ++ rim ++ HashContext.zeros 1 ++
    Page.wordBytes svn

/-- The parts of the key material that come from the metadata. -/
def metadataMaterial (metaAddr : Nat) (flags svn : Word) :
    RmmM (List Byte × List Byte × Word) := do
  let gMetadata ← getGranuleIf metaAddr .metadata
  let page ← contentPage (indexToAddr gMetadata)
  let metadata : RealmMetadata := ⟨page⟩
  let useSvn := flags &&& (1#64 <<< 3) ≠ 0
  errIf (useSvn ∧ metadata.svn < svn.toNat) .rmiErrorInput
  let realmId :=
    if flags &&& (1#64 <<< 2) ≠ 0 then metadata.realmId else HashContext.zeros 128
  pure (metadata.publicKey, realmId, if useSvn then svn else 0)

def realmSealingKey (rd : Rd) (flags svn : Word) : RmmM (Nat → Word) := inScope do
  let (publicKey, realmId, usedSvn) ← match rd.metadata with
    | some metaAddr => inScope (metadataMaterial metaAddr flags svn)
    | none => pure (HashContext.zeros 96, HashContext.zeros 128, 0)
  let rim :=
    if flags &&& (1#64 <<< 1) ≠ 0 ∨ rd.metadata.isNone then (rd.measurements.get 0).toList
    else HashContext.zeros 64
  orInput (Platform.sealingKey (flags &&& 1 != 0)
    (kdfInfo publicKey realmId rd.rpv rim flags usedSvn))

def isletRealmSealingKey (g : Nat) : RmmM Nat := do
  let r ← contentRec g
  let (_, rd) ← ownerRd g
  match ← result (realmSealingKey rd (r.getReg 1) (r.getReg 2)) with
  | .error _ => answer g errorInput
  | .ok key => do
    modifyRec g fun r => (List.range 4).foldl (fun r i => r.setReg (i + 1) (key i)) r
    answer g success

/-! ### PSCI -/

abbrev psciVersionCmd : Nat := 0x84000000
abbrev psciCpuSuspendCmd : Nat := 0xC4000001
abbrev psciCpuOffCmd : Nat := 0x84000002
abbrev psciCpuOnCmd : Nat := 0xC4000003
abbrev psciAffinityInfoCmd : Nat := 0xC4000004
abbrev psciSystemOffCmd : Nat := 0x84000008
abbrev psciSystemResetCmd : Nat := 0x84000009
abbrev psciFeaturesCmd : Nat := 0x8400000A

/-- `PsciReturn`. -/
abbrev psciSuccess : Word := 0
abbrev psciAffinityOn : Word := 0
abbrev psciAffinityOff : Word := 1
abbrev psciNotSupported : Word := ~~~0
abbrev psciInvalidParams : Word := ~~~1
abbrev psciDenied : Word := ~~~2
abbrev psciAlreadyOn : Word := ~~~3
abbrev psciInvalidAddress : Word := ~~~8

/-- Leave to the host with a PSCI exit; `gprs` are the first registers it sees. -/
def exitToHost (cmd : Nat) (arg : Option Word) : RmmM Nat := do
  modifyRun fun run =>
    let run := Run.set (Run.setExitReason run exitPsci) (Run.gpr 0) (BitVec.ofNat 64 cmd)
    match arg with
    | some arg => Run.set run (Run.gpr 1) arg
    | none => run
  pure rmiSuccess

def psciCpuOn (g : Nat) : RmmM Nat := do
  let (_, rd) ← ownerRd g
  let r ← contentRec g
  let index := Mpidr.index (r.getReg 1)
  if !rd.addrInPar (r.getReg 2).toNat then answer g psciInvalidAddress
  else if rd.recIndex ≤ index then answer g psciInvalidParams
  else if index = r.vcpuid then answer g psciAlreadyOn
  else do
    modifyRec g fun r => { r with psciPending := true }
    emit (.cpuOn (indexToAddr g) (r.getReg 1) (r.getReg 2) (r.getReg 3))
    exitToHost psciCpuOnCmd (some (r.getReg 1))

def psciCpuOff (g : Nat) : RmmM Nat := do
  modifyRec g (·.setRunnable 0)
  exitToHost psciCpuOffCmd none

/-- PSCI_SYSTEM_OFF and PSCI_SYSTEM_RESET. -/
def psciSystemOff (cmd g : Nat) : RmmM Nat := do
  let (rdGranule, rd) ← ownerRd g
  setRd rdGranule { rd with state := .systemOff }
  exitToHost cmd none

def psciAffinityInfo (g : Nat) : RmmM Nat := do
  let r ← contentRec g
  if r.getReg 2 ≠ 0 then answer g psciInvalidParams
  else if Mpidr.index (r.getReg 1) = r.vcpuid then answer g psciSuccess
  else do
    modifyRec g fun r => { r with psciPending := true }
    exitToHost psciAffinityInfoCmd (some (r.getReg 1))

def psciFeatures (g : Nat) : RmmM Nat := do
  let r ← contentRec g
  let known := [psciCpuSuspendCmd, psciCpuOffCmd, psciCpuOnCmd, psciAffinityInfoCmd,
    psciSystemOffCmd, psciSystemResetCmd, psciFeaturesCmd, psciVersionCmd]
  answer g (if (r.getReg 1).toNat ∈ known then psciSuccess else psciNotSupported)

def psciVersion : Word := 0x10001

def smcccVersion : Word := 0x10002

/-! ### Dispatch -/

/-- The registered handler of a command. -/
def handler? (cmd g : Nat) : Option (RmmM Nat) :=
  if cmd = 0xc4000190 then some (abiVersion g)
  else if cmd = 0xc4000191 then some (features g)
  else if cmd = 0xc4000192 then some (measurementRead g)
  else if cmd = 0xc4000193 then some (measurementExtend g)
  else if cmd = 0xc4000194 then some (attestTokenInit g)
  else if cmd = 0xc4000195 then some (attestTokenContinue g)
  else if cmd = 0xc4000196 then some (realmConfig g)
  else if cmd = 0xc4000197 then some (setRipasState g)
  else if cmd = 0xc4000198 then some (getRipasState g)
  else if cmd = 0xc4000199 then some (doHostCall g)
  else if cmd = 0xC7000191 then some (isletRealmSealingKey g)
  else if cmd = psciVersionCmd then some (answer g psciVersion)
  else if cmd = psciCpuSuspendCmd then some (exitToHost psciCpuSuspendCmd none)
  else if cmd = psciCpuOffCmd then some (psciCpuOff g)
  else if cmd = psciCpuOnCmd then some (psciCpuOn g)
  else if cmd = psciAffinityInfoCmd then some (psciAffinityInfo g)
  else if cmd = psciSystemOffCmd then some (psciSystemOff psciSystemOffCmd g)
  else if cmd = psciSystemResetCmd then some (psciSystemOff psciSystemResetCmd g)
  else if cmd = psciFeaturesCmd then some (psciFeatures g)
  else if cmd = 0x80000000 then some (answer g smcccVersion)
  else none

/-- `Monitor::handle_rsi`: `ret[0]` of a registered command, also when its
handler returns an error. -/
def handleRsi (cmd g : Nat) : RmmM (Option Nat) := do
  match handler? cmd g with
  | none => do
    modifyRec g (·.setReg 0 psciNotSupported)
    pure none
  | some handler => do
    match ← result (inScope handler) with
    | .ok ret => pure (some ret)
    | .error e => pure (some e.code)

end Islet.Rmm.Rsi
