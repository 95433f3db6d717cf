import Islet.Rmm.Rmi.Rtt

/-! The handlers of the realm commands: creation from host parameters, metadata,
activation and destruction. -/

namespace Islet.Rmm

open Lib Prog Rmi

/-- `IsletRealmMetadata`, by the page it fills. -/
structure RealmMetadata where
  page : Page

namespace RealmMetadata

variable (m : RealmMetadata)

def fmtVersion : Nat := (m.page 0).toNat

def realmId : List Byte := m.page.slice 0x08 128

def rim : List Byte := m.page.slice 0x88 64

def hashAlgo : Nat := (m.page 0x19).toNat

def svn : Nat := (m.page 0x1a).toNat

def publicKey : List Byte := m.page.slice 0xf0 96

def isPrintableAscii (c : Byte) : Bool := 32 ≤ c.toNat && c.toNat ≤ 126

/-- `validate`; each failed check is the same error. -/
def validate : Bool :=
  m.fmtVersion == 1 && m.svn != 0 && (m.hashAlgo == 1 || m.hashAlgo == 2) &&
    (m.realmId.takeWhile (· != 0)).all isPrintableAscii

def equalRdRim (rim : Measurement) : Bool := rim.toList == m.rim

/-- `equal_rd_hash_algo`; `none` where it is unreachable. -/
def equalRdHashAlgo? (hashAlgo : Nat) : Option Bool :=
  if hashAlgo = hashAlgoSha256 then some (m.hashAlgo == 1)
  else if hashAlgo = hashAlgoSha512 then some (m.hashAlgo == 2)
  else none

end RealmMetadata

/-- `Rd::init`; the hash algorithm is set afterwards. -/
def Rd.init (rd : Rd) (params : RealmParams) : Rd :=
  { rd with
    vmid := params.vmid
    state := .new
    rttBase := params.rttBase
    rttNumStart := params.rttNumStart
    ipaBits := params.ipaBits
    recIndex := 0
    s2StartingLevel := params.rttLevelStart.toNat
    measurements := Vector.replicate measurementsSlotNr .empty
    vcpuIndex := 0
    rpv := params.rpv
    metadata := none
    sveEn := params.sveEn }

namespace Rmi

variable [Platform]

/-- The check REALM_ACTIVATE makes when the realm has metadata. -/
def checkMetadata (rd : Rd) (metaAddr : Nat) : RmmM Unit := do
  let gMetadata ← getGranuleIf metaAddr .metadata
  let page ← contentPage (indexToAddr gMetadata)
  let metadata : RealmMetadata := ⟨page⟩
  errIf (!metadata.equalRdRim (rd.measurements.get 0)) (.rmiErrorRealm 0)
  let sameAlgo ← orPanic (metadata.equalRdHashAlgo? rd.hashAlgo)
  errIf (!sameAlgo) (.rmiErrorRealm 0)

def realmActivate (rdAddr : Nat) : RmmM Unit := do
  let rdGranule ← getGranuleIf rdAddr .rd
  let rd ← contentRd rdGranule
  match rd.metadata with
  | some metaAddr => inScope (checkMetadata rd metaAddr)
  | none => pure ()
  errIf (!rd.atState .new) (.rmiErrorRealm 0)
  setRd rdGranule { rd with state := .active }

/-- `create_realm`. -/
def createRealm (vmid : Nat) : RmmM Unit := do
  let c ← getCore
  errIf (vmid ∈ c.vmidSet) .rmiErrorInput
  modifyCore fun c => { c with vmidSet := insert vmid c.vmidSet }

/-- `registry::remove`. -/
def removeVmid (vmid : Nat) : RmmM Unit := do
  let c ← getCore
  errIf (vmid ∉ c.vmidSet) .rmiErrorInput
  modifyCore fun c => { c with vmidSet := c.vmidSet.erase vmid }

/-- Clear one root table. -/
def clearRoot (addr : Nat) : RmmM Unit :=
  visible (.root addr) (fun s => { s with core := s.core.setContent addr (.raw .zero) }) fun _ => .ok ()

/-- `Stage2Translation::new`: the root tables are cleared. -/
def newStage2 (rttBase rootLevel rootPages : Nat) : RmmM Stage2Translation := do
  if !Stage2Translation.supported rootLevel rootPages then fail .panic
  times rootPages 0 fun i => clearRoot (rttBase + i * granuleSize)
  pure ⟨rttBase, rootLevel, rootPages⟩

/-- `insert_rtt`. -/
def insertRtt (vmid : Nat) (t : Stage2Translation) : RmmM Unit :=
  modifyCore fun c => { c with rttTables := Function.update c.rttTables vmid (some t) }

/-- The root granules of a new realm are checked and mapped one after the other. -/
def claimRoots (rttBase count : Nat) : RmmM Unit :=
  times count 0 fun i => do
    let rtt := rttBase + i * granuleSize
    let _ ← inScope (getGranuleIf rtt .delegated)
    pageTableMap rtt true

/-- The epilogue of REALM_CREATE. -/
def commitRealm (rdGranule rttBase count : Nat) : RmmM Unit := do
  times count 0 fun i => inScope do
    let rttGranule ← getGranuleIf (rttBase + i * granuleSize) .delegated
    setGranule rttGranule .rtt
  setGranule rdGranule .rd

def realmCreate (rdAddr paramsPtr : Nat) : RmmM Unit := do
  errIf (rdAddr = paramsPtr) .rmiErrorInput
  let rdGranule ← getGranuleIf rdAddr .delegated
  pageTableMap rdAddr true
  pageTableMap paramsPtr false
  let page ← copyFrom paramsPtr
  let page ← orInput page
  let params : RealmParams := ⟨page⟩
  pageTableUnmap paramsPtr
  errIf (!params.verifyCompliance rdAddr) .rmiErrorInput
  claimRoots params.rttBase params.rttNumStart
  createRealm params.vmid
  let s2 ← newStage2 params.rttBase params.rttLevelStart.toNat params.rttNumStart
  insertRtt params.vmid s2
  let old ← contentRd rdGranule
  let rd := { old.init params with hashAlgo := params.hashAlgo }
  setRd rdGranule rd
  let measured ← ofExcept (HashContext.measureRealmCreate rd params)
  setRd rdGranule measured
  emit (.created rdAddr page)
  match ← result (commitRealm rdGranule params.rttBase params.rttNumStart) with
  | .ok _ => pure ()
  | .error e => do
    pageTableUnmap rdAddr
    match ← result (removeVmid params.vmid) with
    | .ok _ => err e
    | .error _ => fail .panic

def recAuxCount (rdAddr : Nat) : RmmM Unit := do
  let _ ← inScope (getGranuleIf rdAddr .rd)
  setRet 1 maxRecAuxGranules

/-- The metadata granule goes back with its realm. -/
def releaseMetadata (rdGranule : Nat) (rd : Rd) (metaAddr : Nat) : RmmM Unit := inScope do
  let metaGranule ← getGranuleIf metaAddr .metadata
  setGranule metaGranule .delegated
  setRd rdGranule { rd with metadata := none }

def realmDestroy (rdAddr : Nat) : RmmM Unit := do
  let rdGranule ← getGranuleIf rdAddr .rd
  let children ← numChildren rdGranule
  errIf (0 < children) (.rmiErrorRealm 0)
  let rd ← contentRd rdGranule
  match rd.metadata with
  | some metaAddr => releaseMetadata rdGranule rd metaAddr
  | none => pure ()
  times rd.rttNumStart 0 fun i => inScope do
    let rttGranule ← getGranule (rd.rttBase + i * granuleSize)
    let children ← numChildren rttGranule
    errIf (0 < children) (.rmiErrorRealm 0)
  times rd.rttNumStart 0 fun i => inScope do
    let rttGranule ← getGranule (rd.rttBase + i * granuleSize)
    setGranule rttGranule .delegated
  setGranule rdGranule .delegated
  pageTableUnmap rdAddr
  removeVmid rd.id

/-- `IsletRealmMetadata::from_ns`. -/
def metadataFromNs (addr : Nat) : RmmM RealmMetadata := inScope do
  let granule ← getGranuleIf addr .undelegated
  let page ← contentPage (indexToAddr granule)
  pure ⟨page⟩

def isletRealmSetMetadata (rdAddr mdgAddr metaPtr : Nat) : RmmM Unit := do
  let metadata ← metadataFromNs metaPtr
  errIf (!Platform.verifySignature metadata.page) .rmiErrorInput
  errIf (!metadata.validate) .rmiErrorInput
  let rdGranule ← getGranuleIf rdAddr .rd
  let rd ← contentRd rdGranule
  errIf (!rd.atState .new) (.rmiErrorRealm 0)
  errIf rd.metadata.isSome (.rmiErrorRealm 0)
  let gMetadata ← getGranuleIf mdgAddr .delegated
  setPage mdgAddr metadata.page
  setGranule gMetadata .metadata
  setRd rdGranule { rd with metadata := some mdgAddr }

end Rmi

end Islet.Rmm
