import Islet.Rmm.Realm.Rtt

/-! The handlers of the RTT and DATA commands: locks, checks of the arguments,
and the table operation. -/

namespace Islet.Rmm.Rmi

open Lib Prog

def isValidRttCmd (rd : Rd) (ipa level : Nat) : Bool :=
  level ≤ S2tte.rttPageLevel && ipa < rd.ipaSize &&
    (BitVec.ofNat 64 ipa &&& (S2tte.levelMask level).getD 0) == BitVec.ofNat 64 ipa

/-- `validate_ipa`; each failed check is the same error. -/
def validateIpa (rd : Rd) (ipa : Nat) : Bool :=
  isGranuleAligned ipa && rd.addrInPar ipa && isValidRttCmd rd ipa S2tte.rttPageLevel

/-- The check of the level and the IPA shared by RTT_CREATE, RTT_DESTROY and RTT_FOLD. -/
def isValidTableCmd (rd : Rd) (ipa level : Nat) : Bool :=
  !(decide (level < rd.s2StartingLevel + 1) || decide (S2tte.rttPageLevel < level) ||
    !isValidRttCmd rd ipa (level - 1))

variable [Platform]

def rttCreate (rdAddr rttAddr ipa level : Nat) : RmmM Unit := do
  let rdGranule ← getGranuleIf rdAddr .rd
  let rd ← contentRd rdGranule
  errIf (!isValidTableCmd rd ipa level) .rmiErrorInput
  errIf (rttAddr = rdAddr) .rmiErrorInput
  let rttGranule ← getGranuleIf rttAddr .delegated
  pageTableMap rttAddr true
  Rtt.create rd rttAddr ipa level
  setGranule rttGranule .rtt

def rttDestroy (rdAddr ipa level : Nat) : RmmM Unit := do
  let rdGranule ← getGranuleIf rdAddr .rd
  let rd ← contentRd rdGranule
  errIf (!isValidTableCmd rd ipa level) .rmiErrorInput
  let (rttAddr, walkTop) ← Rtt.destroy rd ipa level
  setRet 1 rttAddr
  setRet 2 walkTop

def rttInitRipas (rdAddr base top : Nat) : RmmM Unit := do
  let rdGranule ← getGranuleIf rdAddr .rd
  let rd ← contentRd rdGranule
  errIf (rd.state ≠ .new) (.rmiErrorRealm 0)
  errIf (top ≤ base) .rmiErrorInput
  errIf (!isValidRttCmd rd base S2tte.rttPageLevel ∨ !isValidRttCmd rd top S2tte.rttPageLevel ∨
    !rd.addrInPar base ∨ !rd.addrInPar (top - granuleSize)) .rmiErrorInput
  let outTop ← Rtt.initRipas rdGranule base top
  setRet 1 outTop

/-- `Rec::owner`. -/
def recOwner (r : Rec) : RmmM Nat :=
  match r.owner with
  | some owner => pure owner
  | none => err .rmiErrorRec

/-- `Rec::realmid`: the VMID in the descriptor the REC points to. -/
def recRealmid (r : Rec) : RmmM Nat := do
  let owner ← recOwner r
  let c ← getCore
  pure (c.mem owner).asRd.id

def rttSetRipas (rdAddr recAddr base top : Nat) : RmmM Unit := do
  errIf (rdAddr = recAddr) .rmiErrorInput
  let rdGranule ← getGranuleIf rdAddr .rd
  let rd ← contentRd rdGranule
  let recGranule ← getGranuleIf recAddr .recCtx
  let r ← contentRec recGranule
  let realmid ← recRealmid r
  errIf (realmid ≠ rd.id) .rmiErrorRec
  errIf (r.ripas.addr ≠ base ∨ r.ripas.endAddr < top) .rmiErrorInput
  errIf (!isGranuleAligned base ∨ !isGranuleAligned top ∨ !rd.addrInPar base ∨
    top < granuleSize ∨ !rd.addrInPar (top - granuleSize)) .rmiErrorInput
  let outTop ← Rtt.setRipas rd base top r.ripas.state r.ripas.flags
  setRet 1 outTop
  setRec recGranule { r with ripas := { r.ripas with addr := outTop } }

def rttReadEntry (rdAddr ipa level : Nat) : RmmM Unit := do
  let rdGranule ← getGranuleIf rdAddr .rd
  let rd ← contentRd rdGranule
  errIf (!isValidRttCmd rd ipa level) .rmiErrorInput
  let (walkLevel, state, desc, ripas) ← Rtt.readEntry rd ipa level
  setRet 1 walkLevel
  setRet 2 state
  setRet 3 desc.toNat
  setRet 4 ripas

/-- `host::copy_to_obj` into the page at `dst`. -/
def copyToObj (src dst : Nat) : RmmM (Option Unit) := do
  if ← isNotInRealm src then do
    let page ← hostRead src
    setPage dst page
    pure (some ())
  else pure none

/-- `ok_or(RmiErrorInput)?`. -/
def orInput {α : Type} : Option α → RmmM α
  | some a => pure a
  | none => err .rmiErrorInput

def dataCreate (rdAddr target ipa src flags : Nat) : RmmM Unit := do
  errIf (target = rdAddr ∨ target = src ∨ rdAddr = src) .rmiErrorInput
  let rdGranule ← getGranuleIf rdAddr .rd
  let rd ← contentRd rdGranule
  errIf (!rd.atState .new) (.rmiErrorRealm 0)
  errIf (!validateIpa rd ipa) .rmiErrorInput
  let outside ← isNotInRealm src
  errIf (!outside) .rmiErrorInput
  let targetGranule ← getGranuleIf target .delegated
  pageTableMap target true
  pageTableMap src false
  let copied ← copyToObj src target
  orInput copied
  pageTableUnmap src
  Rtt.dataCreate rd ipa target false
  let page ← contentPage target
  let measured ← ofExcept (HashContext.measureDataGranule rd page ipa flags)
  setRd rdGranule measured
  emit (.measured rdAddr (.data ipa flags page))
  setGranule targetGranule .data

def dataCreateUnknown (rdAddr target ipa : Nat) : RmmM Unit := do
  let rdGranule ← getGranuleIf rdAddr .rd
  let rd ← contentRd rdGranule
  errIf (target = rdAddr) .rmiErrorInput
  errIf (!validateIpa rd ipa) .rmiErrorInput
  let targetGranule ← getGranuleIf target .delegated
  pageTableMap target true
  Rtt.dataCreate rd ipa target true
  setGranule targetGranule .data

def dataDestroy (rdAddr ipa : Nat) : RmmM Unit := do
  let rdGranule ← getGranuleIf rdAddr .rd
  let rd ← contentRd rdGranule
  errIf (!rd.addrInPar ipa ∨ !isValidRttCmd rd ipa S2tte.rttPageLevel) .rmiErrorInput
  let (pa, top) ← Rtt.dataDestroy rd ipa
  -- no check of the granule's state here
  let granule ← getGranule pa
  setGranule granule .delegated
  setRet 1 pa
  setRet 2 top

def rttMapUnprotected (rdAddr ipa level : Nat) (host : Word) : RmmM Unit := do
  errIf (!S2tte.isHostNsValid host level) .rmiErrorInput
  let rdGranule ← getGranuleIf rdAddr .rd
  let rd ← contentRd rdGranule
  errIf (!isValidRttCmd rd ipa level) .rmiErrorInput
  Rtt.mapUnprotected rd ipa level host

def rttUnmapUnprotected (rdAddr ipa level : Nat) : RmmM Unit := do
  let rdGranule ← getGranuleIf rdAddr .rd
  let rd ← contentRd rdGranule
  errIf (level < S2tte.rttMinBlockLevel ∨ S2tte.rttPageLevel < level ∨
    !isValidRttCmd rd ipa level) .rmiErrorInput
  let top ← Rtt.unmapUnprotected rd ipa level
  setRet 1 top

def rttFold (rdAddr ipa level : Nat) : RmmM Unit := do
  let rdGranule ← getGranuleIf rdAddr .rd
  let rd ← contentRd rdGranule
  errIf (!isValidTableCmd rd ipa level) .rmiErrorInput
  let rtt ← Rtt.fold rd ipa level
  setRet 1 rtt

end Islet.Rmm.Rmi
