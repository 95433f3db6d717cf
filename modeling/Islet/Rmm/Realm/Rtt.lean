import Islet.Rmm.Measurement
import Islet.Rmm.Realm.Stage2Translation

/-! The operations on realm translation tables behind the RTT and DATA commands,
after `realm/mm/rtt.rs`. Each operation walks to an entry, decides from its
descriptor, and stores a new descriptor; the descriptors that are stored are
definitions of their own. Loops over entries run on fuel that bounds the number
of entries they can visit. -/

namespace Islet.Rmm.Rtt

open Lib Prog Bits Rmi Vmsa

variable [Platform]

def changeDestroyed : Word := 0x1

/-- Descriptor type of a leaf in a table of the given level. -/
def leafDescType (level : Nat) : Word :=
  if level = S2tte.rttPageLevel then bitsInReg S2tte.descType S2tte.l3Page
  else bitsInReg S2tte.descType S2tte.l012Block

/-- `base & !(size - 1)`; sizes are powers of two. -/
def alignedTo (base size : Nat) : Nat := alignDown base size

/-! ### Tables of live and dead entries -/

/-- The loop of `skip_non_live_entries`. -/
def skipLoop (mapSize base : Nat) : List Word → Nat → Nat → Nat
  | [], _, addr => addr
  | e :: rest, bottom, addr =>
    if bottom < base then skipLoop mapSize base rest (bottom + mapSize) addr
    else if S2tte.isLive e then addr
    else skipLoop mapSize base rest bottom (addr + mapSize)

def skipNonLiveEntries (rd : Rd) (base level : Nat) : RmmM Nat := do
  let mapSize ← mappingSize level
  let addr := alignedTo base mapSize
  errIf (addr ≠ base) (.rmiErrorRtt level)
  let spaceSize ← levelSpaceSize rd level
  let (es, _) ← entries rd base level
  pure (skipLoop mapSize base es (alignedTo addr spaceSize) addr)

/-- `is_live_rtt(..).unwrap_or(false)`. -/
def isLiveRtt (rd : Rd) (base level : Nat) : RmmM Bool := do
  match ← result (entries rd base level) with
  | .ok (es, _) => pure (es.any S2tte.isLive)
  | .error _ => pure false

/-! ### RTT_CREATE -/

/-- The table that `create_pgtbl_at` fills in. -/
def tablePage (flags pa : Word) (mapSize : Nat) : Page := fun i =>
  let at_ := pa + BitVec.ofNat 64 (i * mapSize)
  at_ ||| (at_ ||| flags)

def createPgtblAt (rttAddr : Nat) (flags pa : Word) (mapSize : Nat) : RmmM Unit := do
  errIf (rttAddr = 0) (.rmiErrorRtt 0)
  setPage rttAddr (tablePage flags pa mapSize)

/-- The descriptor of a table. -/
def tableDesc (rttAddr : Nat) : Word :=
  BitVec.ofNat 64 rttAddr ||| bitsInReg S2tte.descType S2tte.l012Table

/-- How `create` fills the new table from the parent's descriptor: flags, first
output address, and step. `none` where it panics. -/
def splitOf (parent : Word) (level mapSize : Nat) : Option (Word × Word × Nat) :=
  let kept := getMasked parent (S2tte.invalidHipas ||| S2tte.invalidRipas)
  let pa := S2tte.addrAsBlock? parent (level - 1)
  if S2tte.isUnassigned parent then
    if S2tte.isInvalidRipas parent then none else some (kept, 0, 0)
  else if S2tte.isAssigned parent then
    if getMaskedValue parent S2tte.invalidRipas = S2tte.ripasRam then none
    else pa.map fun pa => (kept, pa, mapSize)
  else if S2tte.isAssignedRam parent (level - 1) then
    pa.map fun pa => (kept ||| leafDescType level, pa, mapSize)
  else if S2tte.isUnassignedNs parent then
    some (bitsInReg S2tte.invalidHipas S2tte.unassigned ||| bitsInReg S2tte.ns 1, 0, 0)
  else if S2tte.isAssignedNs parent (level - 1) then
    pa.map fun pa =>
      (bitsInReg S2tte.ns 1 ||| getMasked parent (S2tte.memattr ||| S2tte.s2ap ||| S2tte.sh) |||
        leafDescType level, pa, mapSize)
  else none

/-- What `create` invalidates: only the mapping of a block of RAM. -/
def splitTlbi (rd : Rd) (parent : Word) (level : Nat) : Tlbi :=
  if S2tte.isUnassigned parent || S2tte.isAssigned parent then .none
  else if S2tte.isAssignedRam parent (level - 1) then .leaf rd.id
  else .none

def create (rd : Rd) (rttAddr ipa level : Nat) : RmmM Unit := do
  let (parent, last) ← getS2tte rd ipa (level - 1) .rmiErrorInput
  errIf (last ≠ level - 1 ∨ S2tte.isTable parent last) (.rmiErrorRtt last)
  let mapSize ← mappingSize level
  let (flags, pa, step) ← orPanic (splitOf parent level mapSize)
  createPgtblAt rttAddr flags pa step
  ipaToPteSet rd ipa (level - 1) (tableDesc rttAddr) (splitTlbi rd parent level)

/-! ### RTT_DESTROY -/

/-- What `destroy` leaves in the parent entry. -/
def destroyedDesc (isProtected : Bool) : Word :=
  if isProtected then
    bitsInReg S2tte.invalidHipas S2tte.unassigned |||
      bitsInReg S2tte.invalidRipas S2tte.ripasDestroyed
  else
    bitsInReg S2tte.ns 1 ||| bitsInReg S2tte.invalidHipas S2tte.unassigned |||
      S2tte.invalidUnprotected

/-- `destroy` with the closure that stores the walk top in `ret[2]`. -/
def destroy (rd : Rd) (ipa level : Nat) : RmmM (Nat × Nat) := inScope do
  let (parent, last) ← getS2tte rd ipa (level - 1) (.rmiErrorRtt 0)
  if last ≠ level - 1 ∨ !S2tte.isTable parent last then do
    let top ← skipNonLiveEntries rd ipa last
    setRet 2 top
    err (.rmiErrorRtt last)
  else do
    let rttAddr ← addrAsBlock parent S2tte.rttPageLevel
    let gRtt ← getGranuleIf rttAddr.toNat .rtt
    if ← isLiveRtt rd ipa level then do
      setRet 2 ipa
      err (.rmiErrorRtt level)
    else do
      ipaToPteSet rd ipa (level - 1) (destroyedDesc (rd.addrInPar ipa))
        (if rd.addrInPar ipa then .leaf rd.id else .breakdown rd.id)
      setGranule gRtt .delegated
      let top ← skipNonLiveEntries rd ipa last
      pure (rttAddr.toNat, top)

/-! ### RIPAS -/

/-- What RTT_INIT_RIPAS stores. -/
def initRam : Word :=
  bitsInReg S2tte.invalidHipas S2tte.unassigned ||| bitsInReg S2tte.invalidRipas S2tte.ripasRam

/-- The loop of `init_ripas`; the realm descriptor is measured into as it goes. -/
def initRipasLoop (rdGranule mapSize top topAddr : Nat) : Nat → Nat → RmmM Nat
  | 0, _ => fail .diverge
  | fuel + 1, addr =>
    if addr < topAddr ∧ addr + mapSize ≤ top then do
      let rd ← contentRd rdGranule
      let (e, last) ← getS2tte rd addr S2tte.rttPageLevel (.rmiErrorRtt 0)
      if S2tte.isUnassignedEmpty e then
        ipaToPteSet rd addr last initRam .none
      if S2tte.isUnassignedEmpty e ∨ S2tte.isUnassignedRam e then do
        let measured ← ofExcept (HashContext.measureRipasGranule rd addr (addr + mapSize))
        setRd rdGranule measured
        emit (.measured (indexToAddr rdGranule) (.ripas addr (addr + mapSize)))
        initRipasLoop rdGranule mapSize top topAddr fuel (addr + mapSize)
      else pure addr
    else pure addr

def initRipas (rdGranule base top : Nat) : RmmM Nat := do
  let rd ← contentRd rdGranule
  let (_, last) ← getS2tte rd base S2tte.rttPageLevel (.rmiErrorRtt 0)
  let mapSize ← mappingSize last
  errIf (alignedTo base mapSize ≠ base) (.rmiErrorRtt last)
  errIf (top ≠ alignedTo top mapSize) (.rmiErrorRtt last)
  let spaceSize ← levelSpaceSize rd last
  let topAddr := alignedTo base spaceSize + spaceSize
  let addr ← initRipasLoop rdGranule mapSize top topAddr ((topAddr - base) / mapSize + 1) base
  if base < addr then pure addr else err (.rmiErrorRtt last)

def getRipas (rd : Rd) (ipa level : Nat) : RmmM Word := do
  let (e, last) ← getS2tte rd ipa level (.rmiErrorRtt 0)
  errIf (level ≠ last) (.rmiErrorRtt last)
  if S2tte.isAssignedRam e level then pure S2tte.ripasRam else pure (S2tte.getRipas e)

/-- What one round of `set_ripas` does with an entry. -/
inductive RipasStep where
  | write (e : Word)
  | skip
  | stop
  | unreachable

/-- A round of `set_ripas` on the descriptor `e` of a level-`level` entry whose
output address is `pa`. -/
def ripasStep (e pa : Word) (level ripas : Nat) (flags : Word) : RipasStep :=
  let change := flags &&& changeDestroyed ≠ 0
  let hipas (value : Word) := bitsInReg S2tte.invalidHipas value
  if BitVec.ofNat 64 ripas = S2tte.ripasEmpty then
    let new := bitsInReg S2tte.invalidRipas S2tte.ripasEmpty
    if S2tte.isUnassignedEmpty e then .write (new ||| hipas S2tte.unassigned)
    else if S2tte.isUnassignedDestroyed e then
      if change then .write (new ||| hipas S2tte.unassigned) else .stop
    else if S2tte.isAssignedRam e level then .write (new ||| hipas S2tte.assigned ||| pa)
    else if S2tte.isAssignedDestroyed e then
      if change then .write (new ||| hipas S2tte.assigned ||| pa) else .stop
    else .write new
  else if BitVec.ofNat 64 ripas = S2tte.ripasRam then
    let new := bitsInReg S2tte.invalidRipas S2tte.ripasRam
    if S2tte.isUnassignedEmpty e then .write (new ||| hipas S2tte.unassigned)
    else if S2tte.isUnassignedDestroyed e then
      if change then .write (new ||| hipas S2tte.unassigned) else .stop
    else if S2tte.isAssignedEmpty e then
      .write (new ||| hipas S2tte.assigned ||| leafDescType level ||| pa)
    else if S2tte.isAssignedDestroyed e then
      if change then .write (new ||| leafDescType level ||| pa) else .stop
    else .skip
  else .unreachable

/-- What a round of `set_ripas` invalidates if it writes. -/
def ripasTlbi (rd : Rd) (e : Word) (level ripas : Nat) (flags : Word) : Tlbi :=
  if BitVec.ofNat 64 ripas = S2tte.ripasEmpty then
    if S2tte.isUnassignedEmpty e || S2tte.isUnassignedDestroyed e then .none
    else if S2tte.isAssignedRam e level then .leaf rd.id
    else if S2tte.isAssignedDestroyed e then
      if flags &&& changeDestroyed ≠ 0 then .leaf rd.id else .none
    else .none
  else .none

/-- The loop of `set_ripas`. -/
def setRipasLoop (rd : Rd) (level mapSize tableTop top ripas : Nat) (flags : Word) :
    Nat → Nat → RmmM Nat
  | 0, _ => fail .diverge
  | fuel + 1, addr =>
    if addr < tableTop ∧ addr < top then do
      let (e, last) ← getS2tte rd addr S2tte.rttPageLevel (.rmiErrorRtt level)
      if level ≠ last then pure addr
      else do
        let pa ← addrAsBlock e last
        match ripasStep e pa level ripas flags with
        | .write new => do
          ipaToPteSet rd addr last new (ripasTlbi rd e level ripas flags)
          setRipasLoop rd level mapSize tableTop top ripas flags fuel (addr + mapSize)
        | .skip => setRipasLoop rd level mapSize tableTop top ripas flags fuel (addr + mapSize)
        | .stop => pure addr
        | .unreachable => fail .panic
    else pure addr

def setRipas (rd : Rd) (base top ripas : Nat) (flags : Word) : RmmM Nat := do
  let (_, level) ← getS2tte rd base S2tte.rttPageLevel (.rmiErrorRtt S2tte.rttPageLevel)
  let mapSize ← mappingSize level
  errIf (alignedTo base mapSize ≠ base) (.rmiErrorRtt level)
  errIf (alignedTo top mapSize ≠ top) (.rmiErrorRtt level)
  let spaceSize ← levelSpaceSize rd level
  let tableTop := alignedTo base spaceSize + spaceSize
  let addr ← setRipasLoop rd level mapSize tableTop top ripas flags
    ((tableTop - base) / mapSize + 1) base
  if base < addr then pure addr else err (.rmiErrorRtt level)

/-! ### RTT_READ_ENTRY -/

/-- `rtt_entry_state`. -/
abbrev rmiUnassigned : Nat := 0
abbrev rmiAssigned : Nat := 1
abbrev rmiTable : Nat := 2

/-- State, descriptor and RIPAS that `read_entry` reports; `none` where
`addr_as_block` is unreachable. -/
def entryView (e : Word) (last : Nat) : Option (Nat × Word × Nat) :=
  let ripas := (getMaskedValue e S2tte.invalidRipas).toNat
  let pa := S2tte.addrAsBlock? e last
  if S2tte.isUnassigned e then some (rmiUnassigned, 0, ripas)
  else if S2tte.isAssigned e then pa.map fun pa => (rmiAssigned, pa, ripas)
  else if S2tte.isTable e last then some (rmiTable, getMasked e S2tte.addrTblOrPage, 0)
  else if S2tte.isAssignedRam e last then
    pa.map fun pa => (rmiAssigned, pa, S2tte.ripasRam.toNat)
  else if S2tte.isUnassignedNs e then some (rmiUnassigned, 0, 0)
  else if S2tte.isAssignedNs e last then
    let mask := (S2tte.levelMask last).getD 0 ||| S2tte.memattr ||| S2tte.s2ap ||| S2tte.sh
    some (rmiAssigned, getMasked e mask, 0)
  else some (0, 0, 0)

def readEntry (rd : Rd) (ipa level : Nat) : RmmM (Nat × Nat × Word × Nat) := do
  let (e, last) ← getS2tte rd ipa level (.rmiErrorRtt 0)
  let view ← orPanic (entryView e last)
  pure (last, view)

/-! ### Unprotected mappings -/

/-- What `map_unprotected` adds to the host's descriptor. -/
def unprotectedDesc (host : Word) (level : Nat) : Word :=
  host ||| (bitsInReg S2tte.ns 1 ||| bitsInReg S2tte.xn 1 ||| bitsInReg S2tte.af 1 |||
    leafDescType level)

def mapUnprotected (rd : Rd) (ipa level : Nat) (host : Word) : RmmM Unit := do
  errIf (rd.addrInPar ipa) .rmiErrorInput
  let (e, last) ← getS2tte rd ipa level (.rmiErrorRtt 0)
  errIf (level ≠ last) (.rmiErrorRtt last)
  errIf (!S2tte.isUnassigned e) (.rmiErrorRtt level)
  ipaToPteSet rd ipa level (unprotectedDesc host level) (.leaf rd.id)

/-- `unmap_unprotected` with the closure that stores the walk top in `ret[1]`. -/
def unmapUnprotected (rd : Rd) (ipa level : Nat) : RmmM Nat := do
  errIf (rd.addrInPar ipa) .rmiErrorInput
  let (e, last) ← getS2tte rd ipa level (.rmiErrorRtt 0)
  if level ≠ last ∨ !S2tte.isAssignedNs e last then do
    let top ← skipNonLiveEntries rd ipa last
    setRet 1 top
    err (.rmiErrorRtt last)
  else do
    ipaToPteSet rd ipa level (destroyedDesc false) (.leaf rd.id)
    skipNonLiveEntries rd ipa level

/-! ### DATA_CREATE and DATA_DESTROY -/

/-- The descriptor of a data granule; `ripas` is what the entry had. -/
def dataDesc (target : Nat) (isUnknown : Bool) (ripas : Word) : Word :=
  if isUnknown ∧ ripas ≠ S2tte.ripasRam then
    BitVec.ofNat 64 target ||| bitsInReg S2tte.invalidHipas S2tte.assigned |||
      bitsInReg S2tte.invalidRipas ripas
  else
    BitVec.ofNat 64 target ||| bitsInReg S2tte.descType S2tte.l3Page |||
      bitsInReg S2tte.memattr S2tte.memattrNormalFwb |||
      bitsInReg S2tte.s2ap S2tte.permissionRw ||| bitsInReg S2tte.sh S2tte.shareableInner |||
      bitsInReg S2tte.af 1

def dataCreate (rd : Rd) (ipa target : Nat) (isUnknown : Bool) : RmmM Unit := do
  let level := S2tte.rttPageLevel
  let (e, last) ← getS2tte rd ipa level (.rmiErrorRtt 0)
  errIf (level ≠ last) (.rmiErrorRtt last)
  errIf (!S2tte.isUnassigned e) (.rmiErrorRtt S2tte.rttPageLevel)
  if S2tte.isInvalidRipas e then fail .panic
  ipaToPteSet rd ipa level (dataDesc target isUnknown (S2tte.getRipas e)) .none

/-- What `data_destroy` leaves behind. -/
def dataGoneDesc (e : Word) : Word :=
  bitsInReg S2tte.invalidHipas S2tte.unassigned |||
    (if S2tte.isAssignedRam e S2tte.rttPageLevel then
      bitsInReg S2tte.invalidRipas S2tte.ripasDestroyed
    else getMasked e S2tte.invalidRipas)

/-- `data_destroy` with the closure that stores the walk top in `ret[2]`. -/
def dataDestroy (rd : Rd) (ipa : Nat) : RmmM (Nat × Nat) := do
  let level := S2tte.rttPageLevel
  let (e, last) ← getS2tte rd ipa level (.rmiErrorRtt level)
  if last < level ∨ (!S2tte.isValid e last false ∧ !S2tte.isAssigned e) then do
    let top ← skipNonLiveEntries rd ipa last
    setRet 2 top
    err (.rmiErrorRtt last)
  else do
    let pa ← addrAsBlock e last
    ipaToPteSet rd ipa level (dataGoneDesc e)
      (if S2tte.isAssignedRam e S2tte.rttPageLevel then .leaf rd.id else .none)
    let top ← skipNonLiveEntries rd ipa level
    pure (pa.toNat, top)

/-! ### RTT_FOLD -/

/-- The descriptor that replaces a homogeneous table, from its first entry; `none`
where `addr_as_block` is unreachable. -/
def foldDesc (e : Word) (level : Nat) (isProtected : Bool) : Option Word :=
  let attr := getMasked e S2tte.ns
  let pa := S2tte.addrAsBlock? e level
  if S2tte.isAssignedRam e level || S2tte.isAssignedNs e level then
    pa.map fun pa =>
      pa ||| (attr ||| getMasked e (S2tte.memattr ||| S2tte.s2ap ||| S2tte.sh)) ||| 0 ||| 0 |||
        S2tte.l012Block
  else if S2tte.isAssigned e then
    pa.map fun pa =>
      pa ||| (attr ||| getMasked e (S2tte.s2ap ||| S2tte.sh)) ||| getMasked e S2tte.invalidHipas |||
        getMasked e S2tte.invalidRipas ||| 0
  else if isProtected then some (attr ||| getMasked e S2tte.invalidRipas)
  else some attr

def fold (rd : Rd) (ipa level : Nat) : RmmM Nat := inScope do
  let (e, _) ← getS2tte rd ipa level (.rmiErrorRtt level)
  let (parent, parentLevel) ← getS2tte rd ipa (level - 1) .rmiErrorInput
  errIf (parentLevel < level - 1 ∨ !S2tte.isTable parent (level - 1)) (.rmiErrorRtt parentLevel)
  let rttAddr := (getMasked parent S2tte.addrTblOrPage).toNat
  let gRtt ← getGranuleIf rttAddr .rtt
  let (es, _) ← entries rd ipa level
  if S2tte.isHomogeneous es level then do
    let new ← orPanic (foldDesc e level (rd.addrInPar ipa))
    ipaToPteSet rd ipa (level - 1) new (.breakdown rd.id)
    setGranule gRtt .delegated
    pure rttAddr
  else err (.rmiErrorRtt level)

end Islet.Rmm.Rtt
