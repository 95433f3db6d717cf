import Islet.Armv9a.Bits
import Islet.Rmm.Granule

/-! The objects the monitor keeps in granules: the realm descriptor `Rd`, the
realm execution context `Rec`, and plain pages. Rust does not fix the layout of
the first two, so a granule holds either raw words or one of the objects, and
reading one through the wrong type goes through conversions that the platform
supplies and about which nothing is assumed.

Left out of the two objects is what no modelled function reads: the SVE vector
length, the saved FP registers, and the system registers that only the context
switch touches. -/

namespace Islet.Rmm

abbrev Byte := BitVec 8

/-- The 512 words of a 4 KiB page; indices from 512 on carry no meaning. -/
abbrev Page := Nat → Word

namespace Page

def zero : Page := fun _ => 0

/-- `to_le_bytes`. -/
def wordBytes (w : Word) : List Byte := (List.range 8).map fun k => (w >>> (8 * k)).setWidth 8

def bytes (p : Page) : List Byte := (List.range 512).flatMap fun i => wordBytes (p i)

/-- The bytes `[offset, offset + len)` of a page. -/
def slice (p : Page) (offset len : Nat) : List Byte := (p.bytes.drop offset).take len

/-- Eight little-endian bytes as a word; missing bytes read as zero. -/
def wordOfBytes (bs : List Byte) : Word :=
  (List.range 8).foldl (fun w k => w ||| ((bs.getD k 0).setWidth 64 <<< (8 * k))) 0

/-- Store bytes at a byte offset of the page. -/
def storeBytes (p : Page) (offset : Nat) (bs : List Byte) : Page := fun i =>
  wordOfBytes ((List.range 8).map fun k =>
    let at_ := 8 * i + k
    if offset ≤ at_ ∧ at_ < offset + bs.length then bs.getD (at_ - offset) 0
    else (p i >>> (8 * k)).setWidth 8)

end Page

/-! ### Realm descriptor -/

/-- `realm::rd::State`. -/
inductive RealmState where
  | null
  | new
  | active
  | systemOff
  deriving DecidableEq, Repr, Inhabited

/-- A measurement slot: `MEASUREMENTS_SLOT_MAX_SIZE` bytes. -/
abbrev Measurement := Vector Byte 64

def Measurement.empty : Measurement := Vector.replicate 64 0

/-- `MEASUREMENTS_SLOT_NR`. -/
abbrev measurementsSlotNr : Nat := 5

instance : NeZero measurementsSlotNr := ⟨by decide⟩

abbrev measurementsSlotRim : Nat := 0

structure Rd where
  vmid : Nat
  state : RealmState
  rttBase : Nat
  rttNumStart : Nat
  ipaBits : Nat
  recIndex : Nat
  /-- The `isize` field, by the `usize` it casts to. -/
  s2StartingLevel : Nat
  hashAlgo : Nat
  rpv : List Byte
  measurements : Vector Measurement measurementsSlotNr
  vcpuIndex : Nat
  metadata : Option Nat
  sveEn : Bool

namespace Rd

def id (rd : Rd) : Nat := rd.vmid

def ipaSize (rd : Rd) : Nat := 2 ^ rd.ipaBits

def parSize (rd : Rd) : Nat := rd.ipaSize / 2

def addrInPar (rd : Rd) (ipa : Nat) : Bool := ipa < rd.parSize

def atState (rd : Rd) (state : RealmState) : Bool := rd.state == state

end Rd

/-! ### Realm execution context -/

inductive AttestState where
  | attestInProgress
  | noAttestInProgress
  deriving DecidableEq, Repr

inductive RecEmulatableAbort where
  | emulatableAbort
  | notEmulatableAbort
  deriving DecidableEq, Repr

/-- `rec::State`. -/
inductive RecState where
  | ready
  | running
  deriving DecidableEq, Repr

/-- The RIPAS change a REC has asked for. -/
structure Ripas where
  start : Nat
  endAddr : Nat
  addr : Nat
  state : Nat
  flags : Word

/-- `ICH_*_EL2` registers that are exchanged with the host. -/
structure GicRegister where
  ichVmcrEl2 : Word
  ichHcrEl2 : Word
  ichLrEl2 : Nat → Word
  ichMisrEl2 : Word

structure TimerRegister where
  cntvoffEl2 : Word
  cntvCvalEl0 : Word
  cntvCtlEl0 : Word
  cntpoffEl2 : Word
  cntpCvalEl0 : Word
  cntpCtlEl0 : Word

structure Context where
  gpRegs : Nat → Word
  elr : Word
  spsr : Word
  vmpidr : Word
  vttbr : Word
  esrEl2 : Word
  sctlr : Word
  gicState : GicRegister
  timer : TimerRegister
  sveEn : Bool

structure Rec where
  context : Context
  attestState : AttestState
  attestChallenge : List Byte
  attestTokenOffset : Nat
  aux : Nat → Nat
  emulatableAbort : RecEmulatableAbort
  owner : Option Nat
  vcpuid : Nat
  runnable : Bool
  psciPending : Bool
  state : RecState
  ripas : Ripas
  vtcr : Word
  hostCallPending : Bool

/-- `SPSR_EL2` of a context that has not run: `D`, `A`, `I`, `F` set, mode EL1h. -/
def initialSpsr : Word := 0x3c5

def Context.new : Context where
  gpRegs := fun _ => 0
  elr := 0
  spsr := initialSpsr
  vmpidr := 0
  vttbr := 0
  esrEl2 := 0
  sctlr := 0
  gicState := ⟨0, 0, fun _ => 0, 0⟩
  timer := ⟨0, 0, 0, 0, 0, 0⟩
  sveEn := false

def Rec.new : Rec where
  context := .new
  attestState := .noAttestInProgress
  attestChallenge := List.replicate 64 0
  attestTokenOffset := 0
  aux := fun _ => 0
  emulatableAbort := .notEmulatableAbort
  owner := none
  vcpuid := 0
  runnable := false
  psciPending := false
  state := .ready
  ripas := ⟨0, 0, 0, 0, 0⟩
  vtcr := 0
  hostCallPending := false

/-! ### The platform -/

/-- `PlatformMemoryLayout` as the FVP linker script and `main` fill it in. -/
structure PlatformMemoryLayout where
  rmmBase : Nat
  rwStart : Nat
  rwEnd : Nat
  stackBase : Nat
  uartPhys : Nat
  rmmBase_eq : rmmBase = 0xFDC00000
  rwStart_gt : rmmBase < rwStart
  rwStart_aligned : rwStart % 4096 = 0
  rwEnd_gt : rwStart < rwEnd
  stackBase_ge : rwEnd ≤ stackBase
  stackBase_aligned : stackBase % 4096 = 0
  stack_end : stackBase + 8 * 0x100000 < 0xFFC00000
  uartPhys_eq : uartPhys = 0x1c0c0000

/-- What the monitor is given: hardware features, cryptography, EL3 services, and
the memory layout of the two objects. -/
class Platform where
  memoryLayout : PlatformMemoryLayout
  rdWords : Rd → Page
  rdOfWords : Page → Rd
  recWords : Rec → Page
  recOfWords : Page → Rec
  sha256 : List Byte → Vector Byte 32
  sha512 : List Byte → Vector Byte 64
  /-- ECDSA P-384 verification of a metadata page, with its own key. -/
  verifySignature : Page → Bool
  /-- The attestation token; `none` where building it panics. -/
  getToken : List Byte → Vector Measurement measurementsSlotNr → List Byte → Nat →
    Option (List Byte)
  /-- HKDF over the given info bytes, with VHUK_M or VHUK_A; `none` if `expand` fails. -/
  sealingKey : Bool → List Byte → Option (Nat → Word)
  /-- `SIMD_CONFIG`. -/
  sveEn : Bool
  sveVq : Nat
  /-- `GIC_FEATURES`. -/
  nrLrs : Nat
  nrLrs_lt : nrLrs < 16
  priRes0Mask : Word
  maxVintid : Nat
  extRange : Bool
  /-- The bits of `HPFAR_EL2` that hold the faulting address. -/
  fipaMask : Word
  /-- The `VTCR_EL2` encoding of a starting level and an IPA width. -/
  vtcr : Nat → Nat → Word

/-! ### Contents of a granule -/

inductive Content where
  | raw (page : Page)
  | rd (desc : Rd)
  | recCtx (r : Rec)

namespace Content

variable [Platform]

/-- The words a page-sized access sees. -/
def words : Content → Page
  | .raw page => page
  | .rd desc => Platform.rdWords desc
  | .recCtx r => Platform.recWords r

def asRd : Content → Rd
  | .rd desc => desc
  | other => Platform.rdOfWords other.words

def asRec : Content → Rec
  | .recCtx r => r
  | other => Platform.recOfWords other.words

@[simp] theorem words_raw (page : Page) : (Content.raw page).words = page := rfl

@[simp] theorem asRd_rd (desc : Rd) : (Content.rd desc).asRd = desc := rfl

@[simp] theorem asRec_recCtx (r : Rec) : (Content.recCtx r).asRec = r := rfl

end Content

end Islet.Rmm
