import Mathlib.Data.List.Basic
import Mathlib.Tactic.Common
import Mathlib.Tactic.Ring

/-! Measured boot of the host enforced security subsystem (`islet-hes`): the slots
in which it collects the measurements of software components, and the manager that
extends and reads them. A call that panics has no result. -/

namespace Islet.Hes

abbrev Byte := UInt8

/-- A vector of bytes in an array of fixed size (`tinyvec::ArrayVec<[u8; N]>`). -/
structure ArrayVec (capacity : Nat) where
  bytes : List Byte
  fits : bytes.length ≤ capacity
  deriving DecidableEq

namespace ArrayVec

variable {capacity : Nat}

protected def empty : ArrayVec capacity := ⟨[], Nat.zero_le _⟩

instance : Inhabited (ArrayVec capacity) := ⟨.empty⟩

def len (v : ArrayVec capacity) : Nat := v.bytes.length

/-- Shorten the vector, or fill it up with `value`; there is no room beyond the capacity. -/
def resize (v : ArrayVec capacity) (newLen : Nat) (value : Byte) : Option (ArrayVec capacity) :=
  if h : newLen ≤ capacity then
    some ⟨v.bytes.take newLen ++ List.replicate (newLen - v.len) value, by
      simp only [List.length_append, List.length_take, List.length_replicate, len]
      omega⟩
  else none

/-- `v[..src.len()].copy_from_slice(src)`, which panics if `v` is shorter than `src`. -/
def copyFromSlice (v : ArrayVec capacity) (src : List Byte) : Option (ArrayVec capacity) :=
  if h : src.length ≤ v.len then
    some ⟨src ++ v.bytes.drop src.length, by
      have fits := v.fits
      simp only [List.length_append, List.length_drop, len] at h ⊢
      omega⟩
  else none

end ArrayVec

/-! ### Measurements -/

def maxHashValueSize : Nat := 64

abbrev ValueHash := ArrayVec maxHashValueSize

inductive MeasurementError where
  | invalidArgument
  | notPermitted
  | doesNotExist
  | badState
  | invalidData (message : String)
  deriving DecidableEq, Repr

inductive MeasurementType where
  | sha256
  | sha384
  | sha512
  deriving DecidableEq, Repr, Inhabited

namespace MeasurementType

def hashLen : MeasurementType → Nat
  | sha256 => 32
  | sha384 => 48
  | sha512 => 64

def tryFrom : BitVec 16 → Except MeasurementError MeasurementType
  | 0 => .ok sha256
  | 1 => .ok sha384
  | 2 => .ok sha512
  | _ => .error (.invalidData "MeasurementType")

end MeasurementType

/-- The hash functions, of which only the size of the digests is known. -/
class Sha where
  digest : MeasurementType → List Byte → List Byte
  length_digest : ∀ algorithm message, (digest algorithm message).length = algorithm.hashLen

def measurementValueMinSize : Nat := 32
def measurementValueMaxSize : Nat := 64
def signerIdMinSize : Nat := measurementValueMinSize
def signerIdMaxSize : Nat := measurementValueMaxSize
def versionMaxSize : Nat := 14
def swTypeMaxSize : Nat := 20
def maxHwSwTypeSize : Nat := 10
def maxHwSwVersionSize : Nat := 14

structure MeasurementMetaData where
  signerId : ArrayVec signerIdMaxSize := .empty
  swVersion : String := ""
  algorithm : MeasurementType := .sha256
  swType : String := ""
  deriving DecidableEq

structure Measurement where
  metadata : MeasurementMetaData := {}
  value : ValueHash := .empty
  deriving DecidableEq

/-- A measurement as the hardware holds it. -/
structure BootMeasurement where
  measurementType : BitVec 16
  signerId : ArrayVec maxHashValueSize
  swType : ArrayVec maxHwSwTypeSize
  swVersion : ArrayVec maxHwSwVersionSize
  measurementValue : ArrayVec maxHashValueSize

def fromUtf8 (bytes : List Byte) : Option String := String.fromUTF8? ⟨bytes.toArray⟩

/-- `TryFrom<BootMeasurement>`; the type of the hash is looked at last. -/
def Measurement.tryFrom (value : BootMeasurement) : Except MeasurementError Measurement := do
  if value.signerId.len < signerIdMinSize ∨ value.signerId.len > signerIdMaxSize then
    throw (.invalidData "SignerIdSize")
  if value.swVersion.len > versionMaxSize then
    throw (.invalidData "SWVersionSize")
  if value.swType.len > swTypeMaxSize then
    throw (.invalidData "SWTypeSize")
  if value.measurementValue.len < measurementValueMinSize ∨ value.measurementValue.len > measurementValueMaxSize then
    throw (.invalidData "MeasurementValueSize")
  let swVersion ← match fromUtf8 value.swVersion.bytes with
    | some version => pure version
    | none => throw (.invalidData "SWVersionNotUtf8")
  let swType ← match fromUtf8 value.swType.bytes with
    | some type => pure type
    | none => throw (.invalidData "SWTypeNotUtf8")
  let algorithm ← MeasurementType.tryFrom value.measurementType
  return { metadata := { signerId := value.signerId, swVersion, algorithm, swType }, value := value.measurementValue }

/-! ### Slots -/

structure MeasurementSlot where
  measurement : Measurement := {}
  isLocked : Bool := false
  isPopulated : Bool := false
  deriving DecidableEq

namespace MeasurementSlot

variable [Sha]

/-- Only the type and the version of the software change. -/
def extendMetadata (slot : MeasurementSlot) (metadata : MeasurementMetaData) : MeasurementSlot :=
  { slot with measurement.metadata := { slot.measurement.metadata with
      swType := metadata.swType, swVersion := metadata.swVersion } }

/-- The digest of the old value followed by the new one takes the place of the old value. -/
def extendValue (slot : MeasurementSlot) (value : ValueHash) (lock : Bool) : Option MeasurementSlot := do
  let algorithm := slot.measurement.metadata.algorithm
  -- the slice of the old value must exist
  guard (algorithm.hashLen ≤ slot.measurement.value.len)
  let temp := slot.measurement.value.bytes.take algorithm.hashLen ++ value.bytes
  let stored ← slot.measurement.value.copyFromSlice (Sha.digest algorithm temp)
  return { slot with measurement.value := stored, isPopulated := true, isLocked := lock }

def extend (slot : MeasurementSlot) (measurement : Measurement) (lock : Bool) : Option MeasurementSlot :=
  (slot.extendMetadata measurement.metadata).extendValue measurement.value lock

/-- The first measurement of a slot, which must not be populated. -/
def initializeWith (slot : MeasurementSlot) (measurement : Measurement) (lock : Bool) : Option MeasurementSlot := do
  guard (slot.isPopulated = false)
  let value ← slot.measurement.value.resize measurement.metadata.algorithm.hashLen 0
  extendValue { slot with measurement := { metadata := measurement.metadata, value } } measurement.value lock

def markAsPopulated (slot : MeasurementSlot) : MeasurementSlot := { slot with isPopulated := true }

/-- The signer and the algorithm of a slot cannot change. -/
def isProhibited (slot : MeasurementSlot) (metadata : MeasurementMetaData) : Bool :=
  metadata.signerId ≠ slot.measurement.metadata.signerId ∨ metadata.algorithm ≠ slot.measurement.metadata.algorithm

end MeasurementSlot

/-! ### The manager -/

def numOfMeasurementSlots : Nat := 32

structure MeasurementMgr where
  measurements : Vector MeasurementSlot numOfMeasurementSlots

namespace MeasurementMgr

def slot (mgr : MeasurementMgr) (i : Fin numOfMeasurementSlots) : MeasurementSlot := mgr.measurements[i]

def setSlot (mgr : MeasurementMgr) (slotId : Fin numOfMeasurementSlots) (slot : MeasurementSlot) : MeasurementMgr :=
  ⟨mgr.measurements.set slotId slot⟩

variable [Sha]

/-- Store boot measurements from slot `index` on. -/
def initFrom : Nat → List BootMeasurement → MeasurementMgr → Option MeasurementMgr
  | _, [], mgr => some mgr
  | index, bootMeasurement :: rest, mgr => do
    let measurement ← (Measurement.tryFrom bootMeasurement).toOption
    if h : index < numOfMeasurementSlots then
      let slot ← mgr.measurements[index].initializeWith measurement false
      initFrom (index + 1) rest (mgr.setSlot ⟨index, h⟩ slot)
    else none

/-- The first error of a conversion is unwrapped, so this returns a manager or panics. -/
def init (bootMeasurements : List BootMeasurement) : Option MeasurementMgr := do
  guard (bootMeasurements.length ≤ numOfMeasurementSlots)
  initFrom 0 bootMeasurements ⟨Vector.replicate _ {}⟩

omit [Sha] in
def readMeasurement (mgr : MeasurementMgr) (slotId : Nat) : Except MeasurementError (Measurement × Bool) :=
  if h : slotId < numOfMeasurementSlots then
    let slot := mgr.measurements[slotId]
    if slot.isPopulated then .ok (slot.measurement, slot.isLocked) else .error .doesNotExist
  else .error .invalidArgument

/-- The result of the call, and the manager it leaves. -/
def extendMeasurement (mgr : MeasurementMgr) (slotId : Nat) (measurement : Measurement) (lock : Bool) :
    Option (Except MeasurementError Unit × MeasurementMgr) :=
  if h : slotId < numOfMeasurementSlots then
    let slot := mgr.measurements[slotId]
    if slot.isLocked then some (.error .badState, mgr)
    else if slot.isPopulated then
      if slot.isProhibited measurement.metadata then some (.error .notPermitted, mgr)
      else do
        let slot ← slot.extend measurement lock
        return (.ok (), mgr.setSlot ⟨slotId, h⟩ slot)
    else do
      let slot ← slot.initializeWith measurement lock
      return (.ok (), mgr.setSlot ⟨slotId, h⟩ slot.markAsPopulated)
  else some (.error .invalidArgument, mgr)

end MeasurementMgr

end Islet.Hes
