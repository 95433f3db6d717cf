import Islet.Rmm.Machine
import Islet.Rmm.Rmi.Params

/-! Measurements of a realm: the initial measurement that creation commands
extend, and the extensible ones. The hash functions are the platform's; what is
modelled is which bytes are hashed and where the digest goes. -/

namespace Islet.Rmm

open Lib

variable [Platform]

/-- `Hasher::hash_fields_into`: the digest replaces the first bytes of a slot. -/
def hashFieldsInto (algo : Nat) (out : Measurement) (data : List Byte) : Measurement :=
  if algo = hashAlgoSha256 then
    Vector.ofFn fun i => if h : i.val < 32 then (Platform.sha256 data).get ⟨i.val, h⟩ else out.get i
  else Platform.sha512 data

/-- `Hasher::output_size`. -/
def hashOutputSize (algo : Nat) : Nat := if algo = hashAlgoSha256 then 32 else 64

namespace HashContext

/-- `HashContext::new`. -/
def new (rd : Rd) : Except Error Unit :=
  if rd.hashAlgo = hashAlgoSha256 ∨ rd.hashAlgo = hashAlgoSha512 then .ok ()
  else .error (.rmiErrorOthers .measurementError)

/-- `rsi::measurement::extend`. -/
def extend (rd : Rd) (index : Nat) (f : Measurement → Measurement) : Except Error Rd :=
  if h : index < measurementsSlotNr then
    .ok { rd with measurements := rd.measurements.set index (f (rd.measurements.get ⟨index, h⟩)) }
  else .error (.rmiErrorOthers .invalidMeasurementIndex)

/-- `to_le_bytes` of a 64-bit number. -/
def u64Bytes (value : Nat) : List Byte := Page.wordBytes (BitVec.ofNat 64 value)

def zeros (len : Nat) : List Byte := List.replicate len 0

/-- The bytes with the given ranges (offset and length) replaced by zeros. -/
def blank (ranges : List (Nat × Nat)) (bytes : List Byte) : List Byte :=
  bytes.mapIdx fun i byte =>
    if ranges.any fun range => range.1 ≤ i && i < range.1 + range.2 then 0 else byte

def realmParamsBytes (params : RealmParams) : List Byte :=
  blank [(0x400, 64), (0x800, 2), (0x808, 8), (0x810, 8), (0x818, 4)] params.page.bytes

def recParamsBytes (params : RecParams) : List Byte :=
  blank [(0x100, 8), (0x800, 8), (0x808, 128)] params.page.bytes

/-- The header that each measurement descriptor starts with. -/
def descriptor (descType : Nat) (oldRim : Measurement) : List Byte :=
  BitVec.ofNat 8 descType :: zeros 7 ++ u64Bytes 0x100 ++ oldRim.toList

/-- Extend the initial measurement by a descriptor with the given body. -/
def extendRim (rd : Rd) (descType : Nat) (body : List Byte) : Except Error Rd := do
  new rd
  extend rd measurementsSlotRim fun current =>
    hashFieldsInto rd.hashAlgo current (descriptor descType current ++ body)

def measureRealmCreate (rd : Rd) (params : RealmParams) : Except Error Rd := do
  new rd
  extend rd measurementsSlotRim fun rim => hashFieldsInto rd.hashAlgo rim (realmParamsBytes params)

def extendMeasurement (rd : Rd) (buffer : List Byte) (index : Nat) : Except Error Rd := do
  new rd
  extend rd index fun current =>
    hashFieldsInto rd.hashAlgo current (current.toList.take (hashOutputSize rd.hashAlgo) ++ buffer)

/-- `RMI_MEASURE_CONTENT`. -/
abbrev rmiMeasureContent : Nat := 1

def measureDataGranule (rd : Rd) (data : Page) (ipa flags : Nat) : Except Error Rd :=
  let dataMeasurement :=
    if flags = rmiMeasureContent then hashFieldsInto rd.hashAlgo .empty data.bytes else .empty
  extendRim rd 0 (u64Bytes ipa ++ u64Bytes flags ++ dataMeasurement.toList ++ zeros (0x100 - 0xa0))

def measureRecParams (rd : Rd) (params : RecParams) : Except Error Rd :=
  let paramsMeasurement := hashFieldsInto rd.hashAlgo .empty (recParamsBytes params)
  extendRim rd 1 (paramsMeasurement.toList ++ zeros (0x100 - 0x90))

def measureRipasGranule (rd : Rd) (base top : Nat) : Except Error Rd :=
  extendRim rd 2 (u64Bytes base ++ u64Bytes top ++ zeros (0x100 - 0x60))

end HashContext

/-- The result of a pure fallible call. -/
def Rmi.ofExcept {α : Type} : Except Error α → RmmM α
  | .ok a => pure a
  | .error e => Rmi.err e

end Islet.Rmm
