import Islet.Hes.MeasuredBoot
import Islet.Lib.Bytes

/-! Keys and tokens of `islet-hes`: the keys that are derived from the hardware keys, the platform token, and the
whole state of the service. Ciphers, curves and encoders belong to libraries, of which only the sizes of some results
are known. A call that panics, or never returns, has no result. -/

namespace Islet.Hes

open Lib.Bytes

/-! ### Bytes -/

def asBytes (s : String) : List Byte := s.toUTF8.data.toList

/-- `collect()` into a vector of fixed size, which panics if there are too many bytes. -/
def ArrayVec.collect {capacity : Nat} (bytes : List Byte) : Option (ArrayVec capacity) :=
  if h : bytes.length ≤ capacity then some ⟨bytes, h⟩ else none

/-! ### What comes from libraries -/

/-- The CBOR values that are encoded. -/
inductive Value where
  | integer (n : Nat)
  | bytes (bytes : List Byte)
  | text (text : String)
  | array (values : List Value)
  | map (entries : List (Value × Value))

inductive Curve where
  | p256
  | p384
  deriving DecidableEq, Repr

namespace Curve

def order : Curve → Nat
  | p256 => 0xFFFFFFFF00000000FFFFFFFFFFFFFFFFBCE6FAADA7179E84F3B9CAC2FC632551
  | p384 => 0xFFFFFFFFFFFFFFFFFFFFFFFFFFFFFFFFFFFFFFFFFFFFFFFFC7634D81F4372DDF581A0DB248B0A77AECEC196ACCC52973

/-- The size of a scalar in bytes. -/
def size : Curve → Nat
  | p256 => 32
  | p384 => 48

end Curve

/-- The functions of other crates that the service calls. -/
class Libraries extends Sha where
  /-- AES-256 on one block -/
  encryptBlock : (key block : List Byte) → List Byte
  length_encryptBlock : ∀ key block, (encryptBlock key block).length = block.length
  /-- HKDF with SHA-256 and no salt -/
  hkdfExpand : (seed info : List Byte) → (size : Nat) → List Byte
  length_hkdfExpand : ∀ seed info size, (hkdfExpand seed info size).length = size
  /-- the SEC1 encoding of the public key -/
  publicKey : Curve → Nat → List Byte
  /-- ECDSA with the P-384 key, which can fail -/
  trySign : Nat → List Byte → Option (List Byte)
  intoWriter : Value → List Byte
  /-- what is signed for a payload -/
  tbsData : List Byte → List Byte
  toTaggedVec : (payload signature : List Byte) → List Byte
  /-- what the bytes between the fields of a structure happen to hold -/
  padding : Vector Byte 3

variable [Libraries]

open Libraries

/-! ### Key derivation -/

/-- The key must have 256 bits, and the label is followed by a zero byte. -/
def generateSeed (context inputKey label : List Byte) : Option (List Byte) := do
  let state := toLe 4 1 ++ label ++ [0] ++ context ++ toLe 4 32
  let stateHash := Sha.digest .sha256 state
  guard (inputKey.length = 32)
  return encryptBlock inputKey (stateHash.take 16) ++ encryptBlock inputKey (stateHash.drop 16)

/-- The scalar of a private key. The loop of the source expands the same bytes in every round, so that it only ends if
the first round is good. -/
def deriveKey (curve : Curve) (seed : List Byte) (info : Option (List Byte)) : Option Nat :=
  let k := ofBe (hkdfExpand seed (info.getD []) curve.size)
  if k ≤ curve.order - 2 then some (k + 1) else none

def deriveP256Key : List Byte → Option (List Byte) → Option Nat := deriveKey .p256
def deriveP384Key : List Byte → Option (List Byte) → Option Nat := deriveKey .p384

omit [Libraries] in
/-- `SecretKey::to_bytes`. -/
def Curve.toBytes (curve : Curve) (key : Nat) : List Byte := toBe curve.size key

omit [Libraries] in
/-- `SecretKey::from_slice`, for slices of the right size. -/
def Curve.fromSlice (curve : Curve) (bytes : List Byte) : Option Nat :=
  if bytes.length = curve.size ∧ 0 < ofBe bytes ∧ ofBe bytes < curve.order then some (ofBe bytes) else none

/-! ### The attestation manager -/

inductive ECCFamily where
  | secpR1
  deriving DecidableEq, Repr

inductive KeyBits where
  | bits256
  | bits384
  | bits521
  deriving DecidableEq, Repr

inductive HashAlgo where
  | sha256
  | sha384
  | sha512
  deriving DecidableEq, Repr

namespace HashAlgo

def len : HashAlgo → Nat
  | sha256 => 32
  | sha384 => 48
  | sha512 => 64

def name : HashAlgo → String
  | sha256 => "sha-256"
  | sha384 => "sha-384"
  | sha512 => "sha-512"

/-- The hash function. -/
def type : HashAlgo → MeasurementType
  | sha256 => .sha256
  | sha384 => .sha384
  | sha512 => .sha512

end HashAlgo

def MeasurementType.name : MeasurementType → String
  | sha256 => "sha-256"
  | sha384 => "sha-384"
  | sha512 => "sha-512"

inductive AttestationError where
  | invalidArgument
  | genericError
  | notSupported
  deriving DecidableEq, Repr

structure KeyMaterialData where
  hash : ArrayVec maxHashValueSize
  guk : ArrayVec 32

structure HWClaims where
  implementationId : Vector Byte 32
  securityLifecycle : Nat
  profileDefinition : Option String
  verificationServiceUrl : Option String
  platformConfig : ArrayVec 32

structure DAKInfo where
  hashAlgo : HashAlgo
  keyBits : KeyBits
  key : List Byte

structure CPAK where
  key : Nat
  instanceId : ArrayVec 33

structure AttestationMgr where
  cpak : CPAK
  derivationMaterial : KeyMaterialData
  claims : HWClaims
  dak : Option DAKInfo

def calculatePublicKeyHash (sec1PublicKey : List Byte) (hashAlgo : HashAlgo) : List Byte :=
  Sha.digest hashAlgo.type sec1PublicKey

omit [Libraries] in
def encodeMeasurement (measurement : Measurement) : Value :=
  .map [
    (.integer 1, .text measurement.metadata.swType),
    (.integer 6, .text measurement.metadata.algorithm.name),
    (.integer 2, .bytes measurement.value.bytes),
    (.integer 4, .text measurement.metadata.swVersion),
    (.integer 5, .bytes measurement.metadata.signerId.bytes)]

omit [Libraries] in
def encodeMeasurements (measurements : List Measurement) : Value := .array (measurements.map encodeMeasurement)

/-- A token and its signature. -/
structure CoseSign1 where
  payload : List Byte
  signature : List Byte

namespace AttestationMgr

def cpakSeedLabel : List Byte := asBytes "BL1_CPAK_SEED_DERIVATION"
def dakSeedLabel : List Byte := asBytes "BL1_DAK_SEED_DERIVATION"

def calculateDakHash (mgr : AttestationMgr) (hashAlgo : HashAlgo) : Option (List Byte) := do
  let info ← mgr.dak
  let sec1 ← match info.keyBits with
    | .bits256 => (Curve.p256.fromSlice info.key).map (publicKey .p256)
    | .bits384 => (Curve.p384.fromSlice info.key).map (publicKey .p384)
    | .bits521 => none
  return calculatePublicKeyHash sec1 hashAlgo

def generateInstanceId (cpak : Nat) : Option (ArrayVec 33) :=
  ArrayVec.collect (1 :: calculatePublicKeyHash (publicKey .p384 cpak) .sha256)

def init (keyDerivationMaterial : KeyMaterialData) (claims : HWClaims) : Option AttestationMgr := do
  let context := keyDerivationMaterial.hash.bytes ++ toLe 4 3 ++ toLe 4 0
  let seed ← generateSeed context keyDerivationMaterial.guk.bytes cpakSeedLabel
  let key ← deriveP384Key seed none
  let instanceId ← generateInstanceId key
  return { cpak := { key, instanceId }, derivationMaterial := keyDerivationMaterial, claims, dak := none }

omit [Libraries] in
def reset (mgr : AttestationMgr) : AttestationMgr := { mgr with dak := none }

omit [Libraries] in
/-- The key is returned and remembered. -/
def stored (mgr : AttestationMgr) (hashAlgo : HashAlgo) (keyBits : KeyBits) (key : List Byte) :
    Except AttestationError (List Byte) × AttestationMgr :=
  (.ok key, { mgr with dak := some { hashAlgo, keyBits, key } })

def getDelegatedKey (mgr : AttestationMgr) (_eccFamily : ECCFamily) (keyBits : KeyBits) (hashAlgo : HashAlgo)
    (measurements : List Measurement) : Option (Except AttestationError (List Byte) × AttestationMgr) := do
  let context := mgr.derivationMaterial.hash.bytes ++ toLe 4 mgr.claims.securityLifecycle ++ toLe 4 0
  let seed ← generateSeed context mgr.derivationMaterial.guk.bytes dakSeedLabel
  let salt := intoWriter (encodeMeasurements measurements)
  match keyBits with
  | .bits256 => (deriveP256Key seed (some salt)).map fun key => mgr.stored hashAlgo keyBits (Curve.p256.toBytes key)
  | .bits384 => (deriveP384Key seed (some salt)).map fun key => mgr.stored hashAlgo keyBits (Curve.p384.toBytes key)
  | .bits521 => some (.error .notSupported, mgr)

def encodeClaims (mgr : AttestationMgr) (dakHash : List Byte) (measurements : List Measurement) : Option Value := do
  let info ← mgr.dak
  return .map (
    [(.integer 10, .bytes dakHash), (.integer 256, .bytes mgr.cpak.instanceId.bytes)] ++
    (mgr.claims.profileDefinition.toList.map fun profile => (.integer 265, .text profile)) ++
    [(.integer 2395, .integer mgr.claims.securityLifecycle),
      (.integer 2396, .bytes mgr.claims.implementationId.toList),
      (.integer 2399, encodeMeasurements measurements)] ++
    (mgr.claims.verificationServiceUrl.toList.map fun url => (.integer 2400, .text url)) ++
    [(.integer 2401, .bytes mgr.claims.platformConfig.bytes), (.integer 2402, .text info.hashAlgo.name)])

def sign (mgr : AttestationMgr) (data : List Byte) : Except AttestationError (List Byte) :=
  match trySign mgr.cpak.key data with
  | some signature => .ok signature
  | none => .error .genericError

def verifyDakHash (mgr : AttestationMgr) (dakPubHash : List Byte) : Option Bool := do
  let info ← mgr.dak
  let calculatedHash ← mgr.calculateDakHash info.hashAlgo
  return dakPubHash = calculatedHash

def getPlatformToken (mgr : AttestationMgr) (dakPubHash : List Byte) (measurements : List Measurement) :
    Option (Except AttestationError CoseSign1) := do
  if mgr.dak.isNone then return .error .invalidArgument
  if !(← mgr.verifyDakHash dakPubHash) then return .error .invalidArgument
  let payload := intoWriter (← mgr.encodeClaims dakPubHash measurements)
  return (mgr.sign (tbsData payload)).map fun signature => { payload, signature }

end AttestationMgr

/-! ### The library as a whole -/

inductive IsletHESError where
  | genericError
  | invalidArgument
  | notPermitted
  | doesNotExist
  | badState
  | notSupported
  deriving DecidableEq, Repr

def IsletHESError.ofMeasurement : MeasurementError → IsletHESError
  | .badState => .badState
  | .doesNotExist => .doesNotExist
  | .invalidArgument => .invalidArgument
  | .invalidData _ => .invalidArgument
  | .notPermitted => .notPermitted

def IsletHESError.ofAttestation : AttestationError → IsletHESError
  | .invalidArgument => .invalidArgument
  | .genericError => .genericError
  | .notSupported => .notSupported

/-- What the hardware provides (`HWData`). -/
structure HWData where
  bootMeasurements : List BootMeasurement
  huk : ArrayVec 32
  guk : ArrayVec 32
  blHash : ArrayVec maxHashValueSize
  implementationId : Vector Byte 32
  securityLifecycle : Nat
  profileDefinition : Option (ArrayVec 32)
  verificationServiceUrl : Option (ArrayVec 32)
  platformConfig : ArrayVec 32

structure IsletHES where
  measuredBootMgr : MeasurementMgr
  attestationMgr : AttestationMgr
  lcs : Nat
  huk : List Byte

namespace IsletHES

/-- A text of the hardware, which need not be there. -/
def optionalText (bytes : Option (ArrayVec 32)) : Except IsletHESError (Option String) :=
  match bytes with
  | none => .ok none
  | some bytes =>
    match fromUtf8 bytes.bytes with
    | some text => .ok (some text)
    | none => .error .invalidArgument

def init (hwData : HWData) : Option (Except IsletHESError IsletHES) := do
  let measuredBootMgr ← MeasurementMgr.init hwData.bootMeasurements
  match optionalText hwData.profileDefinition, optionalText hwData.verificationServiceUrl with
  | .ok profileDefinition, .ok verificationServiceUrl => do
    let attestationMgr ← AttestationMgr.init ⟨hwData.blHash, hwData.guk⟩
      { implementationId := hwData.implementationId, securityLifecycle := hwData.securityLifecycle, profileDefinition,
        verificationServiceUrl, platformConfig := hwData.platformConfig }
    return .ok { measuredBootMgr, attestationMgr, lcs := hwData.securityLifecycle, huk := hwData.huk.bytes }
  | .error e, _ => return .error e
  | _, .error e => return .error e

def reset (hes : IsletHES) (hwData : HWData) : Option IsletHES := do
  let measuredBootMgr ← MeasurementMgr.init hwData.bootMeasurements
  return { hes with measuredBootMgr, attestationMgr := hes.attestationMgr.reset }

omit [Libraries] in
def readMeasurement (hes : IsletHES) (slotId : Nat) : Except IsletHESError (Measurement × Bool) :=
  (hes.measuredBootMgr.readMeasurement slotId).mapError .ofMeasurement

def extendMeasurement (hes : IsletHES) (slotId : Nat) (measurement : Measurement) (lock : Bool) :
    Option (Except IsletHESError Unit × IsletHES) := do
  let (outcome, measuredBootMgr) ← hes.measuredBootMgr.extendMeasurement slotId measurement lock
  return (outcome.mapError .ofMeasurement, { hes with measuredBootMgr })

omit [Libraries] in
/-- The measurements of all slots in use. -/
def fetchCurrentMeasurements (hes : IsletHES) : Except IsletHESError (List Measurement) :=
  (List.range numOfMeasurementSlots).foldlM (fun measurements i =>
    match hes.measuredBootMgr.readMeasurement i with
    | .ok (measurement, _) => .ok (measurements ++ [measurement])
    | .error .doesNotExist => .ok measurements
    | .error e => .error (.ofMeasurement e)) []

def getDelegatedKey (hes : IsletHES) (eccFamily : ECCFamily) (keyBits : KeyBits) (hashAlgo : HashAlgo) :
    Option (Except IsletHESError (List Byte) × IsletHES) :=
  match hes.fetchCurrentMeasurements with
  | .error e => some (.error e, hes)
  | .ok measurements => do
    let (outcome, attestationMgr) ← hes.attestationMgr.getDelegatedKey eccFamily keyBits hashAlgo measurements
    return (outcome.mapError .ofAttestation, { hes with attestationMgr })

def getPlatformToken (hes : IsletHES) (dakPubHash : List Byte) : Option (Except IsletHESError CoseSign1) :=
  match hes.fetchCurrentMeasurements with
  | .error e => some (.error e)
  | .ok measurements => do
    let outcome ← hes.attestationMgr.getPlatformToken dakPubHash measurements
    return outcome.mapError .ofAttestation

def getAuthorityVhuk (hes : IsletHES) : Option (Except IsletHESError (List Byte)) :=
  match hes.fetchCurrentMeasurements with
  | .error e => some (.error e)
  | .ok measurements => do
    let authorityInfo := measurements.flatMap fun m => m.metadata.signerId.bytes ++ asBytes m.metadata.swType
    let key ← generateSeed (authorityInfo ++ toLe 4 hes.lcs) hes.huk (asBytes "VHUK_A")
    return .ok key

def getMeasurementVhuk (hes : IsletHES) : Option (Except IsletHESError (List Byte)) :=
  match hes.fetchCurrentMeasurements with
  | .error e => some (.error e)
  | .ok measurements => do
    let context := intoWriter (encodeMeasurements measurements) ++ toLe 4 hes.lcs
    let key ← generateSeed context hes.huk (asBytes "VHUK_M")
    return .ok key

end IsletHES

end Islet.Hes
