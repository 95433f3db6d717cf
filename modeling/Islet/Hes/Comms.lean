import Islet.Hes.Attestation

/-! The host application (`islet-hes-host-app`): requests of PSA clients are turned into calls of the library, and the
results into replies. The connection itself is left out; what is sent is the result. Every `unwrap`, conversion of a
fixed size and explicit `panic!` of the source is a call without a result here. -/

namespace Islet.Hes

open Lib.Bytes Libraries

abbrev psaMaxIovec : Nat := 4
def platRssCommsPayloadMaxSize : Nat := 0x1000
def psaSuccess : Int := 0

/-! ### Messages -/

structure PSARequest where
  protocolVer : UInt8
  seqNum : UInt8
  clientId : UInt16
  handle : Int32
  psaType : Int16
  inVecs : Vector (List Byte) psaMaxIovec
  outLens : Vector Nat psaMaxIovec

structure PSAResponse where
  protocolVer : UInt8
  seqNum : UInt8
  clientId : UInt16
  returnVal : Int
  outVecs : Vector (List Byte) psaMaxIovec

inductive PSAError where
  | wrongDataLength
  deriving DecidableEq, Repr

namespace PSAResponse

/-- The sizes and the bytes of the vectors from `offset` on, up to the first empty one. The length has to fit 16 bits,
or the conversion panics. -/
def packVecs : List (List Byte) → Nat → Option (Except PSAError (List Nat × List Byte))
  | [], _ => some (.ok ([], []))
  | outVec :: rest, offset =>
    let len := outVec.length
    if len = 0 then some (.ok ([], []))
    else if 2 ^ 16 ≤ len then none
    else if platRssCommsPayloadMaxSize ≤ offset + len then some (.error .wrongDataLength)
    else (packVecs rest (offset + len)).map fun packed =>
      packed.map fun (outSize, trailer) => (len :: outSize, outVec ++ trailer)

/-- The reply as it is sent: the header, the return value, the sizes and what is used of the trailer. -/
def encode (response : PSAResponse) (outSize : List Nat) (trailer : List Byte) : List Byte :=
  [response.protocolVer, response.seqNum] ++ toLe 2 response.clientId.toNat ++
    toLe 4 (response.returnVal % 2 ^ 32).toNat ++
    ((List.range psaMaxIovec).flatMap fun i => toLe 2 (outSize.getD i 0)) ++ trailer

def ser (response : PSAResponse) : Option (Except PSAError (List Byte)) :=
  (packVecs response.outVecs.toList 0).map fun packed =>
    packed.map fun (outSize, trailer) => response.encode outSize trailer

end PSAResponse

structure ExtendRequest where
  index : UInt8
  lockMeasurement : UInt8
  measurementAlgo : Nat
  swType : List Byte
  swTypeSize : UInt8

/-- The fields of `measured_boot_extend_iovec_t`, which is 32 bytes long: two bytes of padding before the algorithm,
three at the end. -/
def ExtendRequest.de (input : List Byte) : Except PSAError ExtendRequest :=
  if input.length ≠ 32 then .error .wrongDataLength
  else .ok {
    index := input.getD 0 0
    lockMeasurement := input.getD 1 0
    measurementAlgo := ofLe ((input.drop 4).take 4)
    swType := (input.drop 8).take swTypeMaxSize
    swTypeSize := input.getD 28 0 }

structure ReadRequest where
  index : UInt8
  swTypeSize : UInt8
  versionSize : UInt8

def ReadRequest.de (input : List Byte) : Except PSAError ReadRequest :=
  if input.length ≠ 3 then .error .wrongDataLength
  else .ok { index := input.getD 0 0, swTypeSize := input.getD 1 0, versionSize := input.getD 2 0 }

structure ReadResponse where
  isLocked : UInt8
  measurementAlgo : Nat
  swType : Vector Byte swTypeMaxSize
  swTypeLen : UInt8
  version : Vector Byte versionMaxSize
  versionLen : UInt8

/-- The 44 bytes of `measured_boot_read_iovec_out_t`. -/
def ReadResponse.ser [Libraries] (response : ReadResponse) : List Byte :=
  [response.isLocked] ++ padding.toList ++ toLe 4 response.measurementAlgo ++ response.swType.toList ++
    [response.swTypeLen] ++ response.version.toList ++ [response.versionLen]

/-! ### Requests -/

inductive CommsError where
  | bufferTooSmall
  | invalidArgument
  | genericError
  | programmerError
  | psaSerdeError
  | communicationError
  | serviceHandleError
  deriving DecidableEq, Repr

inductive VHukId where
  | vhukA
  | vhukM
  deriving DecidableEq, Repr

inductive Request where
  | getDAK (eccFamily : ECCFamily) (keyBits : KeyBits) (hashAlgo : HashAlgo)
  | getPlatformToken (dakPubHash : ValueHash)
  | readMeasurement (index swTypeLen swVersionLen : Nat)
  | extendMeasurement (slotId : Nat) (measurement : Measurement) (lock : Bool)
  | getVHuk (keyId : VHukId)

inductive Response where
  | getDAK (dak : List Byte)
  | getPlatformToken (token : List Byte)
  | readMeasurement (measurement : Measurement) (isLocked : Bool)
  | getVHuk (key : List Byte)

structure MsgMetadata where
  protocolVer : UInt8
  seqNum : UInt8
  clientId : UInt16
  responseParams : Vector Nat psaMaxIovec

/-- What the application keeps between a request and its reply. -/
structure CommsChannel where
  msgMetadata : Option MsgMetadata := none

def rssDelegatedServiceHandle : Int32 := 0x40000111
def rssVhukServiceHandle : Int32 := 0x40000112
def rssMeasuredBootServiceHandle : Int32 := 0x40000110
def rssDelegatedAttestGetDelegatedKey : Int16 := 1001
def rssDelegatedAttestGetPlatformToken : Int16 := 1002
def rssVhukGetKey : Int16 := 1006
def rssMeasuredBootRead : Int16 := 1001
def rssMeasuredBootExtend : Int16 := 1002

section Convert

variable (requestType : Int16) (inVecs : Vector (List Byte) psaMaxIovec)

/-- The parameters of GET_DELEGATED_KEY are only checked for their sizes. -/
def convertAttestationRequest : Option (Except CommsError Request) :=
  if requestType = rssDelegatedAttestGetDelegatedKey then
    if inVecs[0].length ≠ 1 ∨ inVecs[1].length ≠ 4 ∨ inVecs[2].length ≠ 4 then some (.error .genericError)
    else some (.ok (.getDAK .secpR1 .bits384 .sha256))
  else if requestType = rssDelegatedAttestGetPlatformToken then
    let size := inVecs[0].length
    if size ≠ HashAlgo.sha256.len ∧ size ≠ HashAlgo.sha384.len ∧ size ≠ HashAlgo.sha512.len then
      some (.error .invalidArgument)
    else (ArrayVec.collect inVecs[0]).map fun dakPubHash => .ok (.getPlatformToken dakPubHash)
  else some (.error .programmerError)

def convertVhukRequest : Except CommsError Request :=
  if requestType = rssVhukGetKey then
    match inVecs[0] with
    | [rawKeyId] =>
      if rawKeyId = 1 then .ok (.getVHuk .vhukA)
      else if rawKeyId = 2 then .ok (.getVHuk .vhukM)
      else .error .invalidArgument
    | _ => .error .genericError
  else .error .programmerError

/-- The codes of the hash algorithms. -/
def measurementTypeOf (measurementAlgo : Nat) : Option MeasurementType :=
  if measurementAlgo = 0x02000009 then some .sha256
  else if measurementAlgo = 0x0200000a then some .sha384
  else if measurementAlgo = 0x0200000b then some .sha512
  else none

/-- The measurement in a request to extend a slot; texts that are not UTF-8 and values that are too long panic. -/
def measurementOf (extendRequest : ExtendRequest) (algorithm : MeasurementType) : Option Measurement := do
  let swType ← fromUtf8 (extendRequest.swType.take extendRequest.swTypeSize.toNat)
  let signerId ← ArrayVec.collect inVecs[1]
  let swVersion ← fromUtf8 inVecs[2]
  let value ← ArrayVec.collect inVecs[3]
  return { metadata := { algorithm, signerId, swVersion, swType }, value }

def convertMeasuredBootRequest : Option (Except CommsError Request) :=
  if requestType = rssMeasuredBootRead then
    match ReadRequest.de inVecs[0] with
    | .error _ => some (.error .psaSerdeError)
    | .ok readRequest =>
      let slotId := readRequest.index.toNat
      if numOfMeasurementSlots ≤ slotId then some (.error .invalidArgument)
      else some (.ok (.readMeasurement slotId readRequest.swTypeSize.toNat readRequest.versionSize.toNat))
  else if requestType = rssMeasuredBootExtend then
    match ExtendRequest.de inVecs[0] with
    | .error _ => some (.error .psaSerdeError)
    | .ok extendRequest =>
      match measurementTypeOf extendRequest.measurementAlgo with
      | none => some (.error .invalidArgument)
      | some algorithm =>
        if swTypeMaxSize < extendRequest.swTypeSize.toNat then some (.error .invalidArgument)
        else (measurementOf inVecs extendRequest algorithm).map fun measurement =>
          .ok (.extendMeasurement extendRequest.index.toNat measurement (extendRequest.lockMeasurement ≠ 0))
  else some (.error .programmerError)

end Convert

namespace CommsChannel

/-- The request, and the channel that remembers where the reply has to go. -/
def convertRequest (_comms : CommsChannel) (psaRequest : PSARequest) :
    Option (Except CommsError Request × CommsChannel) :=
  let comms : CommsChannel := {
    msgMetadata := some {
      protocolVer := psaRequest.protocolVer
      seqNum := psaRequest.seqNum
      clientId := psaRequest.clientId
      responseParams := psaRequest.outLens } }
  let request :=
    if psaRequest.handle = rssDelegatedServiceHandle then
      convertAttestationRequest psaRequest.psaType psaRequest.inVecs
    else if psaRequest.handle = rssMeasuredBootServiceHandle then
      convertMeasuredBootRequest psaRequest.psaType psaRequest.inVecs
    else if psaRequest.handle = rssVhukServiceHandle then
      some (convertVhukRequest psaRequest.psaType psaRequest.inVecs)
    else some (.error .serviceHandleError)
  request.map fun request => (request, comms)

end CommsChannel

/-! ### Replies -/

/-- A slice as an array of fixed size. -/
def tryInto (size : Nat) (bytes : List Byte) : Option (Vector Byte size) :=
  if h : bytes.length = size then some ⟨bytes.toArray, by simpa using h⟩ else none

def measurementAlgoOf : MeasurementType → Nat
  | .sha256 => 0x02000009
  | .sha384 => 0x0200000a
  | .sha512 => 0x0200000b

section Replies

variable [Libraries]

/-- The description of a measurement. The texts have to fill the fields of the reply. -/
def readResponse (measurement : Measurement) (isLocked : Bool) : Option ReadResponse := do
  let swType ← tryInto swTypeMaxSize (asBytes measurement.metadata.swType)
  let version ← tryInto versionMaxSize (asBytes measurement.metadata.swVersion)
  return {
    isLocked := if isLocked then 1 else 0
    measurementAlgo := measurementAlgoOf measurement.metadata.algorithm
    swType
    swTypeLen := UInt8.ofNat (asBytes measurement.metadata.swType).length
    version
    versionLen := UInt8.ofNat (asBytes measurement.metadata.swVersion).length }

/-- The vectors of a successful reply, if the buffers of the client are large enough for them. -/
def outVecs (params : Vector Nat psaMaxIovec) :
    Option Response → Option (Except CommsError (Vector (List Byte) psaMaxIovec))
  | some (.getDAK dak) =>
    if params[0] < dak.length then some (.error .bufferTooSmall) else some (.ok #v[dak, [], [], []])
  | some (.getPlatformToken token) =>
    if params[0] < token.length then some (.error .bufferTooSmall) else some (.ok #v[token, [], [], []])
  | some (.readMeasurement measurement isLocked) =>
    if params[1] < measurement.metadata.signerId.len ∨ params[2] < measurement.value.len then
      some (.error .bufferTooSmall)
    else (readResponse measurement isLocked).map fun response =>
      .ok #v[response.ser, measurement.metadata.signerId.bytes, measurement.value.bytes, []]
  | some (.getVHuk key) =>
    if params[0] < key.length then some (.error .bufferTooSmall) else some (.ok #v[key, [], [], []])
  | none => if params[0] ≠ 0 then some (.error .programmerError) else some (.ok #v[[], [], [], []])

namespace CommsChannel

def convertResponse (comms : CommsChannel) (returnVal : Int) (response : Option Response) :
    Option (Except CommsError PSAResponse × CommsChannel) := do
  let msgMetadata ← comms.msgMetadata
  let vecs ← if returnVal = 0 then outVecs msgMetadata.responseParams response else some (.ok #v[[], [], [], []])
  return (vecs.map fun outVecs => {
    outVecs
    clientId := msgMetadata.clientId
    protocolVer := msgMetadata.protocolVer
    returnVal
    seqNum := msgMetadata.seqNum }, { msgMetadata := none })

/-- The bytes that are sent. -/
def sendResponse (comms : CommsChannel) (retVal : Int) (response : Option Response) :
    Option (Except CommsError (List Byte) × CommsChannel) := do
  match ← comms.convertResponse retVal response with
  | (.error e, comms) => return (.error e, comms)
  | (.ok psaResponse, comms) => return ((← psaResponse.ser).mapError fun _ => .psaSerdeError, comms)

end CommsChannel

/-! ### Serving requests -/

omit [Libraries] in
def isletHesErrorToRetVal : IsletHESError → Int
  | .badState => -137
  | .doesNotExist => -140
  | .genericError => -132
  | .invalidArgument => -135
  | .notPermitted => -133
  | .notSupported => -134

omit [Libraries] in
/-- Internal errors have no code. -/
def commsErrorToRetVal : CommsError → Option Int
  | .bufferTooSmall => some (-138)
  | .genericError => some (-132)
  | .invalidArgument => some (-135)
  | .programmerError => some (-129)
  | .communicationError => none
  | .psaSerdeError => none
  | .serviceHandleError => none

omit [Libraries] in
/-- The return value and the response for the outcome of a call. -/
def result {α : Type} (response : α → Option Response) : Except IsletHESError α → Int × Option Response
  | .ok value => (psaSuccess, response value)
  | .error e => (isletHesErrorToRetVal e, none)

/-- The call that a request stands for. -/
def Request.execute (hes : IsletHES) : Request → Option ((Int × Option Response) × IsletHES)
  | getDAK eccFamily keyBits hashAlgo => do
    let (outcome, hes) ← hes.getDelegatedKey eccFamily keyBits hashAlgo
    return (result (fun dak => some (.getDAK dak)) outcome, hes)
  | getPlatformToken dakPubHash => do
    let outcome ← hes.getPlatformToken dakPubHash.bytes
    return (result (fun token => some (.getPlatformToken (toTaggedVec token.payload token.signature))) outcome, hes)
  | extendMeasurement slotId measurement lock => do
    let (outcome, hes) ← hes.extendMeasurement slotId measurement lock
    return (result (fun _ => none) outcome, hes)
  | readMeasurement index swTypeLen versionLen =>
    match hes.readMeasurement index with
    | .ok (measurement, isLocked) =>
      if swTypeLen < (asBytes measurement.metadata.swType).length ∨
          versionLen < (asBytes measurement.metadata.swVersion).length then
        some ((isletHesErrorToRetVal .invalidArgument, none), hes)
      else some ((psaSuccess, some (.readMeasurement measurement isLocked)), hes)
    | .error e => some ((isletHesErrorToRetVal e, none), hes)
  | getVHuk .vhukA => do return (result (fun key => some (.getVHuk key)) (← hes.getAuthorityVhuk), hes)
  | getVHuk .vhukM => do return (result (fun key => some (.getVHuk key)) (← hes.getMeasurementVhuk), hes)

/-- The application as a whole. -/
structure Service where
  comms : CommsChannel := {}
  hes : IsletHES

namespace Service

/-- What becomes of a request. -/
inductive Outcome where
  | replied (bytes : List Byte)
  | ignored
  | failed (error : CommsError)
  deriving DecidableEq

/-- Only an error of the connection is passed on. -/
def reply (hes : IsletHES) (comms : CommsChannel) (retVal : Int) (response : Option Response) :
    Option (Outcome × Service) := do
  match ← comms.sendResponse retVal response with
  | (.ok bytes, comms) => return (.replied bytes, { comms, hes })
  | (.error .communicationError, comms) => return (.failed .communicationError, { comms, hes })
  | (.error _, _) => none

/-- One round of the loop in `process_requests`, for a request that has been decoded. -/
def processRequest (service : Service) (psaRequest : PSARequest) : Option (Outcome × Service) := do
  let (converted, comms) ← service.comms.convertRequest psaRequest
  match converted with
  | .ok request => do
    let ((retVal, response), hes) ← request.execute service.hes
    reply hes comms retVal response
  | .error .communicationError => return (.failed .communicationError, { service with comms })
  | .error .serviceHandleError => return (.ignored, { service with comms })
  | .error .psaSerdeError => none
  | .error .programmerError => none
  | .error e => do reply service.hes comms (← commsErrorToRetVal e) none

end Service

end Replies

/-! ### What the application can deal with -/

section Supports

variable [Libraries]

/-- A request to extend a slot is accepted. -/
def MeasurementMgr.Takes (mgr : MeasurementMgr) (slotId : Nat) (signerId : List Byte) (algorithm : MeasurementType) : Prop :=
  ∃ i : Fin numOfMeasurementSlots, i.val = slotId ∧ (mgr.slot i).isLocked = false ∧
    ((mgr.slot i).isPopulated = true → signerId = (mgr.slot i).measurement.metadata.signerId.bytes ∧
      algorithm = (mgr.slot i).measurement.metadata.algorithm)

/-- The derivation of the DAK from the measurements comes to an end. -/
def IsletHES.DerivesDak (hes : IsletHES) : Prop :=
  ∃ measurements seed, hes.fetchCurrentMeasurements = .ok measurements ∧
    generateSeed (hes.attestationMgr.derivationMaterial.hash.bytes ++ toLe 4 hes.attestationMgr.claims.securityLifecycle ++
      toLe 4 0) hes.attestationMgr.derivationMaterial.guk.bytes AttestationMgr.dakSeedLabel = some seed ∧
    ofBe (hkdfExpand seed (intoWriter (encodeMeasurements measurements)) 48) ≤ Curve.p384.order - 2

/-- The bytes of the reply with this return value and these vectors. -/
def PSARequest.replyWith (r : PSARequest) (returnVal : Int) (data : List (List Byte)) : List Byte :=
  PSAResponse.encode
    { protocolVer := r.protocolVer, seqNum := r.seqNum, clientId := r.clientId, returnVal, outVecs := #v[[], [], [], []] }
    (data.map List.length) data.flatten

omit [Libraries] in
/-- The client has room for the response, and the reply can be written. -/
def Response.Fits (params : Vector Nat psaMaxIovec) : Option Response → Prop
  | some (.getDAK dak) => dak.length ≤ params[0] ∧ dak.length < platRssCommsPayloadMaxSize
  | some (.getPlatformToken token) => token.length ≤ params[0] ∧ token.length < platRssCommsPayloadMaxSize
  | some (.readMeasurement measurement _) =>
    (asBytes measurement.metadata.swType).length = swTypeMaxSize ∧
      (asBytes measurement.metadata.swVersion).length = versionMaxSize ∧
      measurement.metadata.signerId.len ≤ params[1] ∧ measurement.value.len ≤ params[2] ∧
      measurement.metadata.signerId.len ≠ 0
  | some (.getVHuk key) => key.length ≤ params[0] ∧ key.length < platRssCommsPayloadMaxSize
  | none => params[0] = 0

namespace Service

/-- The vectors of a reply. -/
def vecsOf (r : PSARequest) (retVal : Int) (response : Option Response) :
    Option (Except CommsError (Vector (List Byte) psaMaxIovec)) :=
  if retVal = 0 then outVecs r.outLens response else some (.ok #v[[], [], [], []])

/-- There is room for the measurement of a slot, if the texts are not too long for the client. -/
def FitsSlot (hes : IsletHES) (params : Vector Nat psaMaxIovec) (index swTypeLen versionLen : Nat) : Prop :=
  ∀ i : Fin numOfMeasurementSlots, i.val = index → (hes.measuredBootMgr.slot i).isPopulated = true →
    (asBytes (hes.measuredBootMgr.slot i).measurement.metadata.swType).length ≤ swTypeLen →
    (asBytes (hes.measuredBootMgr.slot i).measurement.metadata.swVersion).length ≤ versionLen →
    Response.Fits params
      (some (.readMeasurement (hes.measuredBootMgr.slot i).measurement (hes.measuredBootMgr.slot i).isLocked))

/-- A request for a key has to find the derivation finite and the buffer large enough; a token has to fit the buffer and
the reply. Other requests are not known. -/
def SupportsAttestation (service : Service) (r : PSARequest) : Prop :=
  if r.psaType = rssDelegatedAttestGetDelegatedKey then
    r.inVecs[0].length = 1 ∧ r.inVecs[1].length = 4 ∧ r.inVecs[2].length = 4 →
      service.hes.DerivesDak ∧ 48 ≤ r.outLens[0]
  else if r.psaType = rssDelegatedAttestGetPlatformToken then
    (r.inVecs[0].length = 32 ∨ r.inVecs[0].length = 48 ∨ r.inVecs[0].length = 64) →
      ∀ {token}, service.hes.getPlatformToken r.inVecs[0] = some (.ok token) →
        (toTaggedVec token.payload token.signature).length ≤ r.outLens[0] ∧
          (toTaggedVec token.payload token.signature).length < platRssCommsPayloadMaxSize
  else False

/-- Texts have to be texts, values have to fit, and a client whose measurement is accepted has to expect nothing. -/
structure ExtendsCleanly (service : Service) (r : PSARequest) (extendRequest : ExtendRequest)
    (algorithm : MeasurementType) : Prop where
  swType : (fromUtf8 (extendRequest.swType.take extendRequest.swTypeSize.toNat)).isSome
  signerId : r.inVecs[1].length ≤ signerIdMaxSize
  swVersion : (fromUtf8 r.inVecs[2]).isSome
  value : r.inVecs[3].length ≤ maxHashValueSize
  quiet : service.hes.measuredBootMgr.Takes extendRequest.index.toNat r.inVecs[1] algorithm → r.outLens[0] = 0

def SupportsMeasuredBoot (service : Service) (r : PSARequest) : Prop :=
  if r.psaType = rssMeasuredBootRead then
    ∃ readRequest, ReadRequest.de r.inVecs[0] = .ok readRequest ∧
      FitsSlot service.hes r.outLens readRequest.index.toNat readRequest.swTypeSize.toNat readRequest.versionSize.toNat
  else if r.psaType = rssMeasuredBootExtend then
    ∃ extendRequest, ExtendRequest.de r.inVecs[0] = .ok extendRequest ∧
      ∀ {algorithm}, measurementTypeOf extendRequest.measurementAlgo = some algorithm →
        extendRequest.swTypeSize.toNat ≤ swTypeMaxSize → service.ExtendsCleanly r extendRequest algorithm
  else False

omit [Libraries] in
def SupportsVhuk (r : PSARequest) : Prop :=
  r.psaType = rssVhukGetKey ∧ (r.inVecs[0] = [1] ∨ r.inVecs[0] = [2] → 32 ≤ r.outLens[0])

/-- The application can deal with the request. -/
def Supports (service : Service) (r : PSARequest) : Prop :=
  if r.handle = rssDelegatedServiceHandle then service.SupportsAttestation r
  else if r.handle = rssMeasuredBootServiceHandle then service.SupportsMeasuredBoot r
  else if r.handle = rssVhukServiceHandle then SupportsVhuk r
  else True

end Service

end Supports

/-! ### The emulated hardware -/

/-- `DummyHW`; the two values that can be given on the command line are parameters. -/
def dummyHW (guk : Option (ArrayVec 32)) (blHash : Option (ArrayVec maxHashValueSize)) : HWData where
  bootMeasurements := [
    { measurementType := 0
      signerId := ⟨[0xc6, 0xc3, 0x2a, 0x95, 0x7d, 0xf4, 0xc6, 0x69, 0x8c, 0x55, 0x0b, 0x69, 0x5d, 0x02, 0x2e, 0xd5,
        0x18, 0x0c, 0xae, 0x71, 0xf8, 0xb4, 0x9c, 0xbb, 0x75, 0xe6, 0x06, 0x1c, 0x2e, 0xf4, 0x97, 0xe1], by decide⟩
      swType := ⟨[0x42, 0x4c, 0x31], by decide⟩
      swVersion := ⟨[0x30, 0x2e, 0x31, 0x2e, 0x30], by decide⟩
      measurementValue := ⟨[0x61, 0x97, 0x3b, 0x4f, 0x62, 0x0c, 0x2a, 0xe6, 0xc7, 0x63, 0x51, 0x18, 0xa0, 0xb4, 0x37,
        0x6d, 0x15, 0x34, 0x4c, 0x1c, 0x53, 0xa2, 0x17, 0x89, 0xb1, 0xaa, 0x95, 0xd2, 0x0f, 0x3c, 0x45, 0x06],
        by decide⟩ },
    { measurementType := 2
      signerId := ⟨[0xa0, 0x64, 0xb1, 0xad, 0x60, 0xfa, 0x18, 0x33, 0x94, 0xdd, 0xa5, 0x78, 0x91, 0x35, 0x7f, 0x97,
        0x2e, 0x4f, 0xe7, 0x22, 0x78, 0x2a, 0xdf, 0xf1, 0x85, 0x4c, 0x8b, 0x2a, 0x14, 0x2c, 0x04, 0x10], by decide⟩
      swType := ⟨[0x42, 0x4c, 0x32], by decide⟩
      swVersion := ⟨[0x31, 0x2e, 0x39, 0x2e, 0x30, 0x2b, 0x30], by decide⟩
      measurementValue := ⟨[0x8a, 0x66, 0x01, 0xf6, 0x70, 0x74, 0x8b, 0xe2, 0x33, 0xff, 0x5d, 0x75, 0xd7, 0xea, 0x89,
        0xa8, 0xbb, 0xbb, 0xbb, 0xbb, 0xbb, 0xbb, 0xbb, 0xbb, 0x01, 0x05, 0x01, 0xef, 0x68, 0x07, 0x88, 0xcc, 0x83,
        0x09, 0x22, 0xcd, 0x09, 0x61, 0xb6, 0xff, 0xbb, 0xbb, 0xbb, 0xbb, 0xbb, 0xbb, 0xbb, 0xbb, 0x56, 0x46, 0x58,
        0x49, 0x99, 0x31, 0xcf, 0x59, 0x7d, 0xbc, 0x3a, 0x4e, 0x68, 0x79, 0x8a, 0x1c], by decide⟩ }]
  huk := ⟨[0x00, 0x01, 0x02, 0x03, 0x04, 0x05, 0x06, 0x07, 0x08, 0x09, 0x0a, 0x0b, 0x0c, 0x0d, 0x0e, 0x0f,
    0x00, 0x01, 0x02, 0x03, 0x04, 0x05, 0x06, 0x07, 0x08, 0x09, 0x0a, 0x0b, 0x0c, 0x0d, 0x0e, 0x0f], by decide⟩
  guk := guk.getD ⟨[0x01, 0x23, 0x45, 0x67, 0x89, 0x01, 0x23, 0x45, 0x67, 0x89, 0x01, 0x23, 0x45, 0x67, 0x89, 0x01,
    0x23, 0x45, 0x67, 0x89, 0x01, 0x23, 0x45, 0x67, 0x89, 0x01, 0x23, 0x45, 0x67, 0x89, 0x01, 0x23], by decide⟩
  blHash := blHash.getD ⟨[0xf1, 0x5f, 0x95, 0x3b, 0xe5, 0x0d, 0xad, 0x92, 0xc3, 0xb2, 0xaa, 0x32, 0x97, 0xe6, 0xa4,
    0xa8, 0xd6, 0x6d, 0x33, 0x63, 0x84, 0x49, 0xec, 0x19, 0x22, 0xb4, 0xa7, 0x92, 0x4a, 0x7b, 0x30, 0x22], by decide⟩
  implementationId := #v[0xaa, 0xaa, 0xaa, 0xaa, 0xaa, 0xaa, 0xaa, 0xaa, 0xbb, 0xbb, 0xbb, 0xbb, 0xbb, 0xbb, 0xbb, 0xbb,
    0xcc, 0xcc, 0xcc, 0xcc, 0xcc, 0xcc, 0xcc, 0xcc, 0xdd, 0xdd, 0xdd, 0xdd, 0xdd, 0xdd, 0xdd, 0xdd]
  securityLifecycle := 0x3000
  profileDefinition := some ⟨[0x68, 0x74, 0x74, 0x70, 0x3a, 0x2f, 0x2f, 0x61, 0x72, 0x6d, 0x2e, 0x63, 0x6f, 0x6d, 0x2f,
    0x43, 0x43, 0x41, 0x2d, 0x53, 0x53, 0x44, 0x2f, 0x31, 0x2e, 0x30, 0x2e, 0x30], by decide⟩
  verificationServiceUrl := some ⟨[0x68, 0x74, 0x74, 0x70, 0x3a, 0x2f, 0x2f, 0x77, 0x68, 0x61, 0x74, 0x65, 0x76, 0x65,
    0x72, 0x2e, 0x63, 0x6f, 0x6d], by decide⟩
  platformConfig := ⟨[0xef, 0xbe, 0xad, 0xde], by decide⟩

end Islet.Hes
