import Islet.Hes.Comms
import Islet.Hes.Slots

/-! Which requests the HES service answers. Between two requests the state of the library is sound, and no call of it
panics. The host application does: where a buffer is too small, where a text does not fill the field of a reply, and
on malformed requests. -/

namespace Islet.Hes

open Lib.Bytes Libraries

variable [Libraries]

/-! ### Keys -/

section Keys

variable {context key label seed : List Byte} {info : Option (List Byte)} {curve : Curve} {k : Nat}

theorem generateSeed_of_size (context label : List Byte) (size : key.length = 32) :
    ∃ seed, generateSeed context key label = some seed ∧ seed.length = 32 := by
  refine ⟨_, by rw [generateSeed, guard, if_pos size]; rfl, ?_⟩
  simp [length_encryptBlock, Sha.length_digest, MeasurementType.hashLen]

theorem size_of_generateSeed (made : generateSeed context key label = some seed) : key.length = 32 := by
  by_contra wrong
  simp [generateSeed, guard, wrong] at made

theorem deriveP384Key_some (seed info : List Byte) : deriveP384Key seed (some info) =
    if ofBe (hkdfExpand seed info 48) ≤ Curve.p384.order - 2 then some (ofBe (hkdfExpand seed info 48) + 1)
    else none := rfl

omit [Libraries] in
theorem length_toBytes (curve : Curve) (k : Nat) : (curve.toBytes k).length = curve.size := length_toBe _ _

/-- A derived key is read back from its bytes. -/
theorem fromSlice_deriveKey (made : deriveKey curve seed info = some k) :
    curve.fromSlice (curve.toBytes k) = some k := by
  have bounds : 0 < k ∧ k < curve.order := by
    unfold deriveKey at made
    dsimp only at made
    split at made
    · cases made
      have : 2 ≤ curve.order := by cases curve <;> decide
      omega
    · exact nomatch made
  have small : k < 256 ^ curve.size := Nat.lt_trans bounds.2 (by cases curve <;> decide)
  have value : ofBe (curve.toBytes k) = k := ofBe_toBe small
  rw [Curve.fromSlice, value, if_pos ⟨length_toBytes _ _, bounds⟩]

end Keys

/-! ### The library -/

/-- The slots hold what they accepted. -/
def MeasurementMgr.Sound (mgr : MeasurementMgr) : Prop := ∃ accepted, Session.Sound ⟨mgr, accepted⟩

namespace MeasurementMgr

variable {mgr mgr' : MeasurementMgr} {slotId : Nat} {measurement : Measurement} {lock : Bool}
  {outcome : Except MeasurementError Unit}

theorem Sound.extend (sound : mgr.Sound) (slotId : Nat) (measurement : Measurement) (lock : Bool) :
    ∃ outcome mgr', mgr.extendMeasurement slotId measurement lock = some (outcome, mgr') ∧ mgr'.Sound := by
  obtain ⟨accepted, sound⟩ := sound
  obtain ⟨w', stepped, sound', _⟩ := sound.step (.extendMeasurement slotId measurement lock)
  obtain ⟨⟨outcome, mgr'⟩, called, same⟩ := Option.bind_eq_some_iff.mp stepped
  refine ⟨outcome, mgr', called, w'.accepted, ?_⟩
  cases outcome with
  | error e => cases same; exact sound'
  | ok => cases same; exact sound'

theorem Sound.boot {boot : List BootMeasurement} (few : boot.length ≤ numOfMeasurementSlots)
    (valid : ∀ b ∈ boot, ∃ m, Measurement.tryFrom b = .ok m) : ∃ mgr, init boot = some mgr ∧ mgr.Sound := by
  obtain ⟨w, started, sound⟩ := Session.start_sound few valid
  obtain ⟨mgr, made, same⟩ := Option.bind_eq_some_iff.mp started
  cases same
  exact ⟨mgr, made, _, sound⟩

omit [Libraries] in
theorem readMeasurement_eq_ok {isLocked : Bool} : mgr.readMeasurement slotId = .ok (measurement, isLocked) ↔
    ∃ i : Fin numOfMeasurementSlots, i.val = slotId ∧ (mgr.slot i).isPopulated = true ∧
      measurement = (mgr.slot i).measurement ∧ isLocked = (mgr.slot i).isLocked := by
  unfold readMeasurement
  constructor
  · intro read
    split at read
    · rename_i inside
      dsimp only at read
      split at read
      · rename_i used
        cases read
        exact ⟨⟨slotId, inside⟩, rfl, used, rfl, rfl⟩
      · exact nomatch read
    · exact nomatch read
  · rintro ⟨i, rfl, used, rfl, rfl⟩
    rw [dif_pos i.isLt]
    exact if_pos used

/-- The value of a slot in use is a digest. -/
theorem Sound.value {isLocked : Bool} (sound : mgr.Sound) (read : mgr.readMeasurement slotId = .ok (measurement, isLocked)) :
    32 ≤ measurement.value.len := by
  obtain ⟨accepted, sound⟩ := sound
  obtain ⟨i, _, used, rfl, _⟩ := readMeasurement_eq_ok.mp read
  have records := sound i
  rw [ArrayVec.len, records.value (records.isPopulated.mp used), MeasurementType.length_chain]
  cases (mgr.slot i).measurement.metadata.algorithm <;> decide

theorem extend_ok_iff (called : mgr.extendMeasurement slotId measurement lock = some (outcome, mgr')) :
    outcome = .ok () ↔ mgr.Takes slotId measurement.metadata.signerId.bytes measurement.metadata.algorithm := by
  have same : ∀ {x y : ValueHash}, x = y ↔ x.bytes = y.bytes := fun {x y} =>
    ⟨congrArg _, fun equal => by cases x; cases y; cases equal; rfl⟩
  unfold extendMeasurement at called
  split at called
  case isFalse outside =>
    cases called
    exact ⟨nofun, fun ⟨i, here, _⟩ => absurd (here ▸ i.isLt) outside⟩
  rename_i inside
  dsimp only at called
  split at called
  · rename_i locked
    cases called
    refine ⟨nofun, fun ⟨i, here, unlocked, _⟩ => ?_⟩
    subst here
    exact nomatch unlocked.symm.trans locked
  rename_i unlocked
  split at called
  · rename_i used
    split at called
    · rename_i prohibited
      cases called
      refine ⟨nofun, fun ⟨i, here, _, fits⟩ => ?_⟩
      subst here
      obtain ⟨signer, algorithm⟩ := fits used
      simp only [MeasurementSlot.isProhibited, decide_eq_true_eq] at prohibited
      exact (prohibited.elim (fun other => other (same.mpr signer)) fun other => other algorithm).elim
    · rename_i allowed
      obtain ⟨slot, _, equal⟩ := Option.bind_eq_some_iff.mp called
      cases equal
      refine ⟨fun _ => ⟨⟨slotId, inside⟩, rfl, eq_false_of_ne_true unlocked, fun _ => ?_⟩, fun _ => rfl⟩
      simp only [MeasurementSlot.isProhibited, decide_eq_true_eq, not_or, not_not] at allowed
      exact ⟨same.mp allowed.1, allowed.2⟩
  · rename_i fresh
    obtain ⟨slot, _, equal⟩ := Option.bind_eq_some_iff.mp called
    cases equal
    exact ⟨fun _ => ⟨⟨slotId, inside⟩, rfl, eq_false_of_ne_true unlocked, fun used => absurd used fresh⟩, fun _ => rfl⟩

end MeasurementMgr

/-- The curve of a delegated key. -/
def KeyBits.curve? : KeyBits → Option Curve
  | bits256 => some .p256
  | bits384 => some .p384
  | bits521 => none

/-- The state of the library between two requests. -/
structure IsletHES.Sound (hes : IsletHES) : Prop where
  slots : hes.measuredBootMgr.Sound
  huk : hes.huk.length = 32
  guk : hes.attestationMgr.derivationMaterial.guk.bytes.length = 32
  dak : ∀ {info}, hes.attestationMgr.dak = some info →
    ∃ curve k, info.keyBits.curve? = some curve ∧ curve.fromSlice info.key = some k

namespace IsletHES

variable {hes hes' : IsletHES}

omit [Libraries] in
theorem foldlM_ok {α β ε : Type} {f : β → α → Except ε β} {l : List α} (step : ∀ a ∈ l, ∀ b, ∃ b', f b a = .ok b')
    (b : β) : ∃ r, l.foldlM f b = .ok r := by
  induction l generalizing b with
  | nil => exact ⟨b, rfl⟩
  | cons a l ih =>
    obtain ⟨b', first⟩ := step a List.mem_cons_self b
    rw [List.foldlM_cons, first]
    exact ih (fun a' member => step a' (List.mem_cons_of_mem _ member)) b'

omit [Libraries] in
theorem fetch_ok (hes : IsletHES) : ∃ measurements, hes.fetchCurrentMeasurements = .ok measurements := by
  refine foldlM_ok (fun i member measurements => ?_) []
  have inside := List.mem_range.mp member
  rw [MeasurementMgr.readMeasurement, dif_pos inside]
  dsimp only
  cases hes.measuredBootMgr.measurements[i].isPopulated with
  | true => exact ⟨_, rfl⟩
  | false => exact ⟨_, rfl⟩

section Sound

variable (sound : hes.Sound)

include sound

theorem Sound.delegatedKey {eccFamily : ECCFamily} {keyBits : KeyBits} {hashAlgo : HashAlgo}
    {outcome : Except IsletHESError (List Byte)}
    (called : hes.getDelegatedKey eccFamily keyBits hashAlgo = some (outcome, hes')) : hes'.Sound := by
  obtain ⟨measurements, fetched⟩ := hes.fetch_ok
  rw [getDelegatedKey, fetched] at called
  obtain ⟨⟨outcome', mgr⟩, made, same⟩ := Option.bind_eq_some_iff.mp called
  cases same
  obtain ⟨seed, seeded, derived⟩ := Option.bind_eq_some_iff.mp made
  have kept : ∀ {curve k info}, keyBits.curve? = some curve → deriveKey curve seed info = some k →
      IsletHES.Sound { hes with attestationMgr := (hes.attestationMgr.stored hashAlgo keyBits (curve.toBytes k)).2 } :=
    fun known derived => ⟨sound.slots, sound.huk, sound.guk, fun found => by
      cases found
      exact ⟨_, _, known, fromSlice_deriveKey derived⟩⟩
  cases keyBits with
  | bits256 =>
    obtain ⟨k, found, same⟩ := Option.map_eq_some_iff.mp derived
    cases same
    exact kept rfl found
  | bits384 =>
    obtain ⟨k, found, same⟩ := Option.map_eq_some_iff.mp derived
    cases same
    exact kept rfl found
  | bits521 =>
    cases derived
    exact sound

/-- The DAK has 48 bytes, if there is one. -/
theorem Sound.getDelegatedKey (eccFamily : ECCFamily) (hashAlgo : HashAlgo) :
    (hes.DerivesDak → ∃ dak hes', hes.getDelegatedKey eccFamily .bits384 hashAlgo = some (.ok dak, hes') ∧
      dak.length = 48) ∧ (¬hes.DerivesDak → hes.getDelegatedKey eccFamily .bits384 hashAlgo = none) := by
  obtain ⟨measurements, fetched⟩ := hes.fetch_ok
  obtain ⟨seed, seeded, _⟩ := generateSeed_of_size (hes.attestationMgr.derivationMaterial.hash.bytes ++
    toLe 4 hes.attestationMgr.claims.securityLifecycle ++ toLe 4 0) AttestationMgr.dakSeedLabel sound.guk
  have derives : hes.DerivesDak ↔ ofBe (hkdfExpand seed (intoWriter (encodeMeasurements measurements)) 48) ≤
      Curve.p384.order - 2 := by
    refine ⟨?_, fun good => ⟨_, _, fetched, seeded, good⟩⟩
    rintro ⟨measurements', seed', fetched', seeded', good⟩
    cases fetched.symm.trans fetched'
    cases seeded.symm.trans seeded'
    exact good
  have called : hes.getDelegatedKey eccFamily .bits384 hashAlgo =
      (deriveP384Key seed (some (intoWriter (encodeMeasurements measurements)))).map fun key =>
        (.ok (Curve.p384.toBytes key), { hes with
          attestationMgr := (hes.attestationMgr.stored hashAlgo .bits384 (Curve.p384.toBytes key)).2 }) := by
    rw [IsletHES.getDelegatedKey, fetched]
    simp only [AttestationMgr.getDelegatedKey, seeded, Option.bind_eq_bind, Option.bind_some]
    cases deriveP384Key seed (some (intoWriter (encodeMeasurements measurements))) <;> rfl
  rw [derives, called, deriveP384Key_some]
  refine ⟨fun good => ?_, fun bad => ?_⟩
  · rw [if_pos good]
    exact ⟨_, _, rfl, length_toBytes _ _⟩
  · rw [if_neg bad]
    rfl

theorem Sound.platformToken (dakPubHash : List Byte) : ∃ outcome, hes.getPlatformToken dakPubHash = some outcome := by
  obtain ⟨measurements, fetched⟩ := hes.fetch_ok
  cases known : hes.attestationMgr.dak with
  | none =>
    rw [getPlatformToken, fetched]
    simp [AttestationMgr.getPlatformToken, known]
  | some info =>
    obtain ⟨curve, k, bits, key⟩ := sound.dak known
    have hashed : ∃ hash, hes.attestationMgr.calculateDakHash info.hashAlgo = some hash := by
      rw [AttestationMgr.calculateDakHash, known]
      cases keyBits : info.keyBits with
      | bits256 => rw [keyBits] at bits; cases bits; simp [keyBits, key]
      | bits384 => rw [keyBits] at bits; cases bits; simp [keyBits, key]
      | bits521 => rw [keyBits] at bits; exact nomatch bits
    obtain ⟨hash, hashed⟩ := hashed
    have verified : hes.attestationMgr.verifyDakHash dakPubHash = some (decide (dakPubHash = hash)) := by
      simp [AttestationMgr.verifyDakHash, known, hashed]
    obtain ⟨claims, encoded⟩ : ∃ claims, hes.attestationMgr.encodeClaims dakPubHash measurements = some claims := by
      simp [AttestationMgr.encodeClaims, known]
    rw [getPlatformToken, fetched]
    by_cases same : dakPubHash = hash
    · subst same
      simp [AttestationMgr.getPlatformToken, known, verified, encoded]
    · simp [AttestationMgr.getPlatformToken, known, verified, same]

theorem Sound.authorityVhuk : ∃ key, hes.getAuthorityVhuk = some (.ok key) ∧ key.length = 32 := by
  obtain ⟨measurements, fetched⟩ := hes.fetch_ok
  obtain ⟨key, made, size⟩ := generateSeed_of_size
    (measurements.flatMap (fun m => m.metadata.signerId.bytes ++ asBytes m.metadata.swType) ++ toLe 4 hes.lcs)
    (asBytes "VHUK_A") sound.huk
  refine ⟨key, ?_, size⟩
  rw [getAuthorityVhuk, fetched]
  exact Option.bind_eq_some_iff.mpr ⟨key, made, rfl⟩

theorem Sound.measurementVhuk : ∃ key, hes.getMeasurementVhuk = some (.ok key) ∧ key.length = 32 := by
  obtain ⟨measurements, fetched⟩ := hes.fetch_ok
  obtain ⟨key, made, size⟩ := generateSeed_of_size
    (intoWriter (encodeMeasurements measurements) ++ toLe 4 hes.lcs) (asBytes "VHUK_M") sound.huk
  refine ⟨key, ?_, size⟩
  rw [getMeasurementVhuk, fetched]
  exact Option.bind_eq_some_iff.mpr ⟨key, made, rfl⟩

theorem Sound.extendMeasurement (slotId : Nat) (measurement : Measurement) (lock : Bool) :
    ∃ outcome hes', hes.extendMeasurement slotId measurement lock = some (outcome, hes') ∧ hes'.Sound ∧
      (outcome = .ok () ↔ hes.measuredBootMgr.Takes slotId measurement.metadata.signerId.bytes
        measurement.metadata.algorithm) := by
  obtain ⟨outcome, mgr, called, slots⟩ := sound.slots.extend slotId measurement lock
  refine ⟨outcome.mapError .ofMeasurement, { hes with measuredBootMgr := mgr },
    Option.bind_eq_some_iff.mpr ⟨_, called, rfl⟩, ⟨slots, sound.huk, sound.guk, sound.dak⟩, ?_⟩
  rw [← MeasurementMgr.extend_ok_iff called]
  cases outcome with
  | error e => exact ⟨nofun, nofun⟩
  | ok => exact ⟨fun _ => rfl, fun _ => rfl⟩

end Sound

end IsletHES

/-- A request that is carried out leaves a sound state. -/
theorem Request.execute_sound {request : Request} {hes hes' : IsletHES} {r : Int × Option Response} (sound : hes.Sound)
    (called : request.execute hes = some (r, hes')) : hes'.Sound := by
  cases request with
  | getDAK eccFamily keyBits hashAlgo =>
    obtain ⟨⟨outcome, _⟩, made, same⟩ := Option.bind_eq_some_iff.mp called
    cases same
    exact sound.delegatedKey made
  | getPlatformToken dakPubHash =>
    obtain ⟨outcome, _, same⟩ := Option.bind_eq_some_iff.mp called
    cases same
    exact sound
  | extendMeasurement slotId measurement lock =>
    obtain ⟨outcome, hes'', made, sound', _⟩ := sound.extendMeasurement slotId measurement lock
    obtain ⟨⟨outcome, _⟩, made', same⟩ := Option.bind_eq_some_iff.mp called
    cases same
    cases made.symm.trans made'
    exact sound'
  | readMeasurement index swTypeLen swVersionLen =>
    simp only [Request.execute] at called
    split at called
    · split at called
      · cases called; exact sound
      · cases called; exact sound
    · cases called; exact sound
  | getVHuk keyId =>
    cases keyId with
    | vhukA =>
      obtain ⟨outcome, _, same⟩ := Option.bind_eq_some_iff.mp called
      cases same
      exact sound
    | vhukM =>
      obtain ⟨outcome, _, same⟩ := Option.bind_eq_some_iff.mp called
      cases same
      exact sound

/-! ### Replies -/

section Replies

omit [Libraries]

/-- What is packed: the vectors before the first empty one. -/
def packed (vecs : List (List Byte)) : List (List Byte) := vecs.takeWhile fun vec => vec.length ≠ 0

theorem packed_cons_of_empty {vec : List Byte} {rest : List (List Byte)} (empty : vec.length = 0) :
    packed (vec :: rest) = [] :=
  List.takeWhile_cons_of_neg (by simpa using empty)

theorem packed_cons {vec : List Byte} {rest : List (List Byte)} (used : vec.length ≠ 0) :
    packed (vec :: rest) = vec :: packed rest :=
  List.takeWhile_cons_of_pos (by simpa using used)

theorem packVecs_iff {vecs : List (List Byte)} {offset : Nat} (below : offset < platRssCommsPayloadMaxSize)
    {r : List Nat × List Byte} : PSAResponse.packVecs vecs offset = some (.ok r) ↔
      offset + (packed vecs).flatten.length < platRssCommsPayloadMaxSize ∧
        r = ((packed vecs).map List.length, (packed vecs).flatten) := by
  induction vecs generalizing offset r with
  | nil => simp [PSAResponse.packVecs, packed, below, eq_comm]
  | cons vec rest ih =>
    rw [PSAResponse.packVecs]
    by_cases empty : vec.length = 0
    · rw [packed_cons_of_empty empty, if_pos empty]
      exact ⟨fun made => by cases made; exact ⟨below, rfl⟩, fun ⟨_, same⟩ => by rw [same]; rfl⟩
    · rw [packed_cons empty]
      simp only [empty, if_false, List.map_cons, List.flatten_cons, List.length_append]
      by_cases fits : offset + vec.length < platRssCommsPayloadMaxSize
      · have narrow : ¬2 ^ 16 ≤ vec.length := by
          unfold platRssCommsPayloadMaxSize at fits
          omega
        rw [if_neg narrow, if_neg (by omega)]
        constructor
        · intro made
          obtain ⟨outcome, made, mapped⟩ := Option.map_eq_some_iff.mp made
          cases outcome with
          | error e => exact nomatch mapped
          | ok inner =>
            obtain ⟨room, rfl⟩ := (ih fits).mp made
            cases mapped
            exact ⟨by omega, rfl⟩
        · rintro ⟨room, rfl⟩
          rw [(ih fits).mpr ⟨by omega, rfl⟩]
          rfl
      · constructor
        · intro made
          split at made
          · exact nomatch made
          · exact nomatch made.symm.trans (if_pos (by omega))
        · rintro ⟨room, _⟩
          omega

theorem ser_iff {response : PSAResponse} {bytes : List Byte} : response.ser = some (.ok bytes) ↔
    (packed response.outVecs.toList).flatten.length < platRssCommsPayloadMaxSize ∧
      bytes = response.encode ((packed response.outVecs.toList).map List.length)
        (packed response.outVecs.toList).flatten := by
  unfold PSAResponse.ser
  constructor
  · intro made
    obtain ⟨outcome, made, mapped⟩ := Option.map_eq_some_iff.mp made
    cases outcome with
    | error e => exact nomatch mapped
    | ok inner =>
      obtain ⟨room, rfl⟩ := (packVecs_iff (by decide)).mp made
      cases mapped
      exact ⟨by omega, rfl⟩
  · rintro ⟨room, rfl⟩
    rw [(packVecs_iff (by decide)).mpr ⟨by omega, rfl⟩]
    rfl

def PSARequest.metadata (r : PSARequest) : MsgMetadata :=
  { protocolVer := r.protocolVer, seqNum := r.seqNum, clientId := r.clientId, responseParams := r.outLens }

theorem length_replyWith (r : PSARequest) (returnVal : Int) (data : List (List Byte)) :
    (r.replyWith returnVal data).length = 16 + data.flatten.length := by
  simp [PSARequest.replyWith, PSAResponse.encode, psaMaxIovec, List.range_succ]
  omega

/-- The return value is in the reply. -/
theorem take_replyWith (r : PSARequest) (returnVal : Int) (data : List (List Byte)) :
    ((r.replyWith returnVal data).drop 4).take 4 = toLe 4 (returnVal % 2 ^ 32).toNat := by
  simp [PSARequest.replyWith, PSAResponse.encode]

end Replies

/-- The vectors that carry the data of a response. -/
def Response.Data : Option Response → List (List Byte) → Prop
  | some (.getDAK dak), data => data = [dak]
  | some (.getPlatformToken token), data => data = [token]
  | some (.readMeasurement measurement isLocked), data => ∃ description,
    readResponse measurement isLocked = some description ∧
      data = [description.ser, measurement.metadata.signerId.bytes, measurement.value.bytes]
  | some (.getVHuk key), data => data = [key]
  | none, data => data = []

omit [Libraries] in
theorem tryInto_eq_some {size : Nat} {bytes : List Byte} : (∃ v, tryInto size bytes = some v) ↔ bytes.length = size := by
  unfold tryInto
  split
  · rename_i same
    exact ⟨fun _ => same, fun _ => ⟨_, rfl⟩⟩
  · rename_i other
    exact ⟨fun ⟨_, made⟩ => (nomatch made), fun same => absurd same other⟩

omit [Libraries] in
theorem readResponse_iff {measurement : Measurement} {isLocked : Bool} :
    (∃ description, readResponse measurement isLocked = some description) ↔
      (asBytes measurement.metadata.swType).length = swTypeMaxSize ∧
        (asBytes measurement.metadata.swVersion).length = versionMaxSize := by
  rw [← tryInto_eq_some, ← tryInto_eq_some]
  constructor
  · rintro ⟨description, made⟩
    obtain ⟨swType, first, made⟩ := Option.bind_eq_some_iff.mp made
    obtain ⟨version, second, _⟩ := Option.bind_eq_some_iff.mp made
    exact ⟨⟨_, first⟩, _, second⟩
  · rintro ⟨⟨swType, first⟩, version, second⟩
    exact ⟨_, Option.bind_eq_some_iff.mpr ⟨swType, first, Option.bind_eq_some_iff.mpr ⟨version, second, rfl⟩⟩⟩

theorem length_ser (description : ReadResponse) : description.ser.length = 44 := by
  have swType : description.swType.toList.length = 20 := Vector.length_toList
  have version : description.version.toList.length = 14 := Vector.length_toList
  simp [ReadResponse.ser, swType, version]

/-- The reply to `r` that is sent with this response carries its data. -/
def Sent (r : PSARequest) (response : Option Response) : Prop :=
  ∃ vecs data, outVecs r.outLens response = some (.ok vecs) ∧
    (packed vecs.toList).flatten.length < platRssCommsPayloadMaxSize ∧ Response.Data response data ∧
    r.replyWith psaSuccess (packed vecs.toList) = r.replyWith psaSuccess data

/-- A response that is one vector. -/
theorem sent_single {r : PSARequest} {vec : List Byte} {response : Option Response}
    (vecs : outVecs r.outLens response =
      if r.outLens[0] < vec.length then some (.error .bufferTooSmall) else some (.ok #v[vec, [], [], []]))
    (data : ∀ {data}, Response.Data response data ↔ data = [vec]) :
    Sent r response ↔ vec.length ≤ r.outLens[0] ∧ vec.length < platRssCommsPayloadMaxSize := by
  have whole : ∀ code, r.replyWith code (packed [vec, [], [], []]) = r.replyWith code [vec] ∧
      (packed [vec, [], [], []]).flatten.length = vec.length := by
    intro code
    by_cases empty : vec.length = 0
    · rw [packed_cons_of_empty empty, List.length_eq_zero_iff.mp empty]
      exact ⟨rfl, rfl⟩
    · rw [packed_cons empty, packed_cons_of_empty rfl]
      exact ⟨rfl, by simp⟩
  unfold Sent
  rw [vecs]
  constructor
  · rintro ⟨vecs, _, made, room, _⟩
    split at made
    · exact nomatch made
    · cases made
      exact ⟨by omega, lt_of_eq_of_lt (whole 0).2.symm room⟩
  · rintro ⟨small, room⟩
    rw [if_neg (by omega)]
    exact ⟨_, [vec], rfl, lt_of_eq_of_lt (whole 0).2 room, data.mpr rfl, (whole _).1⟩

/-- A measurement, whose value is never empty. -/
theorem sent_read {r : PSARequest} {measurement : Measurement} {isLocked : Bool} (digest : 32 ≤ measurement.value.len) :
    Sent r (some (.readMeasurement measurement isLocked)) ↔
      Response.Fits r.outLens (some (.readMeasurement measurement isLocked)) := by
  have valueFits : measurement.value.len ≤ 64 := measurement.value.fits
  have signerFits : measurement.metadata.signerId.len ≤ 64 := measurement.metadata.signerId.fits
  have flat : ∀ description : ReadResponse,
      [description.ser, measurement.metadata.signerId.bytes, measurement.value.bytes].flatten.length =
        44 + (measurement.metadata.signerId.len + measurement.value.len) := by
    intro description
    rw [List.flatten_cons, List.flatten_cons, List.flatten_cons, List.flatten_nil, List.append_nil, List.length_append,
      List.length_append, length_ser]
    rfl
  unfold Sent
  rw [outVecs]
  constructor
  · rintro ⟨vecs, data, made, _, ⟨description, described, rfl⟩, same⟩
    obtain ⟨swType, version⟩ := readResponse_iff.mp ⟨_, described⟩
    split at made
    · exact nomatch made
    · rename_i large
      rw [described] at made
      cases made
      refine ⟨swType, version, by omega, by omega, fun unsigned => ?_⟩
      -- the value behind an empty signer is not packed
      have only : packed [description.ser, measurement.metadata.signerId.bytes, measurement.value.bytes, []] =
          [description.ser] := by
        rw [packed_cons (by rw [length_ser]; decide), packed_cons_of_empty unsigned]
      have lengths := congrArg List.length same
      rw [length_replyWith, length_replyWith, flat] at lengths
      have short : (packed [description.ser, measurement.metadata.signerId.bytes, measurement.value.bytes, []]).flatten.length
          = 44 := by
        rw [only, List.flatten_cons, List.flatten_nil, List.append_nil, length_ser]
      have lengths := short.symm.trans (Nat.add_left_cancel lengths)
      omega
  · rintro ⟨swType, version, signer, room, signed⟩
    obtain ⟨description, described⟩ := readResponse_iff.mpr ⟨swType, version⟩
    have all : packed [description.ser, measurement.metadata.signerId.bytes, measurement.value.bytes, []] =
        [description.ser, measurement.metadata.signerId.bytes, measurement.value.bytes] := by
      rw [packed_cons (by rw [length_ser]; decide), packed_cons signed,
        packed_cons (show measurement.value.len ≠ 0 by omega), packed_cons_of_empty rfl]
    rw [if_neg (by omega), described]
    refine ⟨_, _, rfl, ?_, ⟨description, described, rfl⟩, congrArg _ all⟩
    refine lt_of_eq_of_lt (congrArg (fun l => (List.flatten l).length) all) ?_
    rw [flat]
    unfold platRssCommsPayloadMaxSize
    omega

theorem sent_iff {r : PSARequest} {response : Option Response}
    (digest : ∀ {measurement isLocked}, response = some (.readMeasurement measurement isLocked) →
      32 ≤ measurement.value.len) : Sent r response ↔ Response.Fits r.outLens response := by
  cases response with
  | none =>
    simp only [Sent, Response.Data, Response.Fits, outVecs]
    constructor
    · rintro ⟨vecs, _, made, _⟩
      by_contra used
      rw [if_pos used] at made
      cases made
    · intro unused
      rw [if_neg (not_not.mpr unused)]
      exact ⟨_, [], rfl, by decide, rfl, rfl⟩
  | some response =>
    cases response with
    | getDAK dak => exact sent_single rfl Iff.rfl
    | getPlatformToken token => exact sent_single rfl Iff.rfl
    | getVHuk key => exact sent_single rfl Iff.rfl
    | readMeasurement measurement isLocked => exact sent_read (digest rfl)

/-! ### Serving a request -/

def PSARequest.KnownHandle (r : PSARequest) : Prop :=
  r.handle = rssDelegatedServiceHandle ∨ r.handle = rssMeasuredBootServiceHandle ∨ r.handle = rssVhukServiceHandle

/-- What `convert_request` makes of the request. -/
def PSARequest.converted (r : PSARequest) : Option (Except CommsError Request) :=
  if r.handle = rssDelegatedServiceHandle then convertAttestationRequest r.psaType r.inVecs
  else if r.handle = rssMeasuredBootServiceHandle then convertMeasuredBootRequest r.psaType r.inVecs
  else if r.handle = rssVhukServiceHandle then some (convertVhukRequest r.psaType r.inVecs)
  else some (.error .serviceHandleError)

/-- A code for an error of the request, or of the library. -/
def IsErrorCode (code : Int) : Prop :=
  (∃ e, commsErrorToRetVal e = some code) ∨ ∃ e, isletHesErrorToRetVal e = code

omit [Libraries] in
theorem IsErrorCode.ne {code : Int} (isError : IsErrorCode code) :
    toLe 4 (code % 2 ^ 32).toNat ≠ toLe 4 (psaSuccess % 2 ^ 32).toNat := by
  rcases isError with ⟨e, known⟩ | ⟨e, rfl⟩
  · cases e <;> cases known <;> decide
  · cases e <;> decide

namespace Service

variable {service service' : Service} {r : PSARequest} {outcome : Outcome} {request : Request} {hes : IsletHES}

theorem outVecs_error {params : Vector Nat psaMaxIovec} {response : Option Response} {e : CommsError}
    (failed : outVecs params response = some (.error e)) : e = .bufferTooSmall ∨ e = .programmerError := by
  cases response with
  | none =>
    rw [outVecs] at failed
    split at failed <;> cases failed
    exact .inr rfl
  | some response =>
    cases response with
    | readMeasurement measurement isLocked =>
      rw [outVecs] at failed
      split at failed
      · cases failed
        exact .inl rfl
      · obtain ⟨_, _, same⟩ := Option.map_eq_some_iff.mp failed
        exact nomatch same
    | _ =>
      rw [outVecs] at failed
      split at failed <;> cases failed
      exact .inl rfl

theorem reply_iff {retVal : Int} {response : Option Response} :
    reply hes ⟨some r.metadata⟩ retVal response = some (outcome, service') ↔ ∃ vecs,
      vecsOf r retVal response = some (.ok vecs) ∧
        (packed vecs.toList).flatten.length < platRssCommsPayloadMaxSize ∧
        outcome = .replied (r.replyWith retVal (packed vecs.toList)) ∧ service' = ⟨{}, hes⟩ := by
  have converted : CommsChannel.convertResponse ⟨some r.metadata⟩ retVal response =
      (vecsOf r retVal response).map fun vecs => (vecs.map fun outVecs =>
        { outVecs, clientId := r.clientId, protocolVer := r.protocolVer, returnVal := retVal, seqNum := r.seqNum }, {}) := by
    simp only [CommsChannel.convertResponse, vecsOf, PSARequest.metadata, Option.bind_eq_bind, Option.bind_some]
    by_cases success : retVal = 0
    · rw [if_pos success, if_pos success]
      cases outVecs r.outLens response <;> rfl
    · rw [if_neg success, if_neg success]
      rfl
  rw [reply, CommsChannel.sendResponse, converted]
  cases made : vecsOf r retVal response with
  | none => simp
  | some vecs =>
    cases vecs with
    | error e =>
      have known : e = .bufferTooSmall ∨ e = .programmerError := by
        unfold vecsOf at made
        split at made
        · exact outVecs_error made
        · cases made
      rcases known with rfl | rfl
      · simp [Except.map]
      · simp [Except.map]
    | ok vecs =>
      have written := @ser_iff ⟨r.protocolVer, r.seqNum, r.clientId, retVal, vecs⟩
      simp only [Option.map_some, Except.map, Option.bind_eq_bind, Option.bind_some]
      constructor
      · intro sent
        obtain ⟨_, step, finished⟩ := Option.bind_eq_some_iff.mp sent
        obtain ⟨outcome', bytes, same⟩ := Option.bind_eq_some_iff.mp step
        cases outcome' with
        | error e => cases same; cases finished
        | ok bytes' =>
          cases same
          cases finished
          obtain ⟨room, rfl⟩ := written.mp bytes
          exact ⟨vecs, rfl, room, rfl, rfl⟩
      · rintro ⟨_, found, room, rfl, rfl⟩
        cases found
        rw [written.mpr ⟨room, rfl⟩]
        rfl

/-! ### Conversion and its failures -/

omit [Libraries] in
theorem convertRequest_eq (comms : CommsChannel) (r : PSARequest) :
    comms.convertRequest r = r.converted.map fun request => (request, ⟨some r.metadata⟩) := rfl

theorem processRequest_ok (converted : r.converted = some (.ok request)) :
    service.processRequest r = (request.execute service.hes).bind fun done =>
      reply done.2 ⟨some r.metadata⟩ done.1.1 done.1.2 := by
  rw [processRequest, convertRequest_eq, converted]
  rfl

theorem processRequest_refused {e : CommsError} {code : Int} (converted : r.converted = some (.error e))
    (known : commsErrorToRetVal e = some code) (clear : e ≠ .programmerError) :
    service.processRequest r = reply service.hes ⟨some r.metadata⟩ code none := by
  rw [processRequest, convertRequest_eq, converted]
  cases e <;> cases known
  case programmerError => exact absurd rfl clear
  all_goals rfl

theorem processRequest_ignored (converted : r.converted = some (.error .serviceHandleError)) :
    ∃ service', service.processRequest r = some (.ignored, service') := by
  rw [processRequest, convertRequest_eq, converted]
  exact ⟨_, rfl⟩

theorem processRequest_panics (converted : r.converted = none ∨ r.converted = some (.error .psaSerdeError) ∨
    r.converted = some (.error .programmerError)) : service.processRequest r = none := by
  rw [processRequest, convertRequest_eq]
  rcases converted with converted | converted | converted
  all_goals rw [converted]; rfl

/-- The reply carries success and the data, or the code of an error. -/
def Answers (service : Service) (r : PSARequest) (bytes : List Byte) : Prop :=
  (∃ request response hes data, r.converted = some (.ok request) ∧
    request.execute service.hes = some ((psaSuccess, response), hes) ∧ Response.Data response data ∧
    bytes = r.replyWith psaSuccess data) ∨
  ∃ code, IsErrorCode code ∧ bytes = r.replyWith code []

/-- There is such a reply. -/
def Answered (service : Service) (r : PSARequest) : Prop :=
  ∃ bytes service', service.processRequest r = some (.replied bytes, service') ∧ service.Answers r bytes

theorem reply_error {code : Int} (isError : IsErrorCode code) (hes : IsletHES) (r : PSARequest) (response : Option Response) :
    reply hes ⟨some r.metadata⟩ code response = some (.replied (r.replyWith code []), ⟨{}, hes⟩) := by
  have failed : code ≠ 0 := by
    rintro rfl
    exact isError.ne rfl
  exact reply_iff.mpr ⟨#v[[], [], [], []], if_neg failed, by decide, rfl, rfl⟩

/-- A request that is refused is answered. -/
theorem answered_of_error {e : CommsError} (converted : r.converted = some (.error e))
    (known : e = .genericError ∨ e = .invalidArgument) : service.Answered r := by
  obtain ⟨code, coded⟩ : ∃ code, commsErrorToRetVal e = some code := by
    rcases known with rfl | rfl
    · exact ⟨_, rfl⟩
    · exact ⟨_, rfl⟩
  have isError : IsErrorCode code := .inl ⟨e, coded⟩
  refine ⟨r.replyWith code [], ⟨{}, service.hes⟩, ?_, .inr ⟨code, isError, rfl⟩⟩
  rw [processRequest_refused converted coded (by rcases known with rfl | rfl <;> exact nofun)]
  exact reply_error isError _ _ _

/-! ### Requests that are carried out -/

section Carried

variable {params : Vector Nat psaMaxIovec}

/-- The call comes back, and there is room for its response. -/
def Carried (hes : IsletHES) (params : Vector Nat psaMaxIovec) (request : Request) : Prop :=
  ∃ code response hes', request.execute hes = some ((code, response), hes') ∧
    (code = psaSuccess → Response.Fits params response)

omit [Libraries] in
theorem isletHesErrorToRetVal_ne (e : IsletHESError) : isletHesErrorToRetVal e ≠ psaSuccess := by
  cases e <;> decide

omit [Libraries] in
theorem result_fits {α : Type} {outcome : Except IsletHESError α} {response : α → Option Response} :
    ((result response outcome).1 = psaSuccess → Response.Fits params (result response outcome).2) ↔
      ∀ {value}, outcome = .ok value → Response.Fits params (response value) := by
  cases outcome with
  | error e => exact ⟨fun _ _ => nofun, fun _ success => absurd success (isletHesErrorToRetVal_ne e)⟩
  | ok value => exact ⟨fun fits _ same => by cases same; exact fits rfl, fun fits _ => fits rfl⟩

theorem carried_iff {x : Int × Option Response} {hes' : IsletHES} (called : request.execute hes = some (x, hes')) :
    Carried hes params request ↔ (x.1 = psaSuccess → Response.Fits params x.2) := by
  constructor
  · rintro ⟨_, _, _, called', fits⟩
    cases called.symm.trans called'
    exact fits
  · intro fits
    exact ⟨_, _, _, called, fits⟩

variable (sound : hes.Sound)

include sound

theorem carried_getDAK {eccFamily : ECCFamily} {hashAlgo : HashAlgo} :
    Carried hes params (.getDAK eccFamily .bits384 hashAlgo) ↔ hes.DerivesDak ∧ 48 ≤ params[0] := by
  obtain ⟨ends, loops⟩ := sound.getDelegatedKey eccFamily hashAlgo
  by_cases derives : hes.DerivesDak
  · obtain ⟨dak, hes', called, size⟩ := ends derives
    have executed : Request.execute hes (.getDAK eccFamily .bits384 hashAlgo) =
        some (result (fun dak => some (.getDAK dak)) (.ok dak), hes') :=
      Option.bind_eq_some_iff.mpr ⟨_, called, rfl⟩
    rw [carried_iff executed, result_fits, ← size]
    refine ⟨fun fits => ⟨derives, (fits rfl).1⟩, fun ⟨_, room⟩ => ?_⟩
    rintro ⟨⟩
    exact ⟨room, by rw [size]; decide⟩
  · refine ⟨?_, fun ⟨derives', _⟩ => absurd derives' derives⟩
    rintro ⟨_, _, _, called, _⟩
    rw [Request.execute, loops derives] at called
    exact nomatch called

theorem carried_getPlatformToken {dakPubHash : ValueHash} : Carried hes params (.getPlatformToken dakPubHash) ↔
    ∀ {token}, hes.getPlatformToken dakPubHash.bytes = some (.ok token) →
      (toTaggedVec token.payload token.signature).length ≤ params[0] ∧
        (toTaggedVec token.payload token.signature).length < platRssCommsPayloadMaxSize := by
  obtain ⟨outcome, called⟩ := sound.platformToken dakPubHash.bytes
  have executed : Request.execute hes (.getPlatformToken dakPubHash) =
      some (result (fun token => some (.getPlatformToken (toTaggedVec token.payload token.signature))) outcome, hes) :=
    Option.bind_eq_some_iff.mpr ⟨_, called, rfl⟩
  rw [carried_iff executed, result_fits, called]
  exact ⟨fun fits _ same => fits (Option.some.inj same), fun fits _ same => fits (congrArg some same)⟩

theorem carried_extend {slotId : Nat} {measurement : Measurement} {lock : Bool} :
    Carried hes params (.extendMeasurement slotId measurement lock) ↔
      (hes.measuredBootMgr.Takes slotId measurement.metadata.signerId.bytes measurement.metadata.algorithm →
        params[0] = 0) := by
  obtain ⟨outcome, hes', called, _, taken⟩ := sound.extendMeasurement slotId measurement lock
  have executed : Request.execute hes (.extendMeasurement slotId measurement lock) =
      some (result (fun _ => none) outcome, hes') :=
    Option.bind_eq_some_iff.mpr ⟨_, called, rfl⟩
  rw [carried_iff executed, result_fits, ← taken]
  exact ⟨fun fits => fits, fun fits _ => fits⟩

theorem carried_getVHuk {keyId : VHukId} : Carried hes params (.getVHuk keyId) ↔ 32 ≤ params[0] := by
  have single : ∀ {key : List Byte}, key.length = 32 → Request.execute hes (.getVHuk keyId) =
      some (result (fun key => some (.getVHuk key)) (.ok key), hes) →
        (Carried hes params (.getVHuk keyId) ↔ 32 ≤ params[0]) := by
    intro key size called
    rw [carried_iff called, result_fits, ← size]
    refine ⟨fun fits => (fits rfl).1, fun room => ?_⟩
    rintro _ ⟨⟩
    exact ⟨room, by rw [size]; decide⟩
  cases keyId with
  | vhukA =>
    obtain ⟨key, made, size⟩ := sound.authorityVhuk
    exact single size (Option.bind_eq_some_iff.mpr ⟨_, made, rfl⟩)
  | vhukM =>
    obtain ⟨key, made, size⟩ := sound.measurementVhuk
    exact single size (Option.bind_eq_some_iff.mpr ⟨_, made, rfl⟩)

end Carried

theorem carried_read {params : Vector Nat psaMaxIovec} {index swTypeLen versionLen : Nat} :
    Carried hes params (.readMeasurement index swTypeLen versionLen) ↔ FitsSlot hes params index swTypeLen versionLen := by
  cases read : hes.measuredBootMgr.readMeasurement index with
  | error e =>
    have called : Request.execute hes (.readMeasurement index swTypeLen versionLen) =
        some ((isletHesErrorToRetVal (.ofMeasurement e), none), hes) := by
      rw [Request.execute, IsletHES.readMeasurement, read]
      rfl
    rw [carried_iff called]
    refine ⟨fun _ i here used => ?_, fun _ success => absurd success (isletHesErrorToRetVal_ne _)⟩
    exact nomatch read.symm.trans (MeasurementMgr.readMeasurement_eq_ok.mpr ⟨i, here, used, rfl, rfl⟩)
  | ok found =>
    obtain ⟨measurement, isLocked⟩ := found
    obtain ⟨i, rfl, used, rfl, rfl⟩ := MeasurementMgr.readMeasurement_eq_ok.mp read
    have called : Request.execute hes (.readMeasurement i swTypeLen versionLen) =
        if swTypeLen < (asBytes (hes.measuredBootMgr.slot i).measurement.metadata.swType).length ∨
            versionLen < (asBytes (hes.measuredBootMgr.slot i).measurement.metadata.swVersion).length then
          some ((isletHesErrorToRetVal .invalidArgument, none), hes)
        else some ((psaSuccess,
          some (.readMeasurement (hes.measuredBootMgr.slot i).measurement (hes.measuredBootMgr.slot i).isLocked)), hes) := by
      rw [Request.execute, IsletHES.readMeasurement, read]
      rfl
    split at called
    · rename_i long
      rw [carried_iff called]
      refine ⟨fun _ j here _ swType version => ?_,
        fun _ success => absurd success (isletHesErrorToRetVal_ne .invalidArgument)⟩
      cases Fin.ext here
      omega
    · rename_i short
      rw [carried_iff called]
      refine ⟨fun fits j here _ _ _ => ?_, fun fits _ => fits i rfl used (by omega) (by omega)⟩
      cases Fin.ext here
      exact fits rfl

theorem execute_code {x : Int × Option Response} {hes' : IsletHES} (called : request.execute hes = some (x, hes')) :
    x.1 = psaSuccess ∨ IsErrorCode x.1 := by
  have ofResult : ∀ {α : Type} {response : α → Option Response} {outcome : Except IsletHESError α},
      (result response outcome).1 = psaSuccess ∨ IsErrorCode (result response outcome).1 := by
    intro α response outcome
    cases outcome with
    | error e => exact .inr (.inr ⟨e, rfl⟩)
    | ok value => exact .inl rfl
  cases request with
  | readMeasurement index swTypeLen swVersionLen =>
    simp only [Request.execute] at called
    split at called
    · split at called
      · cases called; exact .inr (.inr ⟨.invalidArgument, rfl⟩)
      · cases called; exact .inl rfl
    · rename_i e _
      cases called
      exact .inr (.inr ⟨e, rfl⟩)
  | getVHuk keyId =>
    cases keyId <;> obtain ⟨_, _, same⟩ := Option.bind_eq_some_iff.mp called <;> cases same <;> exact ofResult
  | _ =>
    obtain ⟨_, _, same⟩ := Option.bind_eq_some_iff.mp called
    cases same
    exact ofResult

/-- A measurement that is read has a digest for a value. -/
theorem execute_value {code : Int} {measurement : Measurement} {isLocked : Bool} {hes' : IsletHES} (sound : hes.Sound)
    (called : request.execute hes = some ((code, some (.readMeasurement measurement isLocked)), hes')) :
    32 ≤ measurement.value.len := by
  have noResult : ∀ {α : Type} {response : α → Option Response} {outcome : Except IsletHESError α},
      (∀ value, response value ≠ some (.readMeasurement measurement isLocked)) →
        (result response outcome).2 ≠ some (.readMeasurement measurement isLocked) := by
    intro α response outcome other
    cases outcome with
    | error e => exact nofun
    | ok value => exact other value
  cases request with
  | readMeasurement index swTypeLen swVersionLen =>
    simp only [Request.execute] at called
    split at called
    · rename_i measurement' isLocked' read
      split at called
      · exact nomatch called
      · cases called
        have found : hes.measuredBootMgr.readMeasurement index = .ok (measurement, isLocked) := by
          rw [IsletHES.readMeasurement] at read
          cases inner : hes.measuredBootMgr.readMeasurement index with
          | error e => rw [inner] at read; exact nomatch read
          | ok pair => rw [inner] at read; cases read; rfl
        exact sound.slots.value found
    · exact nomatch called
  | getVHuk keyId =>
    cases keyId <;> obtain ⟨_, _, same⟩ := Option.bind_eq_some_iff.mp called <;>
      exact absurd (congrArg (·.1.2) (Option.some.inj same)) (noResult nofun)
  | _ =>
    obtain ⟨_, _, same⟩ := Option.bind_eq_some_iff.mp called
    exact absurd (congrArg (·.1.2) (Option.some.inj same)) (noResult nofun)

/-- A success for which there is room is sent. -/
theorem replies {response : Option Response} {hes' : IsletHES} (sound : service.hes.Sound)
    (converted : r.converted = some (.ok request))
    (called : request.execute service.hes = some ((psaSuccess, response), hes'))
    (fits : Response.Fits r.outLens response) : ∃ data, Response.Data response data ∧
      service.processRequest r = some (.replied (r.replyWith psaSuccess data), ⟨{}, hes'⟩) := by
  obtain ⟨vecs, data, made, room, carries, same⟩ :=
    (sent_iff fun read => by subst read; exact execute_value sound called).mpr fits
  refine ⟨data, carries, ?_⟩
  rw [processRequest_ok converted, called]
  exact reply_iff.mpr ⟨vecs, (if_pos rfl).trans made, room, congrArg _ same.symm, rfl⟩

theorem answered_iff (sound : service.hes.Sound) (converted : r.converted = some (.ok request)) :
    service.Answered r ↔ Carried service.hes r.outLens request := by
  constructor
  · rintro ⟨bytes, service', served, answers⟩
    rw [processRequest_ok converted] at served
    obtain ⟨⟨⟨code, response⟩, hes'⟩, called, replied⟩ := Option.bind_eq_some_iff.mp served
    obtain ⟨vecs, made, room, same, _⟩ := reply_iff.mp replied
    cases same
    refine ⟨code, response, hes', called, ?_⟩
    rintro rfl
    rcases answers with ⟨request', response', hes'', data, converted', called', carries, same⟩ | ⟨code, isError, same⟩
    · cases converted.symm.trans converted'
      cases called.symm.trans called'
      refine (sent_iff fun read => by subst read; exact execute_value sound called).mp ?_
      exact ⟨vecs, data, (if_pos rfl).symm.trans made, room, carries, same⟩
    · -- the return value tells an error from a success
      have codes := congrArg (fun bytes => (List.drop 4 bytes).take 4) same
      simp only [take_replyWith] at codes
      exact absurd codes.symm isError.ne
  · rintro ⟨code, response, hes', called, fits⟩
    rcases execute_code called with success | isError
    · cases success
      obtain ⟨data, carries, served⟩ := replies sound converted called (fits rfl)
      exact ⟨_, _, served, .inl ⟨_, _, _, _, converted, called, carries, rfl⟩⟩
    · refine ⟨r.replyWith code [], ⟨{}, hes'⟩, ?_, .inr ⟨code, isError, rfl⟩⟩
      rw [processRequest_ok converted, called]
      exact reply_error isError _ _ _

/-! ### Which requests are answered -/

section Supports

section Measurement

omit [Libraries]

variable {inVecs : Vector (List Byte) psaMaxIovec} {extendRequest : ExtendRequest} {algorithm : MeasurementType}

theorem measurementOf_some (swType : (fromUtf8 (extendRequest.swType.take extendRequest.swTypeSize.toNat)).isSome)
    (signerId : inVecs[1].length ≤ signerIdMaxSize) (swVersion : (fromUtf8 inVecs[2]).isSome)
    (value : inVecs[3].length ≤ maxHashValueSize) :
    ∃ measurement, measurementOf inVecs extendRequest algorithm = some measurement := by
  obtain ⟨type, type_eq⟩ := Option.isSome_iff_exists.mp swType
  obtain ⟨version, version_eq⟩ := Option.isSome_iff_exists.mp swVersion
  rw [measurementOf, type_eq, version_eq, ArrayVec.collect, ArrayVec.collect, dif_pos signerId, dif_pos value]
  exact ⟨_, rfl⟩

theorem of_measurementOf {measurement : Measurement} (made : measurementOf inVecs extendRequest algorithm = some measurement) :
    (fromUtf8 (extendRequest.swType.take extendRequest.swTypeSize.toNat)).isSome ∧
      inVecs[1].length ≤ signerIdMaxSize ∧ (fromUtf8 inVecs[2]).isSome ∧ inVecs[3].length ≤ maxHashValueSize ∧
      measurement.metadata.signerId.bytes = inVecs[1] ∧ measurement.metadata.algorithm = algorithm := by
  have collected : ∀ {bytes : List Byte} {capacity : Nat} {v : ArrayVec capacity}, ArrayVec.collect bytes = some v →
      bytes.length ≤ capacity ∧ v.bytes = bytes := by
    intro bytes capacity v found
    unfold ArrayVec.collect at found
    split at found
    · rename_i fits
      cases found
      exact ⟨fits, rfl⟩
    · cases found
  obtain ⟨type, type_eq, made⟩ := Option.bind_eq_some_iff.mp made
  obtain ⟨signer, signer_eq, made⟩ := Option.bind_eq_some_iff.mp made
  obtain ⟨version, version_eq, made⟩ := Option.bind_eq_some_iff.mp made
  obtain ⟨value, value_eq, made⟩ := Option.bind_eq_some_iff.mp made
  cases made
  exact ⟨Option.isSome_of_eq_some type_eq, (collected signer_eq).1, Option.isSome_of_eq_some version_eq,
    (collected value_eq).1, (collected signer_eq).2, rfl⟩

end Measurement

theorem not_answered (panics : service.processRequest r = none) : ¬service.Answered r := by
  rintro ⟨bytes, service', served, _⟩
  exact nomatch panics.symm.trans served

variable (sound : service.hes.Sound)

include sound

theorem answered_attestation (handle : r.handle = rssDelegatedServiceHandle) :
    service.Answered r ↔ service.SupportsAttestation r := by
  have converted : r.converted = convertAttestationRequest r.psaType r.inVecs := if_pos handle
  unfold SupportsAttestation
  rw [convertAttestationRequest] at converted
  by_cases key : r.psaType = rssDelegatedAttestGetDelegatedKey
  · rw [if_pos key] at converted
    rw [if_pos key]
    split at converted
    · exact ⟨fun _ _ => by omega, fun _ => answered_of_error converted (.inl rfl)⟩
    · rename_i sizes
      rw [answered_iff sound converted, carried_getDAK sound]
      exact ⟨fun carried _ => carried, fun supported => supported (by omega)⟩
  rw [if_neg key] at converted
  rw [if_neg key]
  by_cases token : r.psaType = rssDelegatedAttestGetPlatformToken
  · rw [if_pos token] at converted
    rw [if_pos token]
    dsimp only at converted
    split at converted
    · rename_i sizes
      simp only [HashAlgo.len] at sizes
      exact ⟨fun _ _ => by omega, fun _ => answered_of_error converted (.inr rfl)⟩
    · rename_i sizes
      simp only [HashAlgo.len] at sizes
      have fits : r.inVecs[0].length ≤ maxHashValueSize := by
        unfold maxHashValueSize
        omega
      rw [ArrayVec.collect, dif_pos fits] at converted
      rw [answered_iff sound converted, carried_getPlatformToken sound]
      exact ⟨fun carried _ => carried, fun supported => supported (by omega)⟩
  rw [if_neg token] at converted
  rw [if_neg token]
  exact iff_of_false (not_answered (processRequest_panics (.inr (.inr converted)))) id

theorem answered_read (handle : r.handle = rssMeasuredBootServiceHandle) (read : r.psaType = rssMeasuredBootRead) :
    service.Answered r ↔ ∃ readRequest, ReadRequest.de r.inVecs[0] = .ok readRequest ∧
      FitsSlot service.hes r.outLens readRequest.index.toNat readRequest.swTypeSize.toNat
        readRequest.versionSize.toNat := by
  have converted : r.converted = convertMeasuredBootRequest r.psaType r.inVecs := by
    rw [PSARequest.converted, if_neg (by rw [handle]; decide), if_pos handle]
  rw [convertMeasuredBootRequest, if_pos read] at converted
  cases decoded : ReadRequest.de r.inVecs[0] with
  | error e =>
    rw [decoded] at converted
    exact iff_of_false (not_answered (processRequest_panics (.inr (.inl converted)))) fun ⟨_, other, _⟩ => nomatch other
  | ok readRequest =>
    rw [decoded] at converted
    dsimp only at converted
    have only : (∃ readRequest', (.ok readRequest : Except PSAError ReadRequest) = .ok readRequest' ∧
        FitsSlot service.hes r.outLens readRequest'.index.toNat readRequest'.swTypeSize.toNat
          readRequest'.versionSize.toNat) ↔ FitsSlot service.hes r.outLens readRequest.index.toNat
            readRequest.swTypeSize.toNat readRequest.versionSize.toNat :=
      ⟨fun ⟨_, same, fits⟩ => by cases same; exact fits, fun fits => ⟨_, rfl, fits⟩⟩
    rw [only]
    split at converted
    · rename_i outside
      refine ⟨fun _ i here => ?_, fun _ => answered_of_error converted (.inr rfl)⟩
      have inside := i.isLt
      omega
    · rw [answered_iff sound converted, carried_read]

theorem answered_extend (handle : r.handle = rssMeasuredBootServiceHandle) (extend : r.psaType = rssMeasuredBootExtend) :
    service.Answered r ↔ ∃ extendRequest, ExtendRequest.de r.inVecs[0] = .ok extendRequest ∧
      ∀ {algorithm}, measurementTypeOf extendRequest.measurementAlgo = some algorithm →
        extendRequest.swTypeSize.toNat ≤ swTypeMaxSize → service.ExtendsCleanly r extendRequest algorithm := by
  have converted : r.converted = convertMeasuredBootRequest r.psaType r.inVecs := by
    rw [PSARequest.converted, if_neg (by rw [handle]; decide), if_pos handle]
  rw [convertMeasuredBootRequest, if_neg (by rw [extend]; decide), if_pos extend] at converted
  cases decoded : ExtendRequest.de r.inVecs[0] with
  | error e =>
    rw [decoded] at converted
    exact iff_of_false (not_answered (processRequest_panics (.inr (.inl converted)))) fun ⟨_, other, _⟩ => nomatch other
  | ok extendRequest =>
    rw [decoded] at converted
    dsimp only at converted
    cases known : measurementTypeOf extendRequest.measurementAlgo with
    | none =>
      rw [known] at converted
      refine ⟨fun _ => ⟨_, rfl, fun named => ?_⟩, fun _ => answered_of_error converted (.inr rfl)⟩
      exact nomatch known.symm.trans named
    | some algorithm =>
      rw [known] at converted
      dsimp only at converted
      split at converted
      · rename_i long
        exact ⟨fun _ => ⟨_, rfl, fun _ short => by omega⟩, fun _ => answered_of_error converted (.inr rfl)⟩
      · rename_i short
        have clean : (∃ extendRequest', (.ok extendRequest : Except PSAError ExtendRequest) = .ok extendRequest' ∧
            ∀ {algorithm'}, measurementTypeOf extendRequest'.measurementAlgo = some algorithm' →
              extendRequest'.swTypeSize.toNat ≤ swTypeMaxSize → service.ExtendsCleanly r extendRequest' algorithm') ↔
            service.ExtendsCleanly r extendRequest algorithm := by
          refine ⟨fun ⟨_, same, cleanly⟩ => by cases same; exact cleanly known (by omega), fun cleanly => ?_⟩
          refine ⟨_, rfl, fun named _ => ?_⟩
          cases known.symm.trans named
          exact cleanly
        rw [clean]
        cases made : measurementOf r.inVecs extendRequest algorithm with
        | none =>
          rw [made] at converted
          refine iff_of_false (not_answered (processRequest_panics (.inl converted))) fun cleanly => ?_
          obtain ⟨_, made'⟩ := measurementOf_some cleanly.swType cleanly.signerId cleanly.swVersion cleanly.value
          exact nomatch made.symm.trans made'
        | some measurement =>
          rw [made] at converted
          obtain ⟨swType, signerId, swVersion, value, signer, rfl⟩ := of_measurementOf made
          rw [answered_iff sound converted, carried_extend sound, signer]
          exact ⟨fun quiet => ⟨swType, signerId, swVersion, value, quiet⟩, fun cleanly => cleanly.quiet⟩

theorem answered_vhuk (handle : r.handle = rssVhukServiceHandle) : service.Answered r ↔ SupportsVhuk r := by
  have converted : r.converted = some (convertVhukRequest r.psaType r.inVecs) := by
    rw [PSARequest.converted, if_neg (by rw [handle]; decide), if_neg (by rw [handle]; decide), if_pos handle]
  unfold SupportsVhuk
  rw [convertVhukRequest] at converted
  by_cases get : r.psaType = rssVhukGetKey
  · rw [if_pos get] at converted
    split at converted
    · rename_i rawKeyId only
      split at converted
      · rename_i a
        rw [answered_iff sound converted, carried_getVHuk sound, only, a]
        exact ⟨fun room => ⟨get, fun _ => room⟩, fun supported => supported.2 (.inl rfl)⟩
      split at converted
      · rename_i m
        rw [answered_iff sound converted, carried_getVHuk sound, only, m]
        exact ⟨fun room => ⟨get, fun _ => room⟩, fun supported => supported.2 (.inr rfl)⟩
      · rename_i notA notM
        rw [only]
        refine ⟨fun _ => ⟨get, fun named => ?_⟩, fun _ => answered_of_error converted (.inr rfl)⟩
        rcases named with named | named
        · exact absurd (List.cons.inj named).1 notA
        · exact absurd (List.cons.inj named).1 notM
    · rename_i other
      refine ⟨fun _ => ⟨get, fun named => ?_⟩, fun _ => answered_of_error converted (.inl rfl)⟩
      rcases named with named | named
      · exact absurd named (other _)
      · exact absurd named (other _)
  · rw [if_neg get] at converted
    exact iff_of_false (not_answered (processRequest_panics (.inr (.inr converted)))) fun supported => get supported.1

theorem answered_measuredBoot (handle : r.handle = rssMeasuredBootServiceHandle) :
    service.Answered r ↔ service.SupportsMeasuredBoot r := by
  unfold SupportsMeasuredBoot
  by_cases read : r.psaType = rssMeasuredBootRead
  · rw [if_pos read]
    exact answered_read sound handle read
  rw [if_neg read]
  by_cases extend : r.psaType = rssMeasuredBootExtend
  · rw [if_pos extend]
    exact answered_extend sound handle extend
  rw [if_neg extend]
  have converted : r.converted = some (.error .programmerError) := by
    rw [PSARequest.converted, if_neg (by rw [handle]; decide), if_pos handle, convertMeasuredBootRequest, if_neg read,
      if_neg extend]
  exact iff_of_false (not_answered (processRequest_panics (.inr (.inr converted)))) id

end Supports

/-- The request does not bring the application down; a request to one of the services is answered, and a measurement is
read if the client has room for it. -/
structure Robust (service : Service) (r : PSARequest) : Prop where
  answered : ∃ outcome service', service.processRequest r = some (outcome, service') ∧
    (r.KnownHandle → ∃ bytes, outcome = .replied bytes ∧ service.Answers r bytes)
  reads : r.handle = rssMeasuredBootServiceHandle → r.psaType = rssMeasuredBootRead →
    ∀ {readRequest} (i : Fin numOfMeasurementSlots), ReadRequest.de r.inVecs[0] = .ok readRequest →
      i.val = readRequest.index.toNat → (service.hes.measuredBootMgr.slot i).isPopulated = true →
      (asBytes (service.hes.measuredBootMgr.slot i).measurement.metadata.swType).length ≤
        readRequest.swTypeSize.toNat →
      (asBytes (service.hes.measuredBootMgr.slot i).measurement.metadata.swVersion).length ≤
        readRequest.versionSize.toNat →
      44 ≤ r.outLens[0] →
      (service.hes.measuredBootMgr.slot i).measurement.metadata.signerId.len ≤ r.outLens[1] →
      (service.hes.measuredBootMgr.slot i).measurement.value.len ≤ r.outLens[2] →
      ∃ data service', Response.Data (some (.readMeasurement (service.hes.measuredBootMgr.slot i).measurement
          (service.hes.measuredBootMgr.slot i).isLocked)) data ∧
        service.processRequest r = some (.replied (r.replyWith psaSuccess data), service')

theorem answered_iff_supports (sound : service.hes.Sound) (known : r.KnownHandle) :
    service.Answered r ↔ service.Supports r := by
  unfold Supports
  rcases known with handle | handle | handle
  · rw [if_pos handle]
    exact answered_attestation sound handle
  · rw [if_neg (by rw [handle]; decide), if_pos handle]
    exact answered_measuredBoot sound handle
  · rw [if_neg (by rw [handle]; decide), if_neg (by rw [handle]; decide), if_pos handle]
    exact answered_vhuk sound handle

/-- A measurement that fits is read. -/
theorem reads_slot {readRequest : ReadRequest} {i : Fin numOfMeasurementSlots} (sound : service.hes.Sound)
    (handle : r.handle = rssMeasuredBootServiceHandle) (read : r.psaType = rssMeasuredBootRead)
    (decoded : ReadRequest.de r.inVecs[0] = .ok readRequest) (here : i.val = readRequest.index.toNat)
    (used : (service.hes.measuredBootMgr.slot i).isPopulated = true)
    (swType : (asBytes (service.hes.measuredBootMgr.slot i).measurement.metadata.swType).length ≤
      readRequest.swTypeSize.toNat)
    (version : (asBytes (service.hes.measuredBootMgr.slot i).measurement.metadata.swVersion).length ≤
      readRequest.versionSize.toNat)
    (fits : Response.Fits r.outLens (some (.readMeasurement (service.hes.measuredBootMgr.slot i).measurement
      (service.hes.measuredBootMgr.slot i).isLocked))) :
    ∃ data service', Response.Data (some (.readMeasurement (service.hes.measuredBootMgr.slot i).measurement
        (service.hes.measuredBootMgr.slot i).isLocked)) data ∧
      service.processRequest r = some (.replied (r.replyWith psaSuccess data), service') := by
  have inside := i.isLt
  have converted : r.converted = some (.ok (.readMeasurement readRequest.index.toNat readRequest.swTypeSize.toNat
      readRequest.versionSize.toNat)) := by
    rw [PSARequest.converted, if_neg (by rw [handle]; decide), if_pos handle, convertMeasuredBootRequest, if_pos read,
      decoded]
    exact if_neg (by omega)
  have found := MeasurementMgr.readMeasurement_eq_ok.mpr ⟨i, here, used, rfl, rfl⟩
  have called : Request.execute service.hes (.readMeasurement readRequest.index.toNat readRequest.swTypeSize.toNat
      readRequest.versionSize.toNat) = some ((psaSuccess, some (.readMeasurement
        (service.hes.measuredBootMgr.slot i).measurement (service.hes.measuredBootMgr.slot i).isLocked)),
          service.hes) := by
    rw [Request.execute, IsletHES.readMeasurement, found]
    exact if_neg (by omega)
  obtain ⟨data, carries, served⟩ := replies sound converted called fits
  exact ⟨data, _, carries, served⟩

theorem robust_iff_supports (sound : service.hes.Sound) : service.Robust r ↔ service.Supports r := by
  by_cases known : r.KnownHandle
  · rw [← answered_iff_supports sound known]
    constructor
    · intro robust
      obtain ⟨_, service', served, replied⟩ := robust.answered
      obtain ⟨bytes, rfl, answers⟩ := replied known
      exact ⟨bytes, service', served, answers⟩
    · intro answered
      obtain ⟨bytes, service', served, answers⟩ := answered
      refine ⟨⟨_, service', served, fun _ => ⟨bytes, rfl, answers⟩⟩, ?_⟩
      intro handle read readRequest i decoded here used swType version _ _ _
      obtain ⟨_, decoded', fits⟩ := (answered_read sound handle read).mp ⟨bytes, service', served, answers⟩
      cases decoded.symm.trans decoded'
      exact reads_slot sound handle read decoded here used swType version (fits i here used swType version)
  · simp only [PSARequest.KnownHandle, not_or] at known
    have converted : r.converted = some (.error .serviceHandleError) := by
      rw [PSARequest.converted, if_neg known.1, if_neg known.2.1, if_neg known.2.2]
    obtain ⟨service', served⟩ : ∃ service', service.processRequest r = some (.ignored, service') :=
      processRequest_ignored converted
    have supported : service.Supports r := by
      rw [Supports, if_neg known.1, if_neg known.2.1, if_neg known.2.2]
      trivial
    refine iff_of_true ⟨⟨_, service', served, fun named => ?_⟩, fun handle => absurd handle known.2.1⟩ supported
    rcases named with named | named | named
    · exact absurd named known.1
    · exact absurd named known.2.1
    · exact absurd named known.2.2

/-! ### Runs -/

/-- The states of the application while it serves: after its start, after a request that did not bring it down, and
after a new connection, which resets the library. -/
inductive Reachable : Service → Prop
  | start {guk : Option (ArrayVec 32)} {blHash : Option (ArrayVec maxHashValueSize)} {hes : IsletHES}
    (started : IsletHES.init (dummyHW guk blHash) = some (.ok hes)) : Reachable ⟨{}, hes⟩
  | request {service service' : Service} {r : PSARequest} {outcome : Outcome} (reach : Reachable service)
    (served : service.processRequest r = some (outcome, service')) : Reachable service'
  | reconnect {service : Service} {guk : Option (ArrayVec 32)} {blHash : Option (ArrayVec maxHashValueSize)}
    {hes : IsletHES} (reach : Reachable service) (reset : service.hes.reset (dummyHW guk blHash) = some hes) :
    Reachable ⟨{}, hes⟩

omit [Libraries] in
/-- The measurements of the emulated hardware are well formed. -/
theorem dummyHW_valid (guk : Option (ArrayVec 32)) (blHash : Option (ArrayVec maxHashValueSize)) :
    ∀ b ∈ (dummyHW guk blHash).bootMeasurements, ∃ m, Measurement.tryFrom b = .ok m := by
  intro b member
  rcases List.mem_cons.mp member with rfl | member
  · exact ⟨_, rfl⟩
  · rw [List.mem_singleton.mp member]
    exact ⟨_, rfl⟩

theorem dummyHW_boot (guk : Option (ArrayVec 32)) (blHash : Option (ArrayVec maxHashValueSize)) :
    ∃ mgr, MeasurementMgr.init (dummyHW guk blHash).bootMeasurements = some mgr ∧ mgr.Sound :=
  MeasurementMgr.Sound.boot (by change 2 ≤ 32; decide) (dummyHW_valid guk blHash)

theorem sound_of_init {guk : Option (ArrayVec 32)} {blHash : Option (ArrayVec maxHashValueSize)}
    (started : IsletHES.init (dummyHW guk blHash) = some (.ok hes)) : hes.Sound := by
  obtain ⟨mgr, booted, sound⟩ := dummyHW_boot guk blHash
  obtain ⟨mgr', booted', started⟩ := Option.bind_eq_some_iff.mp started
  cases booted.symm.trans booted'
  split at started
  · obtain ⟨attestationMgr, made, same⟩ := Option.bind_eq_some_iff.mp started
    cases same
    obtain ⟨seed, seeded, made⟩ := Option.bind_eq_some_iff.mp made
    obtain ⟨key, _, made⟩ := Option.bind_eq_some_iff.mp made
    obtain ⟨instanceId, _, same⟩ := Option.bind_eq_some_iff.mp made
    cases same
    exact ⟨sound, rfl, size_of_generateSeed seeded, nofun⟩
  · exact nomatch started
  · exact nomatch started

/-- A request that is served leaves the library as the call did. -/
theorem sound_of_processRequest (sound : service.hes.Sound)
    (served : service.processRequest r = some (outcome, service')) : service'.hes.Sound := by
  cases converted : r.converted with
  | none => exact nomatch (processRequest_panics (.inl converted)).symm.trans served
  | some converted' =>
    cases converted' with
    | ok request =>
      rw [processRequest_ok converted] at served
      obtain ⟨⟨x, hes'⟩, called, replied⟩ := Option.bind_eq_some_iff.mp served
      obtain ⟨_, _, _, _, rfl⟩ := reply_iff.mp replied
      exact Request.execute_sound sound called
    | error e =>
      cases e with
      | serviceHandleError | communicationError =>
        rw [processRequest, convertRequest_eq, converted] at served
        cases served
        exact sound
      | psaSerdeError => exact nomatch (processRequest_panics (.inr (.inl converted))).symm.trans served
      | programmerError => exact nomatch (processRequest_panics (.inr (.inr converted))).symm.trans served
      | bufferTooSmall | invalidArgument | genericError =>
        rw [processRequest_refused converted rfl nofun] at served
        obtain ⟨_, _, _, _, rfl⟩ := reply_iff.mp served
        exact sound

theorem Reachable.sound (reach : service.Reachable) : service.hes.Sound := by
  induction reach with
  | start started => exact sound_of_init started
  | request _ served ih => exact sound_of_processRequest ih served
  | @reconnect service guk blHash hes _ reset ih =>
    obtain ⟨mgr, booted, sound⟩ := dummyHW_boot guk blHash
    obtain ⟨mgr', booted', same⟩ := Option.bind_eq_some_iff.mp reset
    cases booted.symm.trans booted'
    cases same
    exact ⟨sound, ih.huk, ih.guk, nofun⟩

omit [Libraries] in
/-- Libraries whose results are all zero. -/
@[reducible]
def zeroLibraries : Libraries where
  digest algorithm _ := List.replicate algorithm.hashLen 0
  length_digest _ _ := List.length_replicate
  encryptBlock _ block := List.replicate block.length 0
  length_encryptBlock _ _ := List.length_replicate
  hkdfExpand _ _ size := List.replicate size 0
  length_hkdfExpand _ _ _ := List.length_replicate
  publicKey _ _ := []
  trySign _ _ := some []
  intoWriter _ := []
  tbsData _ := []
  toTaggedVec _ _ := []
  padding := #v[0, 0, 0]

/-- A request for the authority key. -/
def vhukRequest : PSARequest where
  protocolVer := 0
  seqNum := 0
  clientId := 1
  handle := rssVhukServiceHandle
  psaType := rssVhukGetKey
  inVecs := #v[[1], [], [], []]
  outLens := #v[32, 0, 0, 0]

/-- A request for the first measurement, with more room than is needed. -/
def readRequest : PSARequest where
  protocolVer := 0
  seqNum := 0
  clientId := 1
  handle := rssMeasuredBootServiceHandle
  psaType := rssMeasuredBootRead
  inVecs := #v[[0, 255, 255], [], [], []]
  outLens := #v[4096, 4096, 4096, 0]

/-- In every state of the application the requests that it can deal with, and no others, are answered. -/
theorem Reachable.robust_iff (reach : service.Reachable) (r : PSARequest) : service.Robust r ↔ service.Supports r :=
  robust_iff_supports reach.sound

omit [Libraries] in
/-- The application has started, and is asked for the authority key. -/
theorem robust_vhuk : ∃ _ : Libraries, ∃ service : Service, service.Reachable ∧ service.Robust vhukRequest := by
  let libraries := zeroLibraries
  obtain ⟨hes, started⟩ : ∃ hes, IsletHES.init (dummyHW none none) = some (.ok hes) := ⟨_, rfl⟩
  have reach : Reachable ⟨{}, hes⟩ := .start started
  exact ⟨libraries, _, reach, (reach.robust_iff vhukRequest).mpr ⟨rfl, fun _ => Nat.le_refl 32⟩⟩

omit [Libraries] in
/-- It is asked for the measurement of BL1, whose name is shorter than the field of the reply. -/
theorem read_panics : ∃ _ : Libraries, ∃ service : Service, service.Reachable ∧
    (service.hes.measuredBootMgr.slot 0).isPopulated = true ∧ service.processRequest readRequest = none ∧
    ¬service.Robust readRequest := by
  let libraries := zeroLibraries
  obtain ⟨hes, started, used, served⟩ : ∃ hes, IsletHES.init (dummyHW none none) = some (.ok hes) ∧
      (hes.measuredBootMgr.slot 0).isPopulated = true ∧ Service.processRequest ⟨{}, hes⟩ readRequest = none :=
    ⟨_, rfl, rfl, rfl⟩
  refine ⟨libraries, _, .start started, used, served, fun robust => ?_⟩
  obtain ⟨_, _, served', _⟩ := robust.answered
  exact nomatch served.symm.trans served'

end Service

end Islet.Hes
