import Islet.Rmm.Measurement
import Islet.Rmm.Realm.Pages

/-! Measurements as functions of what was measured: the initial measurement after
one more operation, and a slot after one more extension by the realm. -/

namespace Islet.Rmm

open HashContext

variable [Platform]

namespace HashContext

/-- The type field of the descriptor of an operation. -/
def opType : MeasuredOp → Nat
  | .data _ _ _ => 0
  | .recCreate _ => 1
  | .ripas _ _ => 2

/-- What follows the header in the descriptor of an operation. -/
def opBody (algo : Nat) : MeasuredOp → List Byte
  | .data ipa flags content =>
    u64Bytes ipa ++ u64Bytes flags ++
      (if flags = rmiMeasureContent then hashFieldsInto algo .empty content.bytes
        else Measurement.empty).toList ++ zeros (0x100 - 0xa0)
  | .recCreate params =>
    (hashFieldsInto algo .empty (recParamsBytes ⟨params⟩)).toList ++ zeros (0x100 - 0x90)
  | .ripas base top => u64Bytes base ++ u64Bytes top ++ zeros (0x100 - 0x60)

/-- The initial measurement after one more operation. -/
def rimAfter (algo : Nat) (rim : Measurement) (op : MeasuredOp) : Measurement :=
  hashFieldsInto algo rim (descriptor (opType op) rim ++ opBody algo op)

/-- A slot after one more extension. -/
def slotAfter (algo : Nat) (slot : Measurement) (buffer : List Byte) : Measurement :=
  hashFieldsInto algo slot (slot.toList.take (hashOutputSize algo) ++ buffer)

/-- The initial measurement of a realm that was just created. -/
def rimOf (algo : Nat) (params : RealmParams) : Measurement :=
  hashFieldsInto algo .empty (realmParamsBytes params)

/-- The digest of the algorithm, without the slot it goes into. -/
def digest (algo : Nat) (data : List Byte) : List Byte :=
  if algo = hashAlgoSha256 then (Platform.sha256 data).toList else (Platform.sha512 data).toList

/-- The digest of everything so far and the next buffer, over and over, from zeros on. -/
def chain (algo : Nat) (buffers : List (List Byte)) : List Byte :=
  buffers.foldl (fun value buffer => digest algo (value ++ buffer)) (zeros (hashOutputSize algo))

theorem length_digest (algo : Nat) (data : List Byte) : (digest algo data).length = hashOutputSize algo := by
  unfold digest hashOutputSize
  split <;> simp

/-- The digest takes the front of the slot, and the rest stays. -/
theorem toList_hashFieldsInto (algo : Nat) (out : Measurement) (data : List Byte) :
    (hashFieldsInto algo out data).toList = digest algo data ++ out.toList.drop (hashOutputSize algo) := by
  unfold hashFieldsInto digest hashOutputSize
  split
  · refine List.ext_getElem (by simp) fun i inside _ => ?_
    by_cases low : i < 32
    · rw [List.getElem_append_left (by simpa using low)]
      simp only [Vector.getElem_toList, Vector.getElem_ofFn, low, dif_pos]
      rfl
    · rw [List.getElem_append_right (by simpa using low)]
      simp only [Vector.getElem_toList, Vector.getElem_ofFn, low, dif_neg, not_false_eq_true, List.getElem_drop,
        Vector.length_toList, show 32 + (i - 32) = i by omega]
      rfl
  · simp

omit [Platform] in
theorem hashOutputSize_le (algo : Nat) : hashOutputSize algo ≤ 64 := by
  unfold hashOutputSize
  split <;> omega

/-- A slot that is extended over and over holds the chain, and zeros after it. -/
theorem toList_slots (algo : Nat) (buffers : List (List Byte)) :
    (buffers.foldl (slotAfter algo) .empty).toList =
      chain algo buffers ++ zeros (64 - hashOutputSize algo) := by
  have small := hashOutputSize_le algo
  -- any slot of this form keeps it
  suffices forms : ∀ (slot : Measurement) (value : List Byte), value.length = hashOutputSize algo →
      slot.toList = value ++ zeros (64 - hashOutputSize algo) →
      (buffers.foldl (slotAfter algo) slot).toList =
        buffers.foldl (fun value buffer => digest algo (value ++ buffer)) value ++
          zeros (64 - hashOutputSize algo) by
    refine forms .empty _ (by simp [zeros]) ?_
    simp [Measurement.empty, zeros, show hashOutputSize algo + (64 - hashOutputSize algo) = 64 by omega]
  induction buffers with
  | nil => exact fun slot value _ form => form
  | cons buffer buffers ih =>
    intro slot value length form
    refine ih _ _ (length_digest algo _) ?_
    rw [slotAfter, toList_hashFieldsInto, form, List.take_left' length, List.drop_left' length]

end HashContext

/-- The descriptor with one slot replaced. -/
def Rd.setSlot (rd : Rd) (slot : Fin measurementsSlotNr) (value : Measurement) : Rd :=
  { rd with measurements := rd.measurements.set slot value }

def Rd.rim (rd : Rd) : Measurement := rd.measurements.get 0

def Rd.measured (rd : Rd) (op : MeasuredOp) : Rd := rd.setSlot 0 (rimAfter rd.hashAlgo rd.rim op)

def Rd.extended (rd : Rd) (slot : Fin measurementsSlotNr) (buffer : List Byte) : Rd :=
  rd.setSlot slot (slotAfter rd.hashAlgo (rd.measurements.get slot) buffer)

omit [Platform] in
theorem Rd.get_setSlot (rd : Rd) (slot other : Fin measurementsSlotNr) (value : Measurement) :
    (rd.setSlot slot value).measurements.get other =
      if other = slot then value else rd.measurements.get other := by
  change (rd.measurements.set slot.val value)[other.val] = if other = slot then value else rd.measurements[other.val]
  rw [Vector.getElem_set]
  simp only [Fin.ext_iff, eq_comm]

section

variable {rd : Rd} (hash : rd.hashAlgo = 0 ∨ rd.hashAlgo = 1)
include hash

omit [Platform] in
theorem HashContext.new_ok : HashContext.new rd = .ok () := if_pos hash

theorem HashContext.measureDataGranule_ok (page : Page) (ipa flags : Nat) :
    measureDataGranule rd page ipa flags = .ok (rd.measured (.data ipa flags page)) := by
  unfold measureDataGranule extendRim
  rw [new_ok hash]
  rfl

theorem HashContext.measureRecParams_ok (params : RecParams) :
    measureRecParams rd params = .ok (rd.measured (.recCreate params.page)) := by
  unfold measureRecParams extendRim
  rw [new_ok hash]
  rfl

theorem HashContext.measureRipasGranule_ok (base top : Nat) :
    measureRipasGranule rd base top = .ok (rd.measured (.ripas base top)) := by
  unfold measureRipasGranule extendRim
  rw [new_ok hash]
  rfl

theorem HashContext.measureRealmCreate_ok (params : RealmParams) (fresh : rd.rim = .empty) :
    measureRealmCreate rd params = .ok (rd.setSlot 0 (rimOf rd.hashAlgo params)) := by
  unfold measureRealmCreate rimOf
  rw [new_ok hash, ← fresh]
  rfl

theorem HashContext.extendMeasurement_ok (buffer : List Byte) {index : Nat}
    (inside : index < measurementsSlotNr) :
    extendMeasurement rd buffer index = .ok (rd.extended ⟨index, inside⟩ buffer) := by
  unfold extendMeasurement extend
  rw [new_ok hash]
  simp only [dif_pos inside]
  rfl

end

end Islet.Rmm
