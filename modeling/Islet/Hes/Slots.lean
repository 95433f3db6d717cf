import Islet.Hes.MeasuredBoot

/-! What the measurement slots hold after any calls: the chain of digests over the
values that were accepted. The calls are followed together with a record of what
each slot accepted, from which the contents of the slot can be computed again. -/

namespace Islet.Hes

variable [Sha]

/-! ### Chains of digests -/

/-- `H(...H(H(0 || v₁) || v₂)... || vₖ)`. -/
def MeasurementType.chain (algorithm : MeasurementType) (values : List (List Byte)) : List Byte :=
  values.foldl (fun old value => Sha.digest algorithm (old ++ value)) (List.replicate algorithm.hashLen 0)

namespace MeasurementType

theorem chain_concat (algorithm : MeasurementType) (values : List (List Byte)) (value : List Byte) :
    algorithm.chain (values ++ [value]) = Sha.digest algorithm (algorithm.chain values ++ value) := by
  simp [chain]

theorem length_chain (algorithm : MeasurementType) (values : List (List Byte)) :
    (algorithm.chain values).length = algorithm.hashLen := by
  rcases List.eq_nil_or_concat values with rfl | ⟨front, last, rfl⟩
  · simp [chain]
  · rw [List.concat_eq_append, chain_concat, Sha.length_digest]

omit [Sha] in
theorem hashLen_le (algorithm : MeasurementType) : algorithm.hashLen ≤ maxHashValueSize := by
  cases algorithm <;> decide

end MeasurementType

omit [Sha] in
theorem ArrayVec.copyFromSlice_same {capacity : Nat} {v : ArrayVec capacity} {src : List Byte}
    (same : src.length = v.len) : ∃ w, v.copyFromSlice src = some w ∧ w.bytes = src := by
  refine ⟨_, dif_pos (Nat.le_of_eq same), ?_⟩
  exact List.append_right_eq_self.mpr (List.drop_eq_nil_of_le (Nat.le_of_eq same.symm))

/-! ### One slot -/

/-- A measurement that a slot accepted, with the lock flag it came with. -/
structure Accepted where
  measurement : Measurement
  lock : Bool

def Accepted.bytes (a : Accepted) : List Byte := a.measurement.value.bytes

namespace MeasurementSlot

variable {slot : MeasurementSlot} {accepted : List Accepted} {measurement : Measurement} {lock : Bool}

/-- The slot holds what the accepted measurements make of it. -/
structure Records (slot : MeasurementSlot) (accepted : List Accepted) : Prop where
  blank : accepted = [] → slot = {}
  populated : accepted ≠ [] → slot.isPopulated = true
  locked : slot.isLocked = accepted.any Accepted.lock
  value : accepted ≠ [] → slot.measurement.value.bytes =
    slot.measurement.metadata.algorithm.chain (accepted.map Accepted.bytes)

theorem records_nil : Records {} [] :=
  ⟨fun _ => rfl, fun used => absurd rfl used, rfl, fun used => absurd rfl used⟩

theorem Records.isPopulated (records : slot.Records accepted) : slot.isPopulated = true ↔ accepted ≠ [] := by
  refine ⟨fun populated none => ?_, records.populated⟩
  rw [records.blank none] at populated
  exact nomatch populated

/-- With a value of the size of a digest, the slices of `extend_value` exist. -/
theorem extendValue_chain {values : List (List Byte)} (value : ValueHash) (lock : Bool)
    (held : slot.measurement.value.bytes = slot.measurement.metadata.algorithm.chain values) :
    ∃ slot', slot.extendValue value lock = some slot' ∧ slot'.isPopulated = true ∧ slot'.isLocked = lock ∧
      slot'.measurement.metadata = slot.measurement.metadata ∧
      slot'.measurement.value.bytes = slot.measurement.metadata.algorithm.chain (values ++ [value.bytes]) := by
  have size : slot.measurement.value.len = slot.measurement.metadata.algorithm.hashLen := by
    rw [ArrayVec.len, held, MeasurementType.length_chain]
  have whole : slot.measurement.value.bytes.take slot.measurement.metadata.algorithm.hashLen =
      slot.measurement.metadata.algorithm.chain values := by
    rw [← size, ← held]
    exact List.take_length
  obtain ⟨stored, copied, bytes⟩ := ArrayVec.copyFromSlice_same
    ((Sha.length_digest slot.measurement.metadata.algorithm
      (slot.measurement.metadata.algorithm.chain values ++ value.bytes)).trans size.symm)
  refine ⟨{ slot with measurement.value := stored, isPopulated := true, isLocked := lock }, ?_, rfl, rfl, rfl, ?_⟩
  · simp [extendValue, guard, size, whole, copied]
  · rw [MeasurementType.chain_concat]
    exact bytes

theorem initializeWith_records (measurement : Measurement) (lock : Bool) :
    ∃ slot, initializeWith {} measurement lock = some slot ∧ slot.Records [⟨measurement, lock⟩] ∧
      slot.measurement.metadata = measurement.metadata := by
  let algorithm := measurement.metadata.algorithm
  obtain ⟨zeros, resized, bytes⟩ : ∃ zeros : ValueHash, ArrayVec.empty.resize algorithm.hashLen 0 = some zeros ∧
      zeros.bytes = algorithm.chain [] := by
    refine ⟨_, dif_pos algorithm.hashLen_le, ?_⟩
    simp [ArrayVec.empty, ArrayVec.len, MeasurementType.chain]
  let blank : MeasurementSlot := { measurement := { metadata := measurement.metadata, value := zeros } }
  have held : blank.measurement.value.bytes = blank.measurement.metadata.algorithm.chain [] := bytes
  obtain ⟨slot, extended, populated, locked, metadata, value⟩ := extendValue_chain measurement.value lock held
  refine ⟨slot, ?_, ⟨nofun, fun _ => populated, by simp [locked], fun _ => ?_⟩, metadata⟩
  · simpa [initializeWith, guard, resized, algorithm] using extended
  · rw [value, metadata]
    rfl

theorem Records.extend (records : slot.Records accepted) (used : accepted ≠ []) (unlocked : slot.isLocked = false) :
    ∃ slot', slot.extend measurement lock = some slot' ∧ slot'.Records (accepted ++ [⟨measurement, lock⟩]) ∧
      slot'.measurement.metadata.algorithm = slot.measurement.metadata.algorithm ∧
      slot'.measurement.metadata.signerId = slot.measurement.metadata.signerId := by
  have held : (slot.extendMetadata measurement.metadata).measurement.value.bytes =
      (slot.extendMetadata measurement.metadata).measurement.metadata.algorithm.chain (accepted.map Accepted.bytes) :=
    records.value used
  obtain ⟨slot', extended, populated, locked, metadata, value⟩ := extendValue_chain measurement.value lock held
  refine ⟨slot', extended, ⟨by simp, fun _ => populated, ?_, fun _ => ?_⟩, by rw [metadata]; rfl, by rw [metadata]; rfl⟩
  · rw [locked, List.any_append, ← records.locked, unlocked]
    simp
  · rw [value, metadata, List.map_append]
    rfl

end MeasurementSlot

/-! ### Calls -/

inductive Call where
  | extendMeasurement (slotId : Nat) (measurement : Measurement) (lock : Bool)
  | readMeasurement (slotId : Nat)

namespace Call

def slotId : Call → Nat
  | extendMeasurement slotId _ _ => slotId
  | readMeasurement slotId => slotId

/-- The outcome of a call, without the measurement that was read, and the manager it leaves. -/
def exec : Call → MeasurementMgr → Option (Except MeasurementError Unit × MeasurementMgr)
  | extendMeasurement slotId measurement lock, mgr => mgr.extendMeasurement slotId measurement lock
  | readMeasurement slotId, mgr => some ((mgr.readMeasurement slotId).map fun _ => (), mgr)

omit [Sha] in
/-- What the slots have accepted once the call has succeeded. -/
def record (c : Call) (accepted : Fin numOfMeasurementSlots → List Accepted) :
    Fin numOfMeasurementSlots → List Accepted :=
  match c with
  | extendMeasurement slotId measurement lock => fun i =>
    if i.val = slotId then accepted i ++ [⟨measurement, lock⟩] else accepted i
  | readMeasurement _ => accepted

end Call

/-- A manager and what its slots accepted. -/
structure Session where
  mgr : MeasurementMgr
  accepted : Fin numOfMeasurementSlots → List Accepted

namespace Session

/-- The measurements that the boot left in the slots. -/
def bootAccepted (boot : List BootMeasurement) (i : Nat) : List Accepted :=
  match boot[i]?.map Measurement.tryFrom with
  | some (.ok measurement) => [⟨measurement, false⟩]
  | _ => []

def start (boot : List BootMeasurement) : Option Session := do
  let mgr ← MeasurementMgr.init boot
  return ⟨mgr, fun i => bootAccepted boot i⟩

def step (w : Session) (c : Call) : Option Session := do
  match ← c.exec w.mgr with
  | (.ok _, mgr) => return ⟨mgr, c.record w.accepted⟩
  | (.error _, mgr) => return ⟨mgr, w.accepted⟩

def run (w : Session) (calls : List Call) : Option Session := calls.foldlM step w

/-- Every slot holds what it accepted. -/
def Sound (w : Session) : Prop := ∀ i, (w.mgr.slot i).Records (w.accepted i)

/-- Slots in use keep their signer and their algorithm, locked slots keep everything. -/
structure Later (w w' : Session) : Prop where
  populated : ∀ i, (w.mgr.slot i).isPopulated = true → (w'.mgr.slot i).isPopulated = true
  algorithm : ∀ i, (w.mgr.slot i).isPopulated = true →
    (w'.mgr.slot i).measurement.metadata.algorithm = (w.mgr.slot i).measurement.metadata.algorithm
  signerId : ∀ i, (w.mgr.slot i).isPopulated = true →
    (w'.mgr.slot i).measurement.metadata.signerId = (w.mgr.slot i).measurement.metadata.signerId
  locked : ∀ i, (w.mgr.slot i).isLocked = true → w'.mgr.slot i = w.mgr.slot i

variable {w w' w'' : Session} {c : Call}

omit [Sha] in
theorem Later.refl (w : Session) : w.Later w :=
  ⟨fun _ => id, fun _ _ => rfl, fun _ _ => rfl, fun _ _ => rfl⟩

omit [Sha] in
theorem Later.trans (first : w.Later w') (second : w'.Later w'') : w.Later w'' := by
  refine ⟨fun i used => second.populated i (first.populated i used), fun i used => ?_, fun i used => ?_, fun i locked => ?_⟩
  · exact (second.algorithm i (first.populated i used)).trans (first.algorithm i used)
  · exact (second.signerId i (first.populated i used)).trans (first.signerId i used)
  · have same := first.locked i locked
    rw [second.locked i (by rw [same]; exact locked), same]

end Session

namespace MeasurementMgr

variable {mgr : MeasurementMgr} {i j : Fin numOfMeasurementSlots} {slot : MeasurementSlot}

omit [Sha] in
@[simp] theorem slot_setSlot_same : (mgr.setSlot i slot).slot i = slot := by
  simp [MeasurementMgr.slot, setSlot]

omit [Sha] in
theorem slot_setSlot_of_ne (other : j ≠ i) : (mgr.setSlot i slot).slot j = mgr.slot j := by
  have apart : i.val ≠ j.val := fun same => other (Fin.ext same.symm)
  simp [MeasurementMgr.slot, setSlot, apart]

/-- A call fails and leaves everything as it was, or puts a new measurement into a slot that is not locked. -/
inductive Extends (mgr : MeasurementMgr) (slotId : Nat) (measurement : Measurement) (lock : Bool) :
    Except MeasurementError Unit → MeasurementMgr → Prop where
  | failed (e : MeasurementError) : Extends mgr slotId measurement lock (.error e) mgr
  | first {i : Fin numOfMeasurementSlots} {slot : MeasurementSlot} (here : i.val = slotId)
    (fresh : (mgr.slot i).isPopulated = false) (stored : (mgr.slot i).initializeWith measurement lock = some slot) :
    Extends mgr slotId measurement lock (.ok ()) (mgr.setSlot i slot.markAsPopulated)
  | next {i : Fin numOfMeasurementSlots} {slot : MeasurementSlot} (here : i.val = slotId)
    (unlocked : (mgr.slot i).isLocked = false) (used : (mgr.slot i).isPopulated = true)
    (stored : (mgr.slot i).extend measurement lock = some slot) :
    Extends mgr slotId measurement lock (.ok ()) (mgr.setSlot i slot)

theorem extends_of_extendMeasurement {slotId : Nat} {measurement : Measurement} {lock : Bool}
    {outcome : Except MeasurementError Unit} {mgr' : MeasurementMgr}
    (called : mgr.extendMeasurement slotId measurement lock = some (outcome, mgr')) :
    mgr.Extends slotId measurement lock outcome mgr' := by
  unfold extendMeasurement at called
  split at called
  case isFalse => cases called; exact .failed _
  rename_i inside
  dsimp only at called
  split at called
  · cases called; exact .failed _
  rename_i unlocked
  split at called
  · rename_i used
    split at called
    · cases called; exact .failed _
    · obtain ⟨slot, stored, same⟩ := Option.bind_eq_some_iff.mp called
      cases same
      exact .next (i := ⟨slotId, inside⟩) rfl (eq_false_of_ne_true unlocked) used stored
  · rename_i fresh
    obtain ⟨slot, stored, same⟩ := Option.bind_eq_some_iff.mp called
    cases same
    exact .first (i := ⟨slotId, inside⟩) rfl (eq_false_of_ne_true fresh) stored

end MeasurementMgr

namespace Call

variable {mgr mgr' : MeasurementMgr} {outcome : Except MeasurementError Unit} {c : Call}

theorem exec_error {e : MeasurementError} (called : c.exec mgr = some (.error e, mgr')) : mgr' = mgr := by
  cases c with
  | readMeasurement slotId => exact (Prod.mk.inj (Option.some.inj called)).2.symm
  | extendMeasurement slotId measurement lock =>
    cases MeasurementMgr.extends_of_extendMeasurement called with
    | failed => rfl

theorem exec_other {i : Fin numOfMeasurementSlots} (called : c.exec mgr = some (outcome, mgr'))
    (other : i.val ≠ c.slotId) : mgr'.slot i = mgr.slot i := by
  cases c with
  | readMeasurement slotId =>
    cases called
    rfl
  | extendMeasurement slotId measurement lock =>
    cases MeasurementMgr.extends_of_extendMeasurement called with
    | failed => rfl
    | first here => exact MeasurementMgr.slot_setSlot_of_ne fun same => other (same ▸ here)
    | next here => exact MeasurementMgr.slot_setSlot_of_ne fun same => other (same ▸ here)

end Call

namespace Session

variable {w w' : Session} {c : Call}

/-- With sound slots no call panics. -/
theorem Sound.exec (sound : w.Sound) (c : Call) : ∃ outcome mgr', c.exec w.mgr = some (outcome, mgr') := by
  cases c with
  | readMeasurement slotId => exact ⟨_, _, rfl⟩
  | extendMeasurement slotId measurement lock =>
    simp only [Call.exec, MeasurementMgr.extendMeasurement]
    split
    case isFalse => exact ⟨_, _, rfl⟩
    rename_i inside
    have records := sound ⟨slotId, inside⟩
    split
    · exact ⟨_, _, rfl⟩
    rename_i unlocked
    split
    · rename_i used
      split
      · exact ⟨_, _, rfl⟩
      · obtain ⟨slot, stored, _⟩ := records.extend (records.isPopulated.mp used) (eq_false_of_ne_true unlocked)
        exact ⟨_, _, Option.bind_eq_some_iff.mpr ⟨slot, stored, rfl⟩⟩
    · rename_i fresh
      have none : w.accepted ⟨slotId, inside⟩ = [] := by
        by_contra used
        exact fresh (records.populated used)
      obtain ⟨slot, stored, _⟩ := MeasurementSlot.initializeWith_records measurement lock
      refine ⟨_, _, Option.bind_eq_some_iff.mpr ⟨slot, ?_, rfl⟩⟩
      rw [show w.mgr.measurements[slotId] = {} from records.blank none]
      exact stored

theorem Sound.store {i : Fin numOfMeasurementSlots} {slot : MeasurementSlot} {measurement : Measurement} {lock : Bool}
    (sound : w.Sound) (stored : slot.Records (w.accepted i ++ [⟨measurement, lock⟩])) :
    Sound ⟨w.mgr.setSlot i slot, Call.record (.extendMeasurement i measurement lock) w.accepted⟩ := by
  intro j
  by_cases same : j = i
  · subst same
    simpa [Call.record] using stored
  · have apart : j.val ≠ i.val := fun equal => same (Fin.ext equal)
    simpa [Call.record, apart, MeasurementMgr.slot_setSlot_of_ne same] using sound j

omit [Sha] in
theorem Later.store {i : Fin numOfMeasurementSlots} {slot : MeasurementSlot}
    {accepted : Fin numOfMeasurementSlots → List Accepted} (unlocked : (w.mgr.slot i).isLocked = false)
    (kept : (w.mgr.slot i).isPopulated = true → slot.isPopulated = true ∧
      slot.measurement.metadata.algorithm = (w.mgr.slot i).measurement.metadata.algorithm ∧
      slot.measurement.metadata.signerId = (w.mgr.slot i).measurement.metadata.signerId) :
    w.Later ⟨w.mgr.setSlot i slot, accepted⟩ := by
  have other : ∀ {j}, j ≠ i → (w.mgr.setSlot i slot).slot j = w.mgr.slot j := MeasurementMgr.slot_setSlot_of_ne
  refine ⟨fun j used => ?_, fun j used => ?_, fun j used => ?_, fun j locked => ?_⟩ <;> by_cases same : j = i
  all_goals first | subst same; rw [MeasurementMgr.slot_setSlot_same] | rw [other same]
  · exact (kept used).1
  · exact used
  · exact (kept used).2.1
  · exact (kept used).2.2
  · exact nomatch unlocked.symm.trans locked

/-- One call keeps the slots sound, and what has to stay stays. -/
theorem Sound.step (sound : w.Sound) (c : Call) : ∃ w', w.step c = some w' ∧ w'.Sound ∧ w.Later w' := by
  obtain ⟨outcome, mgr', called⟩ := sound.exec c
  cases outcome with
  | error e =>
    cases Call.exec_error called
    exact ⟨w, by simp [Session.step, called], sound, .refl w⟩
  | ok =>
    refine ⟨⟨mgr', c.record w.accepted⟩, by simp [Session.step, called], ?_⟩
    cases c with
    | readMeasurement slotId =>
      cases (Prod.mk.inj (Option.some.inj called)).2
      exact ⟨sound, .refl w⟩
    | extendMeasurement slotId measurement lock =>
      cases MeasurementMgr.extends_of_extendMeasurement called with
      | @first i slot here fresh stored =>
        subst here
        have records := sound i
        have none : w.accepted i = [] := by
          by_contra used
          exact nomatch fresh.symm.trans (records.populated used)
        rw [records.blank none] at stored
        obtain ⟨slot', stored', records', _⟩ := MeasurementSlot.initializeWith_records measurement lock
        cases stored.symm.trans stored'
        have marked : slot.markAsPopulated = slot := by
          rw [MeasurementSlot.markAsPopulated, ← records'.populated (by simp)]
        rw [marked]
        refine ⟨sound.store (by rw [none]; exact records'), .store ?_ fun used => ?_⟩
        · rw [records.blank none]
        · exact nomatch fresh.symm.trans used
      | @next i slot here unlocked used stored =>
        subst here
        obtain ⟨slot', stored', records', algorithm, signer⟩ := (sound i).extend ((sound i).isPopulated.mp used) unlocked
        cases stored.symm.trans stored'
        exact ⟨sound.store records', .store unlocked fun _ => ⟨records'.populated (by simp), algorithm, signer⟩⟩

theorem Sound.run (sound : w.Sound) (calls : List Call) : ∃ w', w.run calls = some w' ∧ w'.Sound ∧ w.Later w' := by
  induction calls generalizing w with
  | nil => exact ⟨w, rfl, sound, .refl w⟩
  | cons c calls ih =>
    obtain ⟨next, stepped, sound', later⟩ := sound.step c
    obtain ⟨last, ran, sound'', later'⟩ := ih sound'
    exact ⟨last, by rw [Session.run, List.foldlM_cons, stepped]; exact ran, sound'', later.trans later'⟩

/-! ### Boot -/

/-- After the measurements before `index` have been stored, the slots from `index` on are untouched. -/
theorem initFrom_sound {boot : List BootMeasurement} (valid : ∀ b ∈ boot, ∃ m, Measurement.tryFrom b = .ok m)
    (index : Nat) (fits : index + boot.length ≤ numOfMeasurementSlots) (sound : w.Sound)
    (rest : ∀ i, index ≤ i.val → w.accepted i = []) :
    ∃ mgr, MeasurementMgr.initFrom index boot w.mgr = some mgr ∧
      Sound ⟨mgr, fun i => if index ≤ i.val then bootAccepted boot (i - index) else w.accepted i⟩ := by
  induction boot generalizing index w with
  | nil =>
    refine ⟨w.mgr, rfl, fun i => ?_⟩
    have here := sound i
    by_cases from_ : index ≤ i.val
    · rw [rest i from_] at here
      simpa [from_, bootAccepted] using here
    · simpa [from_] using here
  | cons b boot ih =>
    obtain ⟨m, converted⟩ := valid b List.mem_cons_self
    rw [List.length_cons] at fits
    have inside : index < numOfMeasurementSlots := by omega
    let here : Fin numOfMeasurementSlots := ⟨index, inside⟩
    have none := rest here (Nat.le_refl _)
    obtain ⟨slot, stored, records, _⟩ := MeasurementSlot.initializeWith_records m false
    have stored' : slot.Records (w.accepted here ++ [⟨m, false⟩]) := by rw [none]; exact records
    have sound' := sound.store stored'
    obtain ⟨mgr, ran, last⟩ := ih (fun b' member => valid b' (List.mem_cons_of_mem _ member)) (index + 1) (by omega)
      sound' fun i beyond => by simpa [Call.record, here, show i.val ≠ index by omega] using rest i (by omega)
    refine ⟨mgr, ?_, fun i => ?_⟩
    · have blank : w.mgr.measurements[index] = {} := (sound here).blank none
      simpa [MeasurementMgr.initFrom, converted, Except.toOption, inside, blank, stored] using ran
    · have slots := last i
      rcases Nat.lt_trichotomy i.val index with before | at_ | beyond
      · simpa [Call.record, here, show ¬index ≤ i.val by omega, show ¬index + 1 ≤ i.val by omega,
          show i.val ≠ index by omega] using slots
      · have same : i = here := Fin.ext at_
        subst same
        simpa [Call.record, here, none, bootAccepted, converted, show ¬index + 1 ≤ index by omega] using slots
      · have shift : i.val - index = i.val - (index + 1) + 1 := by omega
        simpa [show index ≤ i.val by omega, show index + 1 ≤ i.val by omega, shift, bootAccepted] using slots

/-- The calls that follow a boot with valid measurements. -/
theorem start_sound {boot : List BootMeasurement} (few : boot.length ≤ numOfMeasurementSlots)
    (valid : ∀ b ∈ boot, ∃ m, Measurement.tryFrom b = .ok m) : ∃ w, start boot = some w ∧ w.Sound := by
  obtain ⟨mgr, stored, sound⟩ := initFrom_sound (w := ⟨⟨Vector.replicate _ {}⟩, fun _ => []⟩) valid 0 (by omega)
    (fun i => by simpa [MeasurementMgr.slot] using MeasurementSlot.records_nil) fun _ _ => rfl
  refine ⟨⟨mgr, fun i => bootAccepted boot i⟩, ?_, by simpa using sound⟩
  simp [start, MeasurementMgr.init, guard, few, stored]

end Session

/-- After a boot with at most 32 valid measurements and any calls, a slot in use holds the chain of digests over
exactly what it accepted; its algorithm and its signer stay, a locked slot stays as it is, a failing call changes
nothing, and a call changes no other slot. No call panics. -/
theorem Session.slots_measured {boot : List BootMeasurement} (few : boot.length ≤ numOfMeasurementSlots)
    (valid : ∀ b ∈ boot, ∃ m, Measurement.tryFrom b = .ok m) :
    ∃ w₀, Session.start boot = some w₀ ∧ ∀ calls, ∃ w, w₀.run calls = some w ∧
      (∀ i, (w.mgr.slot i).isPopulated = true →
        (w.mgr.slot i).measurement.value.len = (w.mgr.slot i).measurement.metadata.algorithm.hashLen ∧
        (w.mgr.slot i).measurement.value.bytes =
          (w.mgr.slot i).measurement.metadata.algorithm.chain ((w.accepted i).map Accepted.bytes)) ∧
      (∀ later, ∃ w', w.run later = some w' ∧ ∀ i,
        ((w.mgr.slot i).isPopulated = true →
          (w'.mgr.slot i).measurement.metadata.algorithm = (w.mgr.slot i).measurement.metadata.algorithm ∧
          (w'.mgr.slot i).measurement.metadata.signerId = (w.mgr.slot i).measurement.metadata.signerId) ∧
        ((∃ a ∈ w.accepted i, a.lock = true) → w'.mgr.slot i = w.mgr.slot i)) ∧
      ∀ c : Call, ∃ outcome mgr', c.exec w.mgr = some (outcome, mgr') ∧
        (∀ e, outcome = .error e → mgr' = w.mgr) ∧ ∀ i, i.val ≠ c.slotId → mgr'.slot i = w.mgr.slot i := by
  obtain ⟨w₀, started, sound₀⟩ := Session.start_sound few valid
  refine ⟨w₀, started, fun calls => ?_⟩
  obtain ⟨w, ran, sound, _⟩ := sound₀.run calls
  refine ⟨w, ran, fun i used => ?_, fun later => ?_, fun c => ?_⟩
  · have value := (sound i).value ((sound i).isPopulated.mp used)
    exact ⟨by rw [ArrayVec.len, value, MeasurementType.length_chain], value⟩
  · obtain ⟨w', ran', _, kept⟩ := sound.run later
    refine ⟨w', ran', fun i => ⟨fun used => ⟨kept.algorithm i used, kept.signerId i used⟩, fun locked => ?_⟩⟩
    exact kept.locked i ((sound i).locked.trans (List.any_eq_true.mpr locked))
  · obtain ⟨outcome, mgr', called⟩ := sound.exec c
    refine ⟨outcome, mgr', called, fun e failed => ?_, fun i other => Call.exec_other called other⟩
    subst failed
    exact Call.exec_error called

instance : NeZero numOfMeasurementSlots := ⟨by decide⟩

/-- A measurement of a component signed with SHA-256. -/
def bootLoader : BootMeasurement where
  measurementType := 0
  signerId := ⟨List.replicate 32 1, by decide⟩
  swType := ⟨[0x42, 0x4c], by decide⟩
  swVersion := ⟨[0x31], by decide⟩
  measurementValue := ⟨List.replicate 32 2, by decide⟩

omit [Sha] in
/-- The slot of the boot loader can be extended, and holds a digest of 32 bytes. -/
theorem slots_measured_bootLoader : ∃ (_ : Sha) (w₀ : Session), Session.start [bootLoader] = some w₀ ∧
    (∃ m, Measurement.tryFrom bootLoader = .ok m) ∧ ∀ calls, ∃ w, w₀.run calls = some w ∧
      ((w.mgr.slot 0).isPopulated = true → (w.mgr.slot 0).measurement.value.len =
        (w.mgr.slot 0).measurement.metadata.algorithm.hashLen) := by
  let hashes : Sha := ⟨fun algorithm _ => List.replicate algorithm.hashLen 0, fun _ _ => List.length_replicate⟩
  have valid : ∀ b ∈ [bootLoader], ∃ m, Measurement.tryFrom b = .ok m := by
    intro b member
    rw [List.mem_singleton.mp member]
    exact ⟨_, rfl⟩
  obtain ⟨w₀, started, runs⟩ := Session.slots_measured (by decide) valid
  refine ⟨hashes, w₀, started, valid _ List.mem_cons_self, fun calls => ?_⟩
  obtain ⟨w, ran, measured, _⟩ := runs calls
  exact ⟨w, ran, fun used => (measured 0 used).1⟩

end Islet.Hes
