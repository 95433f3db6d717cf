import Islet.Lib.HashChain
import Islet.Rmm.Realms

/-! The initial measurement identifies the initial image of a realm. The strings that
are hashed for it are told apart by their length, their type byte and their fixed
layout, so that without collisions the last digest gives back all of them. -/

namespace Islet.Rmm

open Lib Prog Bits Rmi HashContext

variable [Platform] {s t : Machine} {cmd : Command} {a : Nat} {rd rd' : Rd}

/-! ### Bytes -/

section Bytes

omit [Platform]

namespace Page

theorem length_wordBytes (w : Word) : (wordBytes w).length = 8 := by simp [wordBytes]

theorem wordBytes_inj {w w' : Word} (same : wordBytes w = wordBytes w') : w = w' := by
  refine BitVec.eq_of_getLsbD_eq fun i inside => ?_
  have byte := congrArg (fun bytes => (bytes.getD (i / 8) 0).getLsbD (i % 8)) same
  have here : i / 8 < 8 := by omega
  have bit : i % 8 < 8 := by omega
  simpa [wordBytes, here, bit, Nat.div_add_mod] using byte

theorem length_flatMap_words (p : Page) (n : Nat) : ((List.range n).flatMap fun i => wordBytes (p i)).length = 8 * n := by
  induction n with
  | zero => rfl
  | succ n ih =>
    rw [List.range_succ, List.flatMap_append, List.length_append, ih, List.flatMap_singleton, length_wordBytes]
    omega

theorem length_bytes (p : Page) : p.bytes.length = 4096 := length_flatMap_words p 512

theorem length_slice (p : Page) {offset len : Nat} (fits : offset + len ≤ 4096) : (p.slice offset len).length = len := by
  rw [slice, List.length_take, List.length_drop, length_bytes]
  omega

/-- A byte of a page is a byte of one of its words. -/
theorem getElem?_bytes (p : Page) {i k : Nat} (inside : i < 512) (byte : k < 8) :
    p.bytes[8 * i + k]? = (wordBytes (p i))[k]? := by
  suffices words : ∀ n, i < n → ((List.range n).flatMap fun i => wordBytes (p i))[8 * i + k]? = (wordBytes (p i))[k]?
    from words 512 inside
  intro n
  induction n with
  | zero => exact fun none => absurd none (Nat.not_lt_zero i)
  | succ n ih =>
    intro less
    rw [List.range_succ, List.flatMap_append, List.flatMap_singleton]
    rcases Nat.lt_succ_iff_lt_or_eq.mp less with before | rfl
    · rw [List.getElem?_append_left (by rw [length_flatMap_words]; omega), ih before]
    · rw [List.getElem?_append_right (by rw [length_flatMap_words]; omega), length_flatMap_words, Nat.add_sub_cancel_left]

theorem getLsbD_foldl (bs : List Byte) {n m : Nat} (inside : m < 64) :
    ((List.range n).foldl (fun (w : Word) k => w ||| ((bs.getD k 0).setWidth 64 <<< (8 * k))) 0).getLsbD m =
      (decide (m < 8 * n) && (bs.getD (m / 8) 0).getLsbD (m % 8)) := by
  induction n with
  | zero => simp
  | succ n ih =>
    rw [List.range_succ, List.foldl_append, List.foldl_cons, List.foldl_nil, BitVec.getLsbD_or, ih,
      BitVec.getLsbD_shiftLeft, BitVec.getLsbD_setWidth]
    by_cases below : m < 8 * n
    · have : m < 8 * (n + 1) := by omega
      simp [below, this]
    · by_cases here : m < 8 * (n + 1)
      · have quotient : m / 8 = n := by omega
        have remainder : m - 8 * n = m % 8 := by omega
        have : m % 8 < 64 := by omega
        simp [below, here, quotient, remainder, inside, this]
      · have : 8 ≤ m - 8 * n := by omega
        simp [below, here, BitVec.getLsbD_of_ge _ _ this]

/-- The bytes that a word is made of. -/
theorem byte_wordOfBytes (bs : List Byte) {k : Nat} (inside : k < 8) :
    (wordOfBytes bs >>> (8 * k)).setWidth 8 = bs.getD k 0 := by
  refine BitVec.eq_of_getLsbD_eq fun i bit => ?_
  rw [BitVec.getLsbD_setWidth, BitVec.getLsbD_ushiftRight, wordOfBytes, getLsbD_foldl bs (by omega),
    show (8 * k + i) / 8 = k by omega, show (8 * k + i) % 8 = i by omega]
  simp [bit, show 8 * k + i < 64 by omega]

theorem getElem?_storeBytes (p : Page) {offset j : Nat} {bs : List Byte} (inside : j < 4096) :
    (p.storeBytes offset bs).bytes[j]? =
      if offset ≤ j ∧ j < offset + bs.length then bs[j - offset]? else p.bytes[j]? := by
  have place : j = 8 * (j / 8) + j % 8 := by omega
  have byte : j % 8 < 8 := Nat.mod_lt _ (by omega)
  have read : ∀ p : Page, p.bytes[j]? = some ((p (j / 8) >>> (8 * (j % 8))).setWidth 8) := by
    intro p
    rw [place, getElem?_bytes p (by omega) byte, ← place]
    simp [wordBytes, byte]
  rw [read, read, storeBytes, byte_wordOfBytes _ byte]
  simp only [List.getD_eq_getElem?_getD, List.getElem?_map, List.getElem?_range byte, Option.map_some,
    Option.getD_some, ← place]
  split
  · rename_i within
    rw [List.getElem?_eq_getElem (by omega)]
    rfl
  · rfl

/-- What has been stored is read back. -/
theorem slice_storeBytes (p : Page) {offset : Nat} {bs : List Byte} (fits : offset + bs.length ≤ 4096) :
    (p.storeBytes offset bs).slice offset bs.length = bs := by
  refine List.ext_getElem? fun j => ?_
  unfold slice
  by_cases inside : j < bs.length
  · rw [List.getElem?_take_of_lt inside, List.getElem?_drop, getElem?_storeBytes p (by omega), if_pos (by omega),
      Nat.add_sub_cancel_left]
  · rw [List.getElem?_eq_none (by rw [List.length_take]; omega), List.getElem?_eq_none (by omega)]

end Page

theorem length_blank (ranges : List (Nat × Nat)) (bytes : List Byte) : (blank ranges bytes).length = bytes.length := by
  simp [blank]

/-- Outside the blanked ranges the bytes are those of the page. -/
theorem getElem?_blank {ranges : List (Nat × Nat)} {bytes : List Byte} {i : Nat}
    (outside : ∀ range ∈ ranges, ¬(range.1 ≤ i ∧ i < range.1 + range.2)) :
    (blank ranges bytes)[i]? = bytes[i]? := by
  have never : (ranges.any fun range => range.1 ≤ i && i < range.1 + range.2) = false := by
    simpa using outside
  simp [blank, List.getElem?_mapIdx, never]

theorem u64Bytes_inj {n n' : Nat} (small : n < 2 ^ 64) (small' : n' < 2 ^ 64) (same : u64Bytes n = u64Bytes n') :
    n = n' := by
  have equal := congrArg BitVec.toNat (Page.wordBytes_inj same)
  rwa [BitVec.toNat_ofNat, BitVec.toNat_ofNat, Nat.mod_eq_of_lt small, Nat.mod_eq_of_lt small'] at equal

/-- A word outside the blanked ranges is told by the bytes. -/
theorem word_of_blank {ranges : List (Nat × Nat)} {p q : Page} (same : blank ranges p.bytes = blank ranges q.bytes)
    {i : Nat} (inside : i < 512)
    (outside : ∀ range ∈ ranges, range.1 + range.2 ≤ 8 * i ∨ 8 * i + 8 ≤ range.1) : p i = q i := by
  refine Page.wordBytes_inj (List.ext_getElem? fun k => ?_)
  by_cases byte : k < 8
  · have apart : ∀ range ∈ ranges, ¬(range.1 ≤ 8 * i + k ∧ 8 * i + k < range.1 + range.2) := by
      intro range member
      have := outside range member
      omega
    rw [← Page.getElem?_bytes p inside byte, ← Page.getElem?_bytes q inside byte, ← getElem?_blank apart, same,
      getElem?_blank apart]
  · rw [List.getElem?_eq_none (by rw [Page.length_wordBytes]; omega),
      List.getElem?_eq_none (by rw [Page.length_wordBytes]; omega)]

theorem length_u64Bytes (n : Nat) : (u64Bytes n).length = 8 := Page.length_wordBytes _

theorem length_descriptor (descType : Nat) (rim : Measurement) : (descriptor descType rim).length = 80 := by
  simp [descriptor, zeros, length_u64Bytes]

/-- The type, the old measurement and the body of a descriptor. -/
theorem descriptor_inj {descType descType' : Nat} {rim rim' : Measurement} {body body' : List Byte}
    (same : descriptor descType rim ++ body = descriptor descType' rim' ++ body') :
    BitVec.ofNat 8 descType = BitVec.ofNat 8 descType' ∧ rim = rim' ∧ body = body' := by
  obtain ⟨heads, bodies⟩ := List.append_inj same (by rw [length_descriptor, length_descriptor])
  obtain ⟨starts, rims⟩ := List.append_inj heads (by simp [zeros, length_u64Bytes])
  exact ⟨by simpa using congrArg List.head? starts, Vector.toList_inj.mp rims, bodies⟩

end Bytes

/-! ### Operations -/

namespace HashContext

theorem digest_inj {algo : Nat} {out out' : Measurement} {data data' : List Byte}
    (same : hashFieldsInto algo out data = hashFieldsInto algo out' data') : digest algo data = digest algo data' := by
  have bytes := congrArg Vector.toList same
  rw [toList_hashFieldsInto, toList_hashFieldsInto] at bytes
  exact (List.append_inj bytes (by rw [length_digest, length_digest])).1

/-- The strings that are hashed when an operation extends the measurement `rim`. -/
def opInputs (algo : Nat) (rim : Measurement) (op : MeasuredOp) : List (List Byte) :=
  (match op with
    | .data _ flags content => if flags = rmiMeasureContent then [content.bytes] else []
    | .recCreate params => [recParamsBytes ⟨params⟩]
    | .ripas _ _ => []) ++ [descriptor (opType op) rim ++ opBody algo op]

/-- The strings that are hashed for the measurement of a realm. -/
def rimInputs (algo : Nat) (params : Page) (ops : List MeasuredOp) : List (List Byte) :=
  realmParamsBytes ⟨params⟩ :: HashChain.inputs (rimAfter algo) (opInputs algo) (rimOf algo ⟨params⟩) ops

theorem length_opBody (algo : Nat) (op : MeasuredOp) : (opBody algo op).length = 176 := by
  cases op <;> simp [opBody, zeros, length_u64Bytes]

end HashContext

/-- The operations have the same kind and the same arguments, as far as they are measured. -/
def MeasuredOp.Same : MeasuredOp → MeasuredOp → Prop
  | .data ipa flags content, .data ipa' flags' content' =>
    ipa = ipa' ∧ flags = flags' ∧ (flags = rmiMeasureContent → content.bytes = content'.bytes)
  | .recCreate params, .recCreate params' =>
    RecParams.flags ⟨params⟩ = RecParams.flags ⟨params'⟩ ∧ RecParams.pc ⟨params⟩ = RecParams.pc ⟨params'⟩ ∧
      ∀ i < 8, RecParams.gprs ⟨params⟩ i = RecParams.gprs ⟨params'⟩ i
  | .ripas base top, .ripas base' top' => base = base' ∧ top = top'
  | _, _ => False

/-- No two different strings among these have the same digest. -/
def CollisionFree (algo : Nat) (inputs : List (List Byte)) : Prop :=
  ∀ x ∈ inputs, ∀ y ∈ inputs, digest algo x = digest algo y → x = y

section Chain

variable {algo : Nat} {inputs : List (List Byte)} (free : CollisionFree algo inputs)

include free

theorem opBody_inj {op op' : MeasuredOp} {rim rim' : Measurement} (small : op.Small) (small' : op'.Small)
    (seen : ∀ x ∈ opInputs algo rim op, x ∈ inputs) (seen' : ∀ x ∈ opInputs algo rim' op', x ∈ inputs)
    (kinds : BitVec.ofNat 8 (opType op) = BitVec.ofNat 8 (opType op')) (same : opBody algo op = opBody algo op') :
    op.Same op' := by
  cases op with
  | data ipa flags content =>
    cases op' with
    | data ipa' flags' content' =>
      obtain ⟨fields, _⟩ := List.append_inj same (by simp [length_u64Bytes])
      obtain ⟨fields, measured⟩ := List.append_inj fields (by simp [length_u64Bytes])
      obtain ⟨ipas, flagss⟩ := List.append_inj fields (by simp [length_u64Bytes])
      have flagsEq := u64Bytes_inj small.2 small'.2 flagss
      refine ⟨u64Bytes_inj small.1 small'.1 ipas, flagsEq, fun content => ?_⟩
      subst flagsEq
      rw [if_pos content, if_pos content] at measured
      exact free _ (seen _ (by simp [opInputs, content])) _ (seen' _ (by simp [opInputs, content]))
        (digest_inj (Vector.toList_inj.mp measured))
    | recCreate _ => exact absurd kinds (by simp [opType])
    | ripas _ _ => exact absurd kinds (by simp [opType])
  | recCreate params =>
    cases op' with
    | data _ _ _ => exact absurd kinds (by simp [opType])
    | recCreate params' =>
      obtain ⟨digests, _⟩ := List.append_inj same (by simp)
      have bytes := free _ (seen _ (by simp [opInputs])) _ (seen' _ (by simp [opInputs]))
        (digest_inj (Vector.toList_inj.mp digests))
      have word : ∀ {i}, i < 0x20 ∨ 0x20 < i ∧ i < 0x100 → params i = params' i := fun place =>
        word_of_blank bytes (by omega) (by simp; omega)
      exact ⟨word (by omega), word (by omega), fun i less => word (by omega)⟩
    | ripas _ _ => exact absurd kinds (by simp [opType])
  | ripas base top =>
    cases op' with
    | data _ _ _ => exact absurd kinds (by simp [opType])
    | recCreate _ => exact absurd kinds (by simp [opType])
    | ripas base' top' =>
      obtain ⟨fields, _⟩ := List.append_inj same (by simp [length_u64Bytes])
      obtain ⟨bases, tops⟩ := List.append_inj fields (by simp [length_u64Bytes])
      exact ⟨u64Bytes_inj small.1 small'.1 bases, u64Bytes_inj small.2 small'.2 tops⟩

/-- Equal measurements come from the same image. -/
theorem rim_inj {params params' : Page} {ops ops' : List MeasuredOp} (small : ∀ op ∈ ops, op.Small)
    (small' : ∀ op ∈ ops', op.Small) (seen : ∀ x ∈ rimInputs algo params ops, x ∈ inputs)
    (seen' : ∀ x ∈ rimInputs algo params' ops', x ∈ inputs)
    (rims : ops.foldl (rimAfter algo) (rimOf algo ⟨params⟩) = ops'.foldl (rimAfter algo) (rimOf algo ⟨params'⟩)) :
    realmParamsBytes ⟨params⟩ = realmParamsBytes ⟨params'⟩ ∧ List.Forall₂ MeasuredOp.Same ops ops' := by
  have first := seen _ (List.mem_cons_self ..)
  have first' := seen' _ (List.mem_cons_self ..)
  -- a page of parameters is longer than any descriptor
  have longer : ∀ {params : Page} {rim : Measurement} {op : MeasuredOp}, realmParamsBytes ⟨params⟩ ∈ inputs →
      (∀ x ∈ opInputs algo rim op, x ∈ inputs) → rimAfter algo rim op ≠ rimOf algo ⟨params⟩ := by
    intro params rim op here own same
    have strings := free _ (own _ (by simp [opInputs])) _ here (digest_inj same)
    have lengths := congrArg List.length strings
    rw [List.length_append, length_descriptor, length_opBody, realmParamsBytes, length_blank, Page.length_bytes]
      at lengths
    omega
  obtain ⟨starts, same⟩ := HashChain.determines
   
    (fun small small' own own' same => by
      have strings := free _ (own _ (by simp [opInputs])) _ (own' _ (by simp [opInputs])) (digest_inj same)
      obtain ⟨kinds, rims, bodies⟩ := descriptor_inj strings
      exact ⟨rims, opBody_inj free small small' own own' kinds bodies⟩)
    (fun own => ⟨longer first own, longer first' own⟩) small small'
    (fun x member => seen x (List.mem_cons_of_mem _ member)) (fun x member => seen' x (List.mem_cons_of_mem _ member))
    rims
  exact ⟨free _ first _ first' (digest_inj starts), same⟩

end Chain

/-! ### Failing commands -/

/-- Commands that measure nothing leave the measurements of realms that stay. -/
theorem Moves.rim {c₀ c : Core} (moves : Moves c₀ cmd c₀ c) (inv : c₀.Inv) (plain : ¬cmd.Measures)
    (realm : c₀.realm? a = some rd) : c.realm? a = none ∨ ∃ rd', c.realm? a = some rd' ∧ rd'.rim = rd.rim := by
  refine moves.follow (P := fun rd' => rd'.rim = rd.rim) inv realm rfl (fun same step => ?_)
    (fun _ _ creates => ?_) (fun same _ _ => same)
  · cases step with
    | activate _ _ _ => exact same
    | measure _ _ measures _ => exact absurd measures plain
    | extend slot buffer _ other =>
      rw [Rd.rim, Rd.extended, Rd.get_setSlot, if_neg (Ne.symm other)]
      exact same
    | off _ => exact same
  · cases cmd with
    | recCreate _ _ _ => exact absurd trivial plain
    | _ => exact creates.elim

/-- The log and the hash algorithm give the measurement. -/
theorem Core.LoggedAt.rim_eq {c c' : Core} (logged : c.LoggedAt a rd) (logged' : c'.LoggedAt a rd')
    (log : c'.log = c.log) (algo : rd'.hashAlgo = rd.hashAlgo) : rd'.rim = rd.rim := by
  obtain ⟨page, params, rim⟩ := logged.params
  obtain ⟨page', params', rim'⟩ := logged'.params
  rw [log] at params' rim'
  cases params.symm.trans params'
  rw [rim, rim', algo]

theorem Machine.Reachable.rim_of_error (reached : s.Reachable) {e : Error}
    (failed : s.handle cmd = (.error (.error e), t)) (realm : s.core.realm? a = some rd)
    (still : t.core.realm? a = some rd') : rd'.rim = rd.rim := by
  have inv := reached.inv
  have returned := Machine.exec_eq_some.mpr (.inr ⟨e, t, failed, rfl⟩)
  have moves := Machine.exec_moves inv returned
  by_cases measures : cmd.Measures
  · have unchanged : t.core = s.core → rd'.rim = rd.rim := by
      intro core
      rw [core, realm] at still
      cases still
      rfl
    cases cmd with
    | realmCreate desc ptr =>
      exact unchanged ((wp_error (realmCreate_spec (s := s.start) desc ptr rfl rfl rfl rfl) failed).2.1 e rfl)
    | recCreate desc rc ptr =>
      exact unchanged ((wp_error (recCreate_spec (s := s.start) desc rc ptr inv rfl rfl rfl rfl rfl) failed).2.1 e rfl)
    | rttInitRipas desc base top =>
      exact unchanged ((wp_error (rttInitRipas_spec (s := s.start) desc base top inv rfl rfl) failed).2 e rfl)
    | dataCreate desc target ipa src flags =>
      -- the target may have been written, but nothing was measured
      have log := (wp_error (dataCreate_spec (s := s.start) desc target ipa src flags inv rfl rfl rfl rfl rfl rfl)
        failed).2.1
      have logged := (reached.step (.command _ returned)).logged still
      rcases moves.later inv realm with gone | ⟨_, found, later⟩
      · exact nomatch gone.symm.trans still
      · cases found.symm.trans still
        exact (reached.logged realm).rim_eq logged log (congrArg Layout.hashAlgo later.layout)
    | _ => exact measures.elim
  · rcases moves.rim inv measures realm with gone | ⟨_, found, rim⟩
    · exact nomatch gone.symm.trans still
    · cases found.symm.trans still
      exact rim

/-! ### Images -/

/-- The bytes of the parameters that are measured: all but `rpv`, `vmid`, `rtt_base`, `rtt_level_start`
and `rtt_num_start`. -/
def RealmParams.Measured (i : Nat) : Prop :=
  ¬(0x400 ≤ i ∧ i < 0x440) ∧ ¬(0x800 ≤ i ∧ i < 0x802) ∧ ¬(0x808 ≤ i ∧ i < 0x810) ∧ ¬(0x810 ≤ i ∧ i < 0x818) ∧
    ¬(0x818 ≤ i ∧ i < 0x81c)

omit [Platform] in
theorem getElem?_realmParamsBytes {params : RealmParams} {i : Nat} (measured : RealmParams.Measured i) :
    (realmParamsBytes params)[i]? = params.page.bytes[i]? := by
  obtain ⟨rpv, vmid, base, level, num⟩ := measured
  refine getElem?_blank ?_
  simp only [List.forall_mem_cons, List.not_mem_nil, false_imp_iff, implies_true, and_true]
  omega

/-- The strings hashed for the measurement of the realm at `a`, by the log. -/
def Core.hashed (c : Core) (a algo : Nat) : List (List Byte) :=
  match paramsOf a c.log with
  | some params => rimInputs algo params (operationsOf a c.log)
  | none => []

omit [Platform] in
/-- A log that begins with the creation of a realm. -/
theorem exists_created {log : List Event} {a : Nat}
    (first : (match log with | .created b _ :: _ => decide (b = a) | _ => false) = true) :
    ∃ page earlier, log = .created a page :: earlier := by
  match log, first with
  | .created _ page :: earlier, same => exact ⟨page, earlier, by rw [of_decide_eq_true same]⟩

end Islet.Rmm
