import Islet.Rmm.Realm.Rtt

/-! What a stage-2 descriptor means. The view of an entry is the abstract answer
to "what does this entry say about the pages it covers"; it is read off the
descriptor's fields as numbers, independently of the predicates the code uses.
The lemmas connect the two: each predicate of the code is a statement about the
view, and the view of each descriptor the code stores is known. -/

namespace Islet.Rmm

open Bits

/-- What an entry says about the pages it covers. -/
inductive View where
  | table (addr : Nat)
  | unassigned (ripas : Nat)
  | assigned (pa ripas : Nat)
  | ram (pa : Nat)
  | unassignedNs
  | ns (pa : Nat)
  | malformed
  deriving DecidableEq, Repr

namespace View

/-- The view of the `k`-th page that an entry covers. -/
def at_ (v : View) (k : Nat) : View :=
  match v with
  | .assigned pa ripas => .assigned (pa + 4096 * k) ripas
  | .ram pa => .ram (pa + 4096 * k)
  | .ns pa => .ns (pa + 4096 * k)
  | v => v

@[simp] theorem at_zero (v : View) : v.at_ 0 = v := by cases v <;> rfl

@[simp] theorem at_at (v : View) (j k : Nat) : (v.at_ j).at_ k = v.at_ (j + k) := by
  cases v <;> simp [at_] <;> ring

/-- The granule that a protected page is backed by. -/
def backing? : View → Option Nat
  | .assigned pa _ => some pa
  | .ram pa => some pa
  | _ => none

/-- The RIPAS of a protected page; a mapped page is RAM. -/
def ripas? : View → Option Nat
  | .unassigned ripas => some ripas
  | .assigned _ ripas => some ripas
  | .ram _ => some 1
  | _ => none

/-- The views a page below the boundary of the protected half can have. -/
def Protected : View → Prop
  | .unassigned ripas => ripas ≤ 2
  | .assigned _ ripas => ripas = 0 ∨ ripas = 2
  | .ram _ => True
  | _ => False

/-- The views a page of the unprotected half can have. -/
def Unprotected : View → Prop
  | .unassigned ripas => ripas = 0
  | .unassignedNs => True
  | .ns _ => True
  | _ => False

def isTable : View → Bool
  | .table _ => true
  | _ => false

/-- The views that give their pages no address. -/
def Vacant : View → Prop
  | .unassigned _ => True
  | .unassignedNs => True
  | _ => False

theorem vacant_at (v : View) (k : Nat) : (v.at_ k).Vacant ↔ v.Vacant := by
  cases v <;> exact Iff.rfl

theorem Vacant.cases {v : View} (vacant : v.Vacant) : (∃ ripas, v = .unassigned ripas) ∨ v = .unassignedNs := by
  cases v with
  | unassigned ripas => exact .inl ⟨ripas, rfl⟩
  | unassignedNs => exact .inr rfl
  | table addr => exact vacant.elim
  | assigned pa ripas => exact vacant.elim
  | ram pa => exact vacant.elim
  | ns pa => exact vacant.elim
  | malformed => exact vacant.elim

theorem Unprotected.cases {v : View} (fits : v.Unprotected) :
    v = .unassigned 0 ∨ v = .unassignedNs ∨ ∃ pa, v = .ns pa := by
  cases v with
  | unassigned ripas => exact .inl (congrArg View.unassigned fits)
  | unassignedNs => exact .inr (.inl rfl)
  | ns pa => exact .inr (.inr ⟨pa, rfl⟩)
  | table addr => exact fits.elim
  | assigned pa ripas => exact fits.elim
  | ram pa => exact fits.elim
  | malformed => exact fits.elim

end View

namespace S2tte

variable {e : Word} {level : Nat}

/-! ### Fields as numbers -/

def descNum (e : Word) : Nat := e.toNat % 4

def hipasNum (e : Word) : Nat := e.toNat / 4 % 8

def ripasNum (e : Word) : Nat := e.toNat / 32 % 4

def nsNum (e : Word) : Nat := e.toNat / 2 ^ 55 % 2

/-- The output address of an entry of the given level. -/
def outAddr (e : Word) (level : Nat) : Nat :=
  e.toNat / 2 ^ (39 - 9 * level) % 2 ^ (9 + 9 * level) * 2 ^ (39 - 9 * level)

/-- The meaning of the descriptor `e` in a table of the given level. -/
def view (level : Nat) (e : Word) : View :=
  if descNum e = 3 ∧ level < 3 then .table (outAddr e 3)
  else if descNum e = 3 ∧ level = 3 ∨ descNum e = 1 ∧ 1 ≤ level ∧ level ≤ 2 then
    if nsNum e = 0 then .ram (outAddr e level) else .ns (outAddr e level)
  else if descNum e = 0 ∧ hipasNum e = 0 then
    if nsNum e = 0 then .unassigned (ripasNum e) else .unassignedNs
  else if descNum e = 0 ∧ hipasNum e = 1 ∧ nsNum e = 0 ∧ 1 ≤ level ∧ level ≤ 3 then
    .assigned (outAddr e level) (ripasNum e)
  else .malformed

theorem field_eq_iff {hi lo : Nat} {v : Word} (ordered : lo ≤ hi) (bound : hi < 64) :
    getMaskedValue e (defineMask hi lo) = v ↔ e.toNat / 2 ^ lo % 2 ^ (hi + 1 - lo) = v.toNat := by
  rw [← toNat_getMaskedValue_defineMask e ordered bound]
  exact BitVec.toNat_inj.symm

theorem descType_eq {v : Word} : getMaskedValue e descType = v ↔ descNum e = v.toNat := by
  have read : getMaskedValue e descType = v ↔ e.toNat / 2 ^ 0 % 2 ^ 2 = v.toNat :=
    field_eq_iff (by omega) (by omega)
  rwa [Nat.pow_zero, Nat.div_one] at read

theorem hipas_eq {v : Word} : getMaskedValue e invalidHipas = v ↔ hipasNum e = v.toNat :=
  field_eq_iff (by omega) (by omega)

theorem ripas_eq {v : Word} : getMaskedValue e invalidRipas = v ↔ ripasNum e = v.toNat :=
  field_eq_iff (by omega) (by omega)

theorem ns_eq {v : Word} : getMaskedValue e ns = v ↔ nsNum e = v.toNat :=
  field_eq_iff (by omega) (by omega)

theorem nsNum_lt (e : Word) : nsNum e < 2 := Nat.mod_lt _ (by omega)

/-- The code's address masks keep what `outAddr` says. -/
theorem toNat_getMasked_address {lo : Nat} (bound : lo ≤ 47) :
    (getMasked e (defineMask 47 lo)).toNat = e.toNat / 2 ^ lo % 2 ^ (48 - lo) * 2 ^ lo := by
  apply Nat.eq_of_testBit_eq
  intro i
  rw [Nat.testBit_mul_two_pow, Nat.testBit_mod_two_pow, Nat.testBit_div_two_pow]
  change (e &&& defineMask 47 lo).getLsbD i = _
  rw [BitVec.getLsbD_and, getLsbD_defineMask bound (by omega)]
  by_cases low : lo ≤ i
  · rw [Nat.sub_add_cancel low, Bool.and_comm, show e.toNat.testBit i = e.getLsbD i from rfl,
      ← Bool.and_assoc, ← Bool.decide_and]
    congr 1
    exact decide_eq_decide.mpr (by omega)
  · simp [low]

theorem toNat_blockMask (low : 1 ≤ level) (high : level ≤ 3) :
    (getMasked e (blockMask level)).toNat = outAddr e level := by
  obtain rfl | rfl | rfl : level = 1 ∨ level = 2 ∨ level = 3 := by omega
  · exact toNat_getMasked_address (by omega)
  · exact toNat_getMasked_address (by omega)
  · exact toNat_getMasked_address (by omega)

theorem toNat_addrTblOrPage : (getMasked e addrTblOrPage).toNat = outAddr e 3 :=
  toNat_getMasked_address (by omega)

theorem outAddr_lt (bound : level ≤ 3) : outAddr e level < 2 ^ 48 := by
  unfold outAddr
  have whole : 2 ^ (9 + 9 * level) * 2 ^ (39 - 9 * level) = 2 ^ 48 := by
    rw [← pow_add]; congr 1; omega
  have part := Nat.mod_lt (e.toNat / 2 ^ (39 - 9 * level)) (Nat.two_pow_pos (9 + 9 * level))
  calc _ < 2 ^ (9 + 9 * level) * 2 ^ (39 - 9 * level) :=
        Nat.mul_lt_mul_of_pos_right part (Nat.two_pow_pos _)
    _ = 2 ^ 48 := whole

/-! ### The predicates of the code -/

section Predicates

variable (e) (level)

theorem isUnassigned_iff : isUnassigned e = true ↔ descNum e = 0 ∧ hipasNum e = 0 ∧ nsNum e = 0 := by
  simp [isUnassigned, descType_eq, hipas_eq, ns_eq, lxInvalid, unassigned, and_assoc]

theorem isUnassignedNs_iff :
    isUnassignedNs e = true ↔ descNum e = 0 ∧ hipasNum e = 0 ∧ nsNum e ≠ 0 := by
  simp [isUnassignedNs, descType_eq, hipas_eq, ns_eq, lxInvalid, unassigned, and_assoc]

theorem isAssigned_iff : isAssigned e = true ↔ descNum e = 0 ∧ hipasNum e = 1 ∧ nsNum e = 0 := by
  simp only [isAssigned, Bool.and_eq_true, beq_iff_eq, descType_eq, hipas_eq, ns_eq]
  simp only [lxInvalid, assigned]
  tauto

theorem isLeafAt_iff : isLeafAt e level = true ↔
    level = 3 ∧ descNum e = 3 ∨ level = 2 ∧ descNum e = 1 := by
  simp [isLeafAt, descType_eq, l3Page, l012Block]

theorem isAssignedRam_iff : isAssignedRam e level = true ↔
    nsNum e = 0 ∧ (level = 3 ∧ descNum e = 3 ∨ level = 2 ∧ descNum e = 1) := by
  simp [isAssignedRam, isLeafAt_iff, ns_eq]

theorem isAssignedNs_iff : isAssignedNs e level = true ↔
    nsNum e ≠ 0 ∧ (level = 3 ∧ descNum e = 3 ∨ level = 2 ∧ descNum e = 1) := by
  simp [isAssignedNs, isLeafAt_iff, ns_eq]

theorem isTable_iff : isTable e level = true ↔ level < 3 ∧ descNum e = 3 := by
  simp [isTable, descType_eq, l012Table]

theorem isInvalidRipas_iff : isInvalidRipas e = true ↔ descNum e ≠ 0 ∧ ripasNum e ≠ 1 := by
  simp [isInvalidRipas, getRipas, descType_eq, ripas_eq, lxInvalid, ripasRam]

theorem pointsToTableOrPage_iff : pointsToTableOrPage e = true ↔ descNum e = 3 := by
  have validBit : getMaskedValue e valid = 0 ↔ e.toNat / 2 ^ 0 % 2 ^ 1 = 0 :=
    field_eq_iff (by omega) (by omega)
  have typeBit : getMaskedValue e type = 1 ↔ e.toNat / 2 ^ 1 % 2 ^ 1 = 1 :=
    field_eq_iff (by omega) (by omega)
  simp only [pointsToTableOrPage, isValidEntry, Bool.and_eq_true, bne_iff_ne, ne_eq, beq_iff_eq,
    validBit, typeBit, descNum]
  omega

/-! The predicates decide the view. -/

variable {e} {level}

theorem view_of_isTable (table : isTable e level = true) :
    view level e = .table (outAddr e 3) := by
  obtain ⟨inner, desc⟩ := (isTable_iff e level).mp table
  simp [view, desc, inner]

theorem view_of_isUnassigned (holds : isUnassigned e = true) :
    view level e = .unassigned (ripasNum e) := by
  obtain ⟨desc, hipas, ns⟩ := (isUnassigned_iff e).mp holds
  simp [view, desc, hipas, ns]

theorem view_of_isUnassignedNs (holds : isUnassignedNs e = true) :
    view level e = .unassignedNs := by
  obtain ⟨desc, hipas, ns⟩ := (isUnassignedNs_iff e).mp holds
  simp [view, desc, hipas, ns]

theorem view_of_isAssigned (holds : isAssigned e = true) (low : 1 ≤ level) (high : level ≤ 3) :
    view level e = .assigned (outAddr e level) (ripasNum e) := by
  obtain ⟨desc, hipas, ns⟩ := (isAssigned_iff e).mp holds
  simp [view, desc, hipas, ns, low, high]

theorem view_of_isAssignedRam (holds : isAssignedRam e level = true) :
    view level e = .ram (outAddr e level) := by
  obtain ⟨ns, ⟨rfl, desc⟩ | ⟨rfl, desc⟩⟩ := (isAssignedRam_iff e level).mp holds
  all_goals simp [view, desc, ns]

theorem view_of_isAssignedNs (holds : isAssignedNs e level = true) :
    view level e = .ns (outAddr e level) := by
  obtain ⟨ns, ⟨rfl, desc⟩ | ⟨rfl, desc⟩⟩ := (isAssignedNs_iff e level).mp holds
  all_goals simp [view, desc, ns]

theorem isTable_of_view {addr : Nat} (meaning : view level e = .table addr) :
    isTable e level = true ∧ addr = outAddr e 3 := by
  rw [isTable_iff]
  unfold view at meaning
  split_ifs at meaning with h
  cases meaning
  exact ⟨h.symm, rfl⟩

theorem isUnassigned_of_view {ripas : Nat} (meaning : view level e = .unassigned ripas) :
    isUnassigned e = true ∧ ripas = ripasNum e := by
  rw [isUnassigned_iff]
  unfold view at meaning
  split_ifs at meaning with _ _ _ h ns
  cases meaning
  exact ⟨⟨h.1, h.2, ns⟩, rfl⟩

theorem isAssigned_of_view {pa ripas : Nat} (meaning : view level e = .assigned pa ripas) :
    isAssigned e = true ∧ 1 ≤ level ∧ level ≤ 3 ∧ pa = outAddr e level ∧ ripas = ripasNum e := by
  rw [isAssigned_iff]
  unfold view at meaning
  split_ifs at meaning with _ _ _ _ _ h
  cases meaning
  exact ⟨⟨h.1, h.2.1, h.2.2.1⟩, h.2.2.2.1, h.2.2.2.2, rfl, rfl⟩

/-- A mapped page or block; the code's own test does not see the blocks of level 1. -/
theorem mapped_of_view {pa : Nat} (meaning : view level e = .ram pa) :
    nsNum e = 0 ∧ pa = outAddr e level ∧ 1 ≤ level ∧ level ≤ 3 ∧
      (level = 3 ∧ descNum e = 3 ∨ level ≤ 2 ∧ descNum e = 1) := by
  unfold view at meaning
  split_ifs at meaning with _ h ns
  cases meaning
  exact ⟨ns, rfl, by omega, by omega, by omega⟩

theorem ns_of_view {pa : Nat} (meaning : view level e = .ns pa) :
    nsNum e = 1 ∧ pa = outAddr e level ∧ 1 ≤ level ∧ level ≤ 3 ∧
      (level = 3 ∧ descNum e = 3 ∨ level ≤ 2 ∧ descNum e = 1) := by
  unfold view at meaning
  split_ifs at meaning with _ h ns
  cases meaning
  have bit := nsNum_lt e
  exact ⟨by omega, rfl, by omega, by omega, by omega⟩

theorem isUnassignedNs_of_view (meaning : view level e = .unassignedNs) :
    isUnassignedNs e = true := by
  rw [isUnassignedNs_iff]
  unfold view at meaning
  split_ifs at meaning with _ _ _ h ns
  exact ⟨h.1, h.2, ns⟩

end Predicates

/-! ### Descriptors put together from an address and attributes -/

/-- An address of a page inside the 48 bits that descriptors have for it. -/
structure IsPage (p : Word) : Prop where
  aligned : p.toNat % 4096 = 0
  small : p.toNat < 2 ^ 48

/-- Attributes leave the address bits alone. -/
def IsAttr (f : Word) : Prop := f.toNat / 4096 % 2 ^ 36 = 0

instance (f : Word) : Decidable (IsAttr f) := inferInstanceAs (Decidable (_ = _))

theorem IsPage.testBit {p : Word} (page : IsPage p) {i : Nat} (set : p.toNat.testBit i = true) :
    12 ≤ i ∧ i < 48 := by
  constructor
  · by_contra low
    have zero : (p.toNat % 2 ^ 12).testBit i = false := by
      rw [show 2 ^ 12 = 4096 by rfl, page.aligned, Nat.zero_testBit]
    rw [Nat.testBit_mod_two_pow, set] at zero
    simp at zero
    omega
  · by_contra high
    have beyond : p.toNat < 2 ^ i :=
      Nat.lt_of_lt_of_le page.small (Nat.pow_le_pow_right (by omega) (by omega))
    rw [Nat.testBit_lt_two_pow beyond] at set
    exact nomatch set

theorem IsAttr.testBit {f : Word} (attr : IsAttr f) {i : Nat} (low : 12 ≤ i) (high : i < 48) :
    f.toNat.testBit i = false := by
  have zero : (f.toNat / 2 ^ 12 % 2 ^ 36).testBit (i - 12) = false := by
    rw [show f.toNat / 2 ^ 12 % 2 ^ 36 = 0 from attr, Nat.zero_testBit]
  rw [Nat.testBit_mod_two_pow, Nat.testBit_div_two_pow, Nat.sub_add_cancel low] at zero
  simpa [show i - 12 < 36 by omega] using zero

/-- The bits of an address and of attributes do not meet. -/
theorem IsPage.and_attr {p f : Word} (page : IsPage p) (attr : IsAttr f) : p &&& f = 0#64 := by
  apply BitVec.eq_of_getLsbD_eq
  intro i _
  rw [BitVec.getLsbD_and, BitVec.getLsbD_zero]
  cases set : p.getLsbD i with
  | false => rfl
  | true =>
    obtain ⟨low, high⟩ := page.testBit set
    exact attr.testBit low high

theorem IsPage.and_addr {p : Word} (page : IsPage p) : p &&& addrBlkL3 = p := by
  have rest : p &&& ~~~addrBlkL3 = 0#64 := page.and_attr (by decide)
  calc p &&& addrBlkL3 = p &&& addrBlkL3 ||| p &&& ~~~addrBlkL3 := by rw [rest, BitVec.or_zero]
    _ = p &&& BitVec.allOnes 64 := by rw [← BitVec.and_or_distrib_left, show addrBlkL3 ||| ~~~addrBlkL3 = BitVec.allOnes 64 by decide]
    _ = p := BitVec.and_allOnes

/-- The host may give any address without attributes. -/
theorem IsPage.isHostNsValid {p : Word} (page : IsPage p) : isHostNsValid p 3 = true := by
  have plain : p &&& ~~~(addrBlkL3 ||| memattr ||| s2ap ||| sh) = 0#64 ∧ p &&& memattr = 0#64 ∧ p &&& sh = 0#64 :=
    ⟨page.and_attr (by decide), page.and_attr (by decide), page.and_attr (by decide)⟩
  simp only [S2tte.isHostNsValid, getMaskedValue, plain]
  decide

theorem toNat_page_or {p f : Word} (page : IsPage p) (attr : IsAttr f) :
    (p ||| f).toNat = p.toNat + f.toNat := by
  have apart := page.and_attr attr
  have small := page.small
  have aligned := page.aligned
  have bound := f.isLt
  unfold IsAttr at attr
  rw [← BitVec.add_eq_or_of_and_eq_zero p f apart, BitVec.toNat_add, Nat.mod_eq_of_lt]
  omega

/-- The fields of a descriptor are those of its attributes, its output address is
the address it was made with. -/
structure MadeOf (w : Word) (level pa : Nat) (f : Word) : Prop where
  desc : descNum w = descNum f
  hipas : hipasNum w = hipasNum f
  ripas : ripasNum w = ripasNum f
  ns : nsNum w = nsNum f
  out : outAddr w level = pa

theorem madeOf_or {p f : Word} (page : IsPage p) (attr : IsAttr f) (bound : level ≤ 3)
    (block : p.toNat % 2 ^ (39 - 9 * level) = 0) : MadeOf (p ||| f) level p.toNat f := by
  have sum := toNat_page_or page attr
  have small := page.small
  have aligned := page.aligned
  have wide := f.isLt
  unfold IsAttr at attr
  obtain rfl | rfl | rfl | rfl : level = 0 ∨ level = 1 ∨ level = 2 ∨ level = 3 := by omega
  all_goals
    constructor
    · unfold descNum; omega
    · unfold hipasNum; omega
    · unfold ripasNum; omega
    · unfold nsNum; omega
    · unfold outAddr; omega

/-- The view of a descriptor by the fields of its attributes. -/
theorem MadeOf.view {w f : Word} {pa : Nat} (made : MadeOf w level pa f) (leaf : ¬(descNum f = 3 ∧ level < 3)) :
    view level w =
      if descNum f = 3 ∧ level = 3 ∨ descNum f = 1 ∧ 1 ≤ level ∧ level ≤ 2 then
        if nsNum f = 0 then .ram pa else .ns pa
      else if descNum f = 0 ∧ hipasNum f = 0 then
        if nsNum f = 0 then .unassigned (ripasNum f) else .unassignedNs
      else if descNum f = 0 ∧ hipasNum f = 1 ∧ nsNum f = 0 ∧ 1 ≤ level ∧ level ≤ 3 then
        .assigned pa (ripasNum f)
      else .malformed := by
  rw [S2tte.view, made.desc, made.hipas, made.ripas, made.ns, made.out, if_neg leaf]

/-! ### Fields of combined words -/

section Combined

variable (a b : Word)

theorem descNum_or : descNum (a ||| b) = descNum a ||| descNum b := by
  simp only [descNum, BitVec.toNat_or, show 4 = 2 ^ 2 by rfl, Nat.or_mod_two_pow]

theorem descNum_and : descNum (a &&& b) = descNum a &&& descNum b := by
  simp only [descNum, BitVec.toNat_and, show 4 = 2 ^ 2 by rfl, Nat.and_mod_two_pow]

theorem hipasNum_or : hipasNum (a ||| b) = hipasNum a ||| hipasNum b := by
  simp only [hipasNum, BitVec.toNat_or, show 4 = 2 ^ 2 by rfl, show 8 = 2 ^ 3 by rfl,
    Nat.or_div_two_pow, Nat.or_mod_two_pow]

theorem hipasNum_and : hipasNum (a &&& b) = hipasNum a &&& hipasNum b := by
  simp only [hipasNum, BitVec.toNat_and, show 4 = 2 ^ 2 by rfl, show 8 = 2 ^ 3 by rfl,
    Nat.and_div_two_pow, Nat.and_mod_two_pow]

theorem ripasNum_or : ripasNum (a ||| b) = ripasNum a ||| ripasNum b := by
  simp only [ripasNum, BitVec.toNat_or, show 32 = 2 ^ 5 by rfl, show 4 = 2 ^ 2 by rfl,
    Nat.or_div_two_pow, Nat.or_mod_two_pow]

theorem ripasNum_and : ripasNum (a &&& b) = ripasNum a &&& ripasNum b := by
  simp only [ripasNum, BitVec.toNat_and, show 32 = 2 ^ 5 by rfl, show 4 = 2 ^ 2 by rfl,
    Nat.and_div_two_pow, Nat.and_mod_two_pow]

theorem nsNum_or : nsNum (a ||| b) = nsNum a ||| nsNum b := by
  simp only [nsNum, BitVec.toNat_or, Nat.or_div_two_pow]
  exact Nat.or_mod_two_pow (n := 1)

theorem nsNum_and : nsNum (a &&& b) = nsNum a &&& nsNum b := by
  simp only [nsNum, BitVec.toNat_and, Nat.and_div_two_pow]
  exact Nat.and_mod_two_pow (n := 1)

variable {a b}

theorem IsAttr.or (left : IsAttr a) (right : IsAttr b) : IsAttr (a ||| b) := by
  unfold IsAttr at left right ⊢
  rw [BitVec.toNat_or, show 4096 = 2 ^ 12 by rfl, Nat.or_div_two_pow, Nat.or_mod_two_pow]
  rw [show 2 ^ 12 = 4096 by rfl, left, right, Nat.or_zero]

theorem IsAttr.getMasked (right : IsAttr b) : IsAttr (getMasked a b) := by
  unfold IsAttr Bits.getMasked at *
  rw [BitVec.toNat_and, show 4096 = 2 ^ 12 by rfl, Nat.and_div_two_pow, Nat.and_mod_two_pow]
  rw [show 2 ^ 12 = 4096 by rfl, right, Nat.and_zero]

end Combined

theorem hipasNum_and_seven (e : Word) : hipasNum e &&& 7 = hipasNum e := by
  have lower : hipasNum e < 2 ^ 3 := Nat.mod_lt _ (by omega)
  exact (Nat.and_two_pow_sub_one_eq_mod _ 3).trans (Nat.mod_eq_of_lt lower)

theorem ripasNum_and_three (e : Word) : ripasNum e &&& 3 = ripasNum e := by
  have lower : ripasNum e < 2 ^ 2 := Nat.mod_lt _ (by omega)
  exact (Nat.and_two_pow_sub_one_eq_mod _ 2).trans (Nat.mod_eq_of_lt lower)

theorem nsNum_and_one (e : Word) : nsNum e &&& 1 = nsNum e :=
  (Nat.and_two_pow_sub_one_eq_mod _ 1).trans (Nat.mod_eq_of_lt (nsNum_lt e))

/-- The bits of HIPAS and RIPAS that a split or a fold takes over. -/
theorem fields_kept (e : Word) :
    descNum (getMasked e (invalidHipas ||| invalidRipas)) = 0 ∧
      hipasNum (getMasked e (invalidHipas ||| invalidRipas)) = hipasNum e ∧
      ripasNum (getMasked e (invalidHipas ||| invalidRipas)) = ripasNum e ∧
      nsNum (getMasked e (invalidHipas ||| invalidRipas)) = 0 := by
  refine ⟨?_, ?_, ?_, ?_⟩
  · rw [getMasked, descNum_and, show descNum (invalidHipas ||| invalidRipas) = 0 by decide,
      Nat.and_zero]
  · rw [getMasked, hipasNum_and, show hipasNum (invalidHipas ||| invalidRipas) = 7 by decide,
      hipasNum_and_seven]
  · rw [getMasked, ripasNum_and, show ripasNum (invalidHipas ||| invalidRipas) = 3 by decide,
      ripasNum_and_three]
  · rw [getMasked, nsNum_and, show nsNum (invalidHipas ||| invalidRipas) = 0 by decide,
      Nat.and_zero]

end S2tte

end Islet.Rmm
