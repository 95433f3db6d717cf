import Islet.Rmm.Realm.View

/-! The views of the descriptors that the RTT operations store: what a command
leaves in an entry, in terms of what the entry meant before. -/

namespace Islet.Rmm.Rtt

open Bits S2tte

variable {e : Word} {level : Nat}

theorem isPage_ofNat {addr : Nat} (aligned : addr % 4096 = 0) (small : addr < 2 ^ 48) :
    IsPage (BitVec.ofNat 64 addr) ∧ (BitVec.ofNat 64 addr).toNat = addr := by
  have same : (BitVec.ofNat 64 addr).toNat = addr := by
    rw [BitVec.toNat_ofNat, Nat.mod_eq_of_lt (by omega)]
  exact ⟨⟨by rw [same]; exact aligned, by rw [same]; exact small⟩, same⟩

/-- The address field of an entry, as a word of its own. -/
theorem isPage_block (low : 1 ≤ level) (high : level ≤ 3) :
    IsPage (getMasked e (blockMask level)) ∧
      (getMasked e (blockMask level)).toNat = outAddr e level ∧
      outAddr e level % 2 ^ (39 - 9 * level) = 0 := by
  have same := toNat_blockMask (e := e) low high
  have small := outAddr_lt (e := e) high
  have block : outAddr e level % 2 ^ (39 - 9 * level) = 0 := Nat.mul_mod_left _ _
  refine ⟨⟨?_, by omega⟩, same, block⟩
  rw [same]
  obtain rfl | rfl | rfl : level = 1 ∨ level = 2 ∨ level = 3 := by omega
  all_goals omega

/-- An entry without an address: only its attributes count. -/
theorem view_attr {f : Word} (desc : descNum f = 0) (hipas : hipasNum f = 0) :
    view level f = if nsNum f = 0 then .unassigned (ripasNum f) else .unassignedNs := by
  simp [view, desc, hipas]

theorem view_tableDesc {addr : Nat} (aligned : addr % 4096 = 0) (small : addr < 2 ^ 48)
    (inner : level < 3) : view level (tableDesc addr) = .table addr := by
  obtain ⟨page, same⟩ := isPage_ofNat aligned small
  have made : MadeOf (tableDesc addr) 3 addr (bitsInReg descType l012Table) := by
    have built : MadeOf _ 3 _ _ := madeOf_or page (f := bitsInReg descType l012Table) (by decide)
      (by omega) (by rw [same]; exact aligned)
    rwa [same] at built
  have desc : descNum (tableDesc addr) = 3 := by rw [made.desc]; decide
  rw [view, if_pos ⟨desc, inner⟩, made.out]

theorem view_destroyedDesc (isProtected : Bool) :
    view level (destroyedDesc isProtected) =
      if isProtected then .unassigned 2 else .unassignedNs := by
  cases isProtected
  · have word : destroyedDesc false = 0x80000000000000#64 := by decide
    rw [word, view_attr (by decide) (by decide)]
    rfl
  · have word : destroyedDesc true = 0x40#64 := by decide
    rw [word, view_attr (by decide) (by decide)]
    rfl

theorem view_initRam : view level initRam = .unassigned 1 := by
  have word : initRam = 0x20#64 := by decide
  rw [word, view_attr (by decide) (by decide)]
  rfl

/-! ### Data granules -/

/-- The descriptor of a data granule at the page level. -/
theorem view_dataDesc {target : Nat} {ripas : Word} (isUnknown : Bool) (aligned : target % 4096 = 0)
    (small : target < 2 ^ 48) (known : ripas.toNat ≤ 2) :
    view 3 (dataDesc target isUnknown ripas) =
      if isUnknown ∧ ripas ≠ ripasRam then .assigned target ripas.toNat else .ram target := by
  obtain ⟨page, same⟩ := isPage_ofNat aligned small
  have make : ∀ f : Word, IsAttr f → MadeOf (BitVec.ofNat 64 target ||| f) 3 target f := by
    intro f attr
    have built : MadeOf _ 3 _ _ := madeOf_or page attr (by omega) (by rw [same]; exact aligned)
    rwa [same] at built
  by_cases unknown : isUnknown ∧ ripas ≠ ripasRam
  · rw [if_pos unknown, dataDesc, if_pos unknown, BitVec.or_assoc]
    obtain rfl | rfl : ripas = 0#64 ∨ ripas = 2#64 := by
      have other : ripas.toNat ≠ 1 := fun one => unknown.2 (BitVec.eq_of_toNat_eq one)
      rcases (by omega : ripas.toNat = 0 ∨ ripas.toNat = 2) with zero | two
      · exact .inl (BitVec.eq_of_toNat_eq zero)
      · exact .inr (BitVec.eq_of_toNat_eq two)
    · rw [(make _ (by decide)).view (by decide)]
      rfl
    · rw [(make _ (by decide)).view (by decide)]
      rfl
  · rw [if_neg unknown, dataDesc, if_neg unknown]
    simp only [BitVec.or_assoc]
    rw [(make _ (by decide)).view (by decide)]
    rfl

/-- What is left of a data granule's entry. -/
theorem view_dataGoneDesc (level : Nat) (e : Word) :
    view level (dataGoneDesc e) =
      .unassigned (if isAssignedRam e 3 = true then 2 else ripasNum e) := by
  unfold dataGoneDesc
  rw [show bitsInReg invalidHipas unassigned = 0#64 by decide, BitVec.zero_or]
  by_cases mapped : isAssignedRam e 3 = true
  · rw [if_pos mapped, rttPageLevel, if_pos mapped,
      show bitsInReg invalidRipas ripasDestroyed = 0x40#64 by decide,
      view_attr (by decide) (by decide)]
    rfl
  · rw [if_neg mapped, rttPageLevel, if_neg mapped, getMasked]
    have desc : descNum (e &&& invalidRipas) = 0 := by
      rw [descNum_and, show descNum invalidRipas = 0 by decide, Nat.and_zero]
    have hipas : hipasNum (e &&& invalidRipas) = 0 := by
      rw [hipasNum_and, show hipasNum invalidRipas = 0 by decide, Nat.and_zero]
    have ripas : ripasNum (e &&& invalidRipas) = ripasNum e := by
      rw [ripasNum_and, show ripasNum invalidRipas = 3 by decide, ripasNum_and_three]
    have ns : nsNum (e &&& invalidRipas) = 0 := by
      rw [nsNum_and, show nsNum invalidRipas = 0 by decide, Nat.and_zero]
    rw [view_attr desc hipas, ns, ripas, if_pos rfl]

/-! ### RIPAS changes -/

/-- An entry after a change of its RIPAS: still of the protected half, and backed
by what it was backed by before, or by nothing. -/
structure Retyped (old : View) (ripas : Nat) (new : View) : Prop where
  protect : new.Protected
  ripas : new.ripas? = some ripas
  backing : new.backing? = none ∨ new.backing? = old.backing?

theorem retyped_unassigned {old : View} {ripas : Nat} (known : ripas ≤ 2) :
    Retyped old ripas (.unassigned ripas) := ⟨known, rfl, .inl rfl⟩

theorem retyped_assigned {old : View} {pa : Nat} (backed : old.backing? = some pa) :
    Retyped old 0 (.assigned pa 0) := ⟨.inl rfl, rfl, .inr backed.symm⟩

theorem retyped_ram {old : View} {pa : Nat} (backed : old.backing? = some pa) :
    Retyped old 1 (.ram pa) := ⟨trivial, rfl, .inr backed.symm⟩

/-- Attributes and an address field in either order. -/
theorem madeOf_block {f : Word} (attr : IsAttr f) (low : 1 ≤ level) (high : level ≤ 3) :
    MadeOf (f ||| getMasked e (blockMask level)) level (outAddr e level) f := by
  obtain ⟨page, same, block⟩ := isPage_block (e := e) low high
  have made := madeOf_or page attr high (by rw [same]; exact block)
  rwa [same, BitVec.or_comm] at made

/-- What `set_ripas` writes for EMPTY into an entry with a granule. -/
theorem view_assignedEmptyDesc (low : 1 ≤ level) (high : level ≤ 3) :
    view level (bitsInReg invalidRipas ripasEmpty ||| bitsInReg invalidHipas assigned |||
      getMasked e (blockMask level)) = .assigned (outAddr e level) 0 := by
  rw [show bitsInReg invalidRipas ripasEmpty ||| bitsInReg invalidHipas assigned = 4#64 by decide,
    (madeOf_block (by decide) low high).view (by simp [descNum])]
  simp [descNum, hipasNum, nsNum, ripasNum, low, high]

theorem leafDescType_eq (level : Nat) :
    leafDescType level = if level = 3 then 3#64 else 1#64 := by
  unfold leafDescType rttPageLevel
  split
  · decide
  · decide

/-- What `set_ripas` writes for RAM into an entry with a granule, whatever the HIPAS bits. -/
theorem view_ramDesc {f : Word} (known : f = 0x20#64 ∨ f = 0x24#64) (low : 1 ≤ level)
    (high : level ≤ 3) :
    view level (f ||| leafDescType level ||| getMasked e (blockMask level)) =
      .ram (outAddr e level) := by
  rw [leafDescType_eq]
  by_cases bottom : level = 3
  · subst bottom
    rw [if_pos rfl]
    rcases known with rfl | rfl
    · rw [(madeOf_block (by decide) low high).view (by simp)]
      rfl
    · rw [(madeOf_block (by decide) low high).view (by simp)]
      rfl
  · rw [if_neg bottom]
    rcases known with rfl | rfl
    · rw [(madeOf_block (by decide) low high).view (by simp [descNum])]
      simp [descNum, nsNum, bottom, low, show level ≤ 2 by omega]
    · rw [(madeOf_block (by decide) low high).view (by simp [descNum])]
      simp [descNum, nsNum, bottom, low, show level ≤ 2 by omega]

theorem ripasStep_empty {new flags : Word} {ripas : Nat} (low : 1 ≤ level) (high : level ≤ 3)
    (empty : BitVec.ofNat 64 ripas = ripasEmpty)
    (written : ripasStep e (getMasked e (blockMask level)) level ripas flags = .write new) :
    Retyped (view level e) 0 (view level new) := by
  have cleared : Retyped (view level e) 0 (view level 0#64) := by
    have plain : view level 0#64 = .unassigned 0 := view_attr (by decide) (by decide)
    rw [plain]
    exact retyped_unassigned (by omega)
  have kept : (view level e).backing? = some (outAddr e level) → Retyped (view level e) 0
      (view level (bitsInReg invalidRipas ripasEmpty ||| bitsInReg invalidHipas assigned |||
        getMasked e (blockMask level))) := by
    intro backed
    rw [view_assignedEmptyDesc low high]
    exact retyped_assigned backed
  simp only [ripasStep, empty, if_true] at written
  rw [show bitsInReg invalidRipas ripasEmpty ||| bitsInReg invalidHipas unassigned = 0#64 by decide]
    at written
  split_ifs at written with _ _ _ mapped destroyed
  · cases written; exact cleared
  · cases written; exact cleared
  · cases written
    exact kept (by rw [view_of_isAssignedRam mapped]; rfl)
  · cases written
    have holds : isAssigned e = true := by
      simp only [isAssignedDestroyed, Bool.and_eq_true] at destroyed
      exact destroyed.1
    exact kept (by rw [view_of_isAssigned holds low high]; rfl)
  · cases written; exact cleared

theorem ripasStep_ram {new flags : Word} {ripas : Nat} (low : 1 ≤ level) (high : level ≤ 3)
    (ram : BitVec.ofNat 64 ripas = ripasRam)
    (written : ripasStep e (getMasked e (blockMask level)) level ripas flags = .write new) :
    Retyped (view level e) 1 (view level new) := by
  have marked : Retyped (view level e) 1 (view level 0x20#64) := by
    have plain : view level 0x20#64 = .unassigned 1 := view_attr (by decide) (by decide)
    rw [plain]
    exact retyped_unassigned (by omega)
  have kept : ∀ f : Word, f = 0x20#64 ∨ f = 0x24#64 → isAssigned e = true →
      Retyped (view level e) 1
        (view level (f ||| leafDescType level ||| getMasked e (blockMask level))) := by
    intro f known holds
    rw [view_ramDesc known low high]
    exact retyped_ram (by rw [view_of_isAssigned holds low high]; rfl)
  simp only [ripasStep, ram, show ripasRam ≠ ripasEmpty by decide, if_true, if_false] at written
  rw [show bitsInReg invalidRipas ripasRam ||| bitsInReg invalidHipas unassigned = 0x20#64 by decide,
    show bitsInReg invalidRipas ripasRam ||| bitsInReg invalidHipas assigned = 0x24#64 by decide,
    show bitsInReg invalidRipas ripasRam = 0x20#64 by decide] at written
  split_ifs at written with _ _ _ empty destroyed
  · cases written; exact marked
  · cases written; exact marked
  · cases written
    simp only [isAssignedEmpty, Bool.and_eq_true] at empty
    exact kept _ (.inr rfl) empty.1
  · cases written
    simp only [isAssignedDestroyed, Bool.and_eq_true] at destroyed
    exact kept _ (.inl rfl) destroyed.1

/-- Whatever a round of `set_ripas` writes has the requested RIPAS. -/
theorem retyped_of_ripasStep {new flags : Word} {ripas : Nat} (low : 1 ≤ level) (high : level ≤ 3)
    (small : ripas < 2 ^ 64)
    (written : ripasStep e (getMasked e (blockMask level)) level ripas flags = .write new) :
    Retyped (view level e) ripas (view level new) := by
  have word : (BitVec.ofNat 64 ripas).toNat = ripas := by
    rw [BitVec.toNat_ofNat, Nat.mod_eq_of_lt small]
  by_cases empty : BitVec.ofNat 64 ripas = ripasEmpty
  · have zero : ripas = 0 := by rw [← word, empty]; rfl
    rw [zero] at written ⊢
    exact ripasStep_empty low high rfl written
  · by_cases ram : BitVec.ofNat 64 ripas = ripasRam
    · have one : ripas = 1 := by rw [← word, ram]; rfl
      rw [one] at written ⊢
      exact ripasStep_ram low high rfl written
    · simp only [ripasStep, if_neg empty, if_neg ram] at written
      exact nomatch written

/-- EMPTY and RAM are all that a realm can ask for. -/
theorem ripasStep_reachable {pa flags : Word} {ripas : Nat} (known : ripas ≤ 1) :
    ripasStep e pa level ripas flags ≠ .unreachable := by
  obtain rfl | rfl : ripas = 0 ∨ ripas = 1 := by omega
  · rw [ripasStep, if_pos (by decide)]
    dsimp only
    split_ifs <;> nofun
  · rw [ripasStep, if_neg (by decide), if_pos (by decide)]
    dsimp only
    split_ifs <;> nofun

/-! ### Rounds -/

section Rounds

variable {flags e' : Word} {ripas pa r : Nat}

/-- What a round of `set_ripas` at the given level makes of the descriptor `e`, unless the loop ends there. -/
def RipasRound (level ripas : Nat) (flags e e' : Word) : Prop :=
  ripasStep e (getMasked e (blockMask level)) level ripas flags = .write e' ∨
    ripasStep e (getMasked e (blockMask level)) level ripas flags = .skip ∧ e' = e

/-- A round for EMPTY. -/
theorem ripasStep_zero {addr : Word} : ripasStep e addr level 0 flags =
    if isUnassignedEmpty e then .write 0#64
    else if isUnassignedDestroyed e then if flags &&& changeDestroyed ≠ 0 then .write 0#64 else .stop
    else if isAssignedRam e level then .write (4#64 ||| addr)
    else if isAssignedDestroyed e then if flags &&& changeDestroyed ≠ 0 then .write (4#64 ||| addr) else .stop
    else .write 0#64 := by
  have words : bitsInReg invalidRipas ripasEmpty ||| bitsInReg invalidHipas unassigned = 0#64 ∧
      bitsInReg invalidRipas ripasEmpty ||| bitsInReg invalidHipas assigned = 4#64 ∧
      bitsInReg invalidRipas ripasEmpty = 0#64 := by decide
  rw [ripasStep, if_pos (by decide)]
  simp only [words.1, words.2.1]
  simp only [words.2.2]

/-- A round for RAM. -/
theorem ripasStep_one {addr : Word} : ripasStep e addr level 1 flags =
    if isUnassignedEmpty e then .write 0x20#64
    else if isUnassignedDestroyed e then if flags &&& changeDestroyed ≠ 0 then .write 0x20#64 else .stop
    else if isAssignedEmpty e then .write (0x24#64 ||| leafDescType level ||| addr)
    else if isAssignedDestroyed e then
      if flags &&& changeDestroyed ≠ 0 then .write (0x20#64 ||| leafDescType level ||| addr) else .stop
    else .skip := by
  have words : bitsInReg invalidRipas ripasRam ||| bitsInReg invalidHipas unassigned = 0x20#64 ∧
      bitsInReg invalidRipas ripasRam ||| bitsInReg invalidHipas assigned = 0x24#64 ∧
      bitsInReg invalidRipas ripasRam = 0x20#64 := by decide
  rw [ripasStep, if_neg (by decide), if_pos (by decide)]
  simp only [words.1, words.2.1]
  simp only [words.2.2]

theorem ripas_beq (v : Word) : (getMaskedValue e invalidRipas == v) = decide (ripasNum e = v.toNat) := by
  rw [Bool.eq_iff_iff, beq_iff_eq, decide_eq_true_eq, ripas_eq]

/-- The predicates of the code on an unassigned entry. -/
theorem unassigned_predicates (before : view level e = .unassigned r) :
    isUnassignedEmpty e = decide (r = 0) ∧ isUnassignedDestroyed e = decide (r = 2) ∧
      isAssignedRam e level = false ∧ isAssigned e = false := by
  obtain ⟨holds, rfl⟩ := isUnassigned_of_view before
  have fields := (isUnassigned_iff e).mp holds
  refine ⟨?_, ?_, ?_, ?_⟩
  · rw [isUnassignedEmpty, holds, Bool.true_and, ripas_beq]
    rfl
  · rw [isUnassignedDestroyed, holds, Bool.true_and, ripas_beq]
    rfl
  · rw [← Bool.not_eq_true, isAssignedRam_iff]
    omega
  · rw [← Bool.not_eq_true, isAssigned_iff]
    omega

theorem assigned_predicates (before : view level e = .assigned pa r) :
    isAssignedEmpty e = decide (r = 0) ∧ isAssignedDestroyed e = decide (r = 2) ∧
      isAssignedRam e level = false ∧ isUnassigned e = false := by
  obtain ⟨holds, _, _, _, rfl⟩ := isAssigned_of_view before
  have fields := (isAssigned_iff e).mp holds
  refine ⟨?_, ?_, ?_, ?_⟩
  · rw [isAssignedEmpty, holds, Bool.true_and, ripas_beq]
    rfl
  · rw [isAssignedDestroyed, holds, Bool.true_and, ripas_beq]
    rfl
  · rw [← Bool.not_eq_true, isAssignedRam_iff]
    omega
  · rw [← Bool.not_eq_true, isUnassigned_iff]
    omega

/-- The test for mapped entries does not see those of level 1. -/
theorem mapped_predicates (before : view level e = .ram pa) :
    isAssignedRam e level = decide (level ≠ 1) ∧ isAssigned e = false ∧ isUnassigned e = false := by
  obtain ⟨_, _, low, high, desc⟩ := mapped_of_view before
  refine ⟨?_, ?_, ?_⟩
  · rw [Bool.eq_iff_iff, isAssignedRam_iff, decide_eq_true_eq]
    omega
  · rw [← Bool.not_eq_true, isAssigned_iff]
    omega
  · rw [← Bool.not_eq_true, isUnassigned_iff]
    omega

theorem round_unassigned (before : view level e = .unassigned r) (asked : ripas ≤ 1) (known : r ≤ 2)
    (round : RipasRound level ripas flags e e') :
    view level e' = .unassigned ripas ∧ (r = 2 → flags &&& changeDestroyed ≠ 0) := by
  obtain ⟨empty, destroyed, notRam, notAssigned⟩ := unassigned_predicates before
  have cleared : view level 0#64 = .unassigned 0 := view_attr (by decide) (by decide)
  have marked : view level 0x20#64 = .unassigned 1 := view_attr (by decide) (by decide)
  obtain rfl | rfl : ripas = 0 ∨ ripas = 1 := by omega
  · simp only [RipasRound, ripasStep_zero, empty, destroyed, isAssignedDestroyed, notAssigned, notRam, Bool.false_and,
      decide_eq_true_eq, Bool.false_eq_true, if_false] at round
    split_ifs at round with zero two flag
    all_goals simp only [RipasStep.write.injEq, false_and, or_false] at round
    all_goals
      subst round
      refine ⟨cleared, fun two' => ?_⟩
    · omega
    · exact flag
    · exact absurd two' two
  · simp only [RipasRound, ripasStep_one, empty, destroyed, isAssignedEmpty, isAssignedDestroyed, notAssigned,
      Bool.false_and, decide_eq_true_eq, Bool.false_eq_true, if_false] at round
    split_ifs at round with zero two flag
    all_goals simp only [RipasStep.write.injEq, false_and, or_false, true_and, false_or] at round
    all_goals subst round
    · exact ⟨marked, by omega⟩
    · exact ⟨marked, fun _ => flag⟩
    · exact ⟨before.trans (by rw [show r = 1 by omega]), fun two' => absurd two' two⟩

/-- An entry with a granule that is not mapped. -/
theorem round_assigned (before : view level e = .assigned pa r) (asked : ripas ≤ 1) (known : r = 0 ∨ r = 2)
    (round : RipasRound level ripas flags e e') :
    (e' = if ripas = 0 then if r = 2 then 4#64 ||| getMasked e (blockMask level) else 0#64
      else (if r = 2 then 0x20#64 else 0x24#64) ||| leafDescType level ||| getMasked e (blockMask level)) ∧
      (r = 2 → flags &&& changeDestroyed ≠ 0) := by
  obtain ⟨empty, destroyed, notRam, notUnassigned⟩ := assigned_predicates before
  obtain rfl | rfl : ripas = 0 ∨ ripas = 1 := by omega
  · simp only [RipasRound, ripasStep_zero, isUnassignedEmpty, isUnassignedDestroyed, notUnassigned, Bool.false_and,
      destroyed, notRam, decide_eq_true_eq, Bool.false_eq_true, if_false] at round
    split_ifs at round with two flag
    all_goals simp only [RipasStep.write.injEq, false_and, or_false] at round
    all_goals subst round
    · exact ⟨by rw [if_pos rfl, if_pos two], fun _ => flag⟩
    · exact ⟨by rw [if_pos rfl, if_neg two], fun two' => absurd two' two⟩
  · simp only [RipasRound, ripasStep_one, isUnassignedEmpty, isUnassignedDestroyed, notUnassigned, Bool.false_and, empty,
      destroyed, decide_eq_true_eq, Bool.false_eq_true, if_false] at round
    split_ifs at round with zero two flag
    all_goals simp only [RipasStep.write.injEq, false_and, or_false, true_and, false_or] at round
    · subst round
      exact ⟨by rw [if_neg (by omega), if_neg (by omega)], by omega⟩
    · subst round
      exact ⟨by rw [if_neg (by omega), if_pos two], fun _ => flag⟩
    · omega

theorem round_ram (before : view level e = .ram pa) (asked : ripas ≤ 1) (round : RipasRound level ripas flags e e') :
    e' = if ripas = 1 then e else if level = 1 then 0#64 else 4#64 ||| getMasked e (blockMask level) := by
  obtain ⟨isRam, notAssigned, notUnassigned⟩ := mapped_predicates before
  obtain rfl | rfl : ripas = 0 ∨ ripas = 1 := by omega
  · simp only [RipasRound, ripasStep_zero, isUnassignedEmpty, isUnassignedDestroyed, isAssignedDestroyed, notUnassigned,
      notAssigned, Bool.false_and, isRam, decide_eq_true_eq, Bool.false_eq_true, if_false] at round
    split_ifs at round with inner
    all_goals simp only [RipasStep.write.injEq, false_and, or_false] at round
    · rw [if_neg (by omega), if_neg inner, round]
    · rw [if_neg (by omega), if_pos (Classical.not_not.mp inner), round]
  · simp only [RipasRound, ripasStep_one, isUnassignedEmpty, isUnassignedDestroyed, isAssignedEmpty, isAssignedDestroyed,
      notUnassigned, notAssigned, Bool.false_and, Bool.false_eq_true, if_false, reduceCtorEq, true_and, false_or] at round
    exact round.trans (if_pos rfl).symm

end Rounds

/-! ### Unprotected mappings -/

/-- A word with nothing outside a mask that spares the type bits has type zero. -/
theorem descNum_of_outside {host mask : Word} (spared : ~~~mask &&& 3#64 = 3#64)
    (outside : host &&& ~~~mask = 0#64) : descNum host = 0 := by
  have bits : host &&& 3#64 = 0#64 := by
    rw [← spared, ← BitVec.and_assoc, outside, BitVec.zero_and]
  have number : descNum (host &&& 3#64) = descNum host := by
    rw [descNum_and, show descNum 3#64 = 3 by decide]
    exact (Nat.and_two_pow_sub_one_eq_mod _ 2).trans (Nat.mod_mod _ _)
  rw [← number, bits]
  rfl

theorem host_descriptor {host : Word} (accepted : isHostNsValid host level = true) :
    descNum host = 0 ∧ 1 ≤ level ∧ level ≤ 3 := by
  unfold isHostNsValid at accepted
  split at accepted
  · simp only [Bool.and_eq_true, beq_iff_eq] at accepted
    exact ⟨descNum_of_outside (by decide) accepted.1.1, by omega, by omega⟩
  · simp only [Bool.and_eq_true, beq_iff_eq] at accepted
    exact ⟨descNum_of_outside (by decide) accepted.1.1, by omega, by omega⟩
  · simp only [Bool.and_eq_true, beq_iff_eq] at accepted
    exact ⟨descNum_of_outside (by decide) accepted.1.1, by omega, by omega⟩
  · exact nomatch accepted

theorem view_unprotectedDesc {host : Word} (accepted : isHostNsValid host level = true) :
    ∃ pa, view level (unprotectedDesc host level) = .ns pa := by
  obtain ⟨desc, low, high⟩ := host_descriptor accepted
  have leafDesc : descNum (unprotectedDesc host level) = if level = 3 then 3 else 1 := by
    rw [unprotectedDesc, descNum_or, desc, Nat.zero_or, leafDescType_eq]
    split
    · decide
    · decide
  have isNs : nsNum (unprotectedDesc host level) ≠ 0 := by
    rw [unprotectedDesc, leafDescType_eq, nsNum_or]
    have bit := nsNum_lt host
    split
    · rw [show nsNum (bitsInReg ns 1 ||| bitsInReg xn 1 ||| bitsInReg af 1 ||| 3#64) = 1 by decide]
      rcases (by omega : nsNum host = 0 ∨ nsNum host = 1) with zero | one
      · rw [zero]; decide
      · rw [one]; decide
    · rw [show nsNum (bitsInReg ns 1 ||| bitsInReg xn 1 ||| bitsInReg af 1 ||| 1#64) = 1 by decide]
      rcases (by omega : nsNum host = 0 ∨ nsNum host = 1) with zero | one
      · rw [zero]; decide
      · rw [one]; decide
  refine ⟨outAddr (unprotectedDesc host level) level, ?_⟩
  rw [view, leafDesc]
  by_cases bottom : level = 3
  · subst bottom
    simp [isNs]
  · simp [bottom, isNs, low, show level ≤ 2 by omega]

/-! ### Splits -/

/-- The address in the `i`-th entry of a table that splits a block. -/
theorem split_address (parent : Word) {i : Nat} (low : 2 ≤ level) (high : level ≤ 3) (index : i < 512) :
    let word := getMasked parent (blockMask (level - 1)) + BitVec.ofNat 64 (i * 2 ^ (39 - 9 * level))
    IsPage word ∧ word.toNat = outAddr parent (level - 1) + i * 2 ^ (39 - 9 * level) ∧
      word.toNat % 2 ^ (39 - 9 * level) = 0 := by
  obtain ⟨page, same, block⟩ := isPage_block (e := parent) (show 1 ≤ level - 1 by omega) (by omega)
  have small := outAddr_lt (e := parent) (show level - 1 ≤ 3 by omega)
  intro word
  have sum : word.toNat = outAddr parent (level - 1) + i * 2 ^ (39 - 9 * level) := by
    simp only [word]
    rw [BitVec.toNat_add, BitVec.toNat_ofNat, same]
    obtain rfl | rfl : level = 2 ∨ level = 3 := by omega
    all_goals omega
  refine ⟨⟨?_, ?_⟩, sum, ?_⟩
  all_goals
    rw [sum]
    obtain rfl | rfl : level = 2 ∨ level = 3 := by omega
    all_goals omega

theorem isAttr_leafDescType (level : Nat) : IsAttr (leafDescType level) := by
  rw [leafDescType_eq]
  split
  · decide
  · decide

/-- The entries of a table that splits a block with an address. -/
theorem madeOf_split {parent flags : Word} {i : Nat} (attr : IsAttr flags) (low : 2 ≤ level)
    (high : level ≤ 3) (index : i < 512) :
    MadeOf (tablePage flags (getMasked parent (blockMask (level - 1))) (2 ^ (39 - 9 * level)) i)
      level (outAddr parent (level - 1) + 4096 * (i * 512 ^ (3 - level))) flags := by
  obtain ⟨page, sum, block⟩ := split_address parent low high index
  have made := madeOf_or page attr high block
  rw [sum] at made
  have step : i * 2 ^ (39 - 9 * level) = 4096 * (i * 512 ^ (3 - level)) := by
    obtain rfl | rfl : level = 2 ∨ level = 3 := by omega
    all_goals ring
  unfold tablePage
  rwa [← BitVec.or_assoc, BitVec.or_self, ← step]

theorem tablePage_zero (flags : Word) (i : Nat) : tablePage flags 0 0 i = flags := by
  simp [tablePage]

/-- How `create` splits an entry: the flags, the first address and the step of the new table, for the five kinds of
entries that it knows. -/
def SplitBy (parent : Word) (level step : Nat) (cut : Word × Word × Nat) : Prop :=
  let kept := getMasked parent (invalidHipas ||| invalidRipas)
  let pa := getMasked parent (blockMask (level - 1))
  isUnassigned parent = true ∧ cut = (kept, 0, 0) ∨
    isAssigned parent = true ∧ 2 ≤ level ∧ cut = (kept, pa, step) ∨
    isAssignedRam parent (level - 1) = true ∧ 2 ≤ level ∧ cut = (kept ||| leafDescType level, pa, step) ∨
    isUnassignedNs parent = true ∧ cut = (bitsInReg invalidHipas S2tte.unassigned ||| bitsInReg ns 1, 0, 0) ∨
    isAssignedNs parent (level - 1) = true ∧ 2 ≤ level ∧
      cut = (bitsInReg ns 1 ||| getMasked parent (memattr ||| s2ap ||| sh) ||| leafDescType level, pa, step)

theorem splitOf_cases {parent : Word} {step : Nat} {cut : Word × Word × Nat}
    (split : splitOf parent level step = some cut) : SplitBy parent level step cut := by
  -- where the parent's address is used, the parent is not at level 0
  have deep : ∀ {g : Word → Word × Word × Nat}, (addrAsBlock? parent (level - 1)).map g = some cut →
      2 ≤ level ∧ cut = g (getMasked parent (blockMask (level - 1))) := by
    intro g found
    unfold addrAsBlock? at found
    split_ifs at found with bounds
    · exact ⟨by omega, (Option.some.inj found).symm⟩
    · exact nomatch found
  unfold splitOf at split
  unfold SplitBy
  dsimp only at split ⊢
  split_ifs at split with unassigned _ assigned _ mapped unassignedNs mappedNs
  · exact .inl ⟨unassigned, (Option.some.inj split).symm⟩
  · exact .inr (.inl ⟨assigned, deep split⟩)
  · exact .inr (.inr (.inl ⟨mapped, deep split⟩))
  · exact .inr (.inr (.inr (.inl ⟨unassignedNs, (Option.some.inj split).symm⟩)))
  · exact .inr (.inr (.inr (.inr ⟨mappedNs, deep split⟩)))

/-- A split keeps the meaning of every page. -/
theorem view_tablePage {parent flags pa : Word} {step i : Nat} (low : 1 ≤ level) (high : level ≤ 3)
    (split : splitOf parent level (2 ^ (39 - 9 * level)) = some (flags, pa, step)) (index : i < 512) :
    view level (tablePage flags pa step i) = (view (level - 1) parent).at_ (i * 512 ^ (3 - level)) := by
  obtain ⟨keptDesc, keptHipas, keptRipas, keptNs⟩ := fields_kept parent
  have keptAttr : IsAttr (getMasked parent (invalidHipas ||| invalidRipas)) :=
    IsAttr.getMasked (by decide)
  rcases splitOf_cases split with ⟨unassigned, cut⟩ | ⟨assigned, deeper, cut⟩ | ⟨mapped, deeper, cut⟩ |
    ⟨unassignedNs, cut⟩ | ⟨mappedNs, deeper, cut⟩
  · cases cut
    obtain ⟨_, hipas, _⟩ := (isUnassigned_iff parent).mp unassigned
    rw [tablePage_zero, view_of_isUnassigned unassigned,
      view_attr keptDesc (keptHipas.trans hipas), if_pos keptNs, keptRipas]
    rfl
  · cases cut
    obtain ⟨_, hipas, _⟩ := (isAssigned_iff parent).mp assigned
    rw [view_of_isAssigned assigned (by omega) (by omega),
      (madeOf_split keptAttr deeper high index).view (by omega), keptDesc, keptHipas, keptRipas,
      keptNs, hipas]
    simp [View.at_, low, high]
  · cases cut
    obtain ⟨_, leaf⟩ := (isAssignedRam_iff parent (level - 1)).mp mapped
    have bottom : level = 3 := by omega
    subst bottom
    have desc : descNum (getMasked parent (invalidHipas ||| invalidRipas) ||| leafDescType 3) = 3 := by
      rw [descNum_or, keptDesc, Nat.zero_or]
      decide
    have ns : nsNum (getMasked parent (invalidHipas ||| invalidRipas) ||| leafDescType 3) = 0 := by
      rw [nsNum_or, keptNs, Nat.zero_or]
      decide
    rw [view_of_isAssignedRam mapped,
      (madeOf_split (keptAttr.or (isAttr_leafDescType 3)) deeper high index).view (by omega), desc, ns]
    rfl
  · cases cut
    rw [tablePage_zero, view_of_isUnassignedNs unassignedNs, view_attr (by decide) (by decide)]
    rfl
  · cases cut
    obtain ⟨_, leaf⟩ := (isAssignedNs_iff parent (level - 1)).mp mappedNs
    have bottom : level = 3 := by omega
    subst bottom
    generalize attrs : bitsInReg S2tte.ns 1 ||| getMasked parent (memattr ||| s2ap ||| sh) |||
      leafDescType 3 = flags
    have attr : IsAttr flags := by
      rw [← attrs]
      exact (IsAttr.or (by decide) (IsAttr.getMasked (by decide))).or (isAttr_leafDescType 3)
    have desc : descNum flags = 3 := by
      rw [← attrs, descNum_or, descNum_or, getMasked, descNum_and,
        show descNum (memattr ||| s2ap ||| sh) = 0 by decide, Nat.and_zero]
      decide
    have ns : nsNum flags = 1 := by
      rw [← attrs, nsNum_or, nsNum_or, getMasked, nsNum_and,
        show nsNum (memattr ||| s2ap ||| sh) = 0 by decide, Nat.and_zero]
      decide
    rw [view_of_isAssignedNs mappedNs, (madeOf_split attr deeper high index).view (by omega), desc, ns]
    rfl

/-! ### What RTT_READ_ENTRY reports -/

theorem toNat_ripas (e : Word) : (getMaskedValue e invalidRipas).toNat = ripasNum e :=
  toNat_getMaskedValue_defineMask e (by omega) (by omega)

theorem addrAsBlock?_eq (low : 1 ≤ level) (high : level ≤ 3) :
    addrAsBlock? e level = some (getMasked e (blockMask level)) := if_pos ⟨low, high⟩

theorem entryView_of_isUnassigned (holds : isUnassigned e = true) :
    entryView e level = some (rmiUnassigned, 0, ripasNum e) := by
  rw [entryView, if_pos holds, toNat_ripas]

theorem entryView_of_isAssigned (holds : isAssigned e = true) (low : 1 ≤ level) (high : level ≤ 3) :
    entryView e level = some (rmiAssigned, getMasked e (blockMask level), ripasNum e) := by
  obtain ⟨desc, hipas, ns⟩ := (isAssigned_iff e).mp holds
  have other : ¬isUnassigned e = true := by
    rw [isUnassigned_iff]
    omega
  rw [entryView, if_neg other, if_pos holds, toNat_ripas, addrAsBlock?_eq low high, Option.map_some]

/-- Descriptors of a page or a block are neither invalid nor tables. -/
theorem entryView_of_leaf (level : Nat) (desc : descNum e = 1 ∨ descNum e = 3 ∧ level = 3) :
    entryView e level =
      if isAssignedRam e level then (addrAsBlock? e level).map fun pa => (rmiAssigned, pa, 1)
      else if isAssignedNs e level then
        some (rmiAssigned, getMasked e ((levelMask level).getD 0 ||| memattr ||| s2ap ||| sh), 0)
      else some (0, 0, 0) := by
  have notUnassigned : ¬isUnassigned e = true := by
    rw [isUnassigned_iff]
    omega
  have notAssigned : ¬isAssigned e = true := by
    rw [isAssigned_iff]
    omega
  have notTable : ¬isTable e level = true := by
    rw [isTable_iff]
    omega
  have notUnassignedNs : ¬isUnassignedNs e = true := by
    rw [isUnassignedNs_iff]
    omega
  rw [entryView, if_neg notUnassigned, if_neg notAssigned, if_neg notTable, if_neg notUnassignedNs]
  rfl

theorem entryView_of_isAssignedRam (holds : isAssignedRam e level = true) :
    entryView e level = some (rmiAssigned, getMasked e (blockMask level), 1) := by
  have kinds := (isAssignedRam_iff e level).mp holds
  rw [entryView_of_leaf level (by omega), if_pos holds, addrAsBlock?_eq (by omega) (by omega), Option.map_some]

theorem entryView_of_isAssignedNs (holds : isAssignedNs e level = true) :
    entryView e level =
      some (rmiAssigned, getMasked e ((levelMask level).getD 0 ||| memattr ||| s2ap ||| sh), 0) := by
  have kinds := (isAssignedNs_iff e level).mp holds
  have notRam : ¬isAssignedRam e level = true := by
    rw [isAssignedRam_iff]
    omega
  rw [entryView_of_leaf level (by omega), if_neg notRam, if_pos holds]

theorem entryView_of_isUnassignedNs (holds : isUnassignedNs e = true) :
    entryView e level = some (rmiUnassigned, 0, 0) := by
  obtain ⟨desc, hipas, ns⟩ := (isUnassignedNs_iff e).mp holds
  have notUnassigned : ¬isUnassigned e = true := by
    rw [isUnassigned_iff]
    omega
  have notAssigned : ¬isAssigned e = true := by
    rw [isAssigned_iff]
    omega
  have notTable : ¬isTable e level = true := by
    rw [isTable_iff]
    omega
  have notRam : ¬isAssignedRam e level = true := by
    rw [isAssignedRam_iff]
    omega
  rw [entryView, if_neg notUnassigned, if_neg notAssigned, if_neg notTable, if_neg notRam, if_pos holds]

/-- A block of a gigabyte is reported as if nothing were there. -/
theorem entryView_of_huge (desc : descNum e = 1) : entryView e 1 = some (rmiUnassigned, 0, 0) := by
  have notRam : ¬isAssignedRam e 1 = true := by
    rw [isAssignedRam_iff]
    omega
  have notNs : ¬isAssignedNs e 1 = true := by
    rw [isAssignedNs_iff]
    omega
  rw [entryView_of_leaf 1 (.inl desc), if_neg notRam, if_neg notNs]

/-- The host's descriptor has nothing outside of the fields that it may set. -/
theorem host_inside {host : Word} (accepted : isHostNsValid host level = true) :
    host &&& ((levelMask level).getD 0 ||| memattr ||| s2ap ||| sh) = host := by
  have inside : ∀ {mask : Word}, host &&& ~~~mask = 0#64 → host &&& mask = host := by
    intro mask outside
    have split : host = host &&& mask ||| host &&& ~~~mask := by
      rw [← BitVec.and_or_distrib_left, BitVec.or_not_self, BitVec.and_allOnes]
    rw [outside, BitVec.or_zero] at split
    exact split.symm
  unfold isHostNsValid at accepted
  split at accepted
  · simp only [Bool.and_eq_true, beq_iff_eq] at accepted
    exact inside accepted.1.1
  · simp only [Bool.and_eq_true, beq_iff_eq] at accepted
    exact inside accepted.1.1
  · simp only [Bool.and_eq_true, beq_iff_eq] at accepted
    exact inside accepted.1.1
  · exact nomatch accepted

/-- What was mapped at level 2 or 3 reads back as the host gave it. -/
theorem getMasked_unprotectedDesc {host : Word} (accepted : isHostNsValid host level = true)
    (levels : level = 2 ∨ level = 3) :
    getMasked (unprotectedDesc host level) ((levelMask level).getD 0 ||| memattr ||| s2ap ||| sh) = host := by
  rw [unprotectedDesc, getMasked_or]
  have own : getMasked host ((levelMask level).getD 0 ||| memattr ||| s2ap ||| sh) = host := host_inside accepted
  have added : getMasked (bitsInReg ns 1 ||| bitsInReg xn 1 ||| bitsInReg af 1 ||| leafDescType level)
      ((levelMask level).getD 0 ||| memattr ||| s2ap ||| sh) = 0 := by
    rcases levels with rfl | rfl
    · decide
    · decide
  rw [own, added]
  exact BitVec.or_zero

end Islet.Rmm.Rtt
