import Islet.Rmm.Mm.Translation

/-! What the operations on the monitor's page table change. An entry is found by
27 bits of the page number, so each statement is about entries whose numbers
agree in these bits; a page that differs only in higher bits is the same entry. -/

namespace Islet.Rmm.Mm.PageTable

open Bits Vmsa

/-- The number of the bottom entry that a walk for `va` ends at. -/
def slot (va : Nat) : Nat := va / 4096 % 2 ^ 27

variable {pt : PageTable} {va va' pa : Nat} {flags : Word}

theorem slot_eq_iff : slot va' = slot va ↔ RawGpa.index 1 va' = RawGpa.index 1 va ∧
    RawGpa.index 2 va' = RawGpa.index 2 va ∧ RawGpa.index 3 va' = RawGpa.index 3 va := by
  simp only [slot, RawGpa.index_eq _ (show 1 ≤ 3 by omega), RawGpa.index_eq _ (show 2 ≤ 3 by omega),
    RawGpa.index_eq _ (show 3 ≤ 3 by omega)]
  omega

theorem lookup_congr (same : slot va' = slot va) : pt.lookup va' = pt.lookup va := by
  obtain ⟨first, second, third⟩ := slot_eq_iff.mp same
  simp only [lookup, first, second, third]

theorem lookup_setPage : (pt.setPage va pa flags).lookup va' =
    if slot va' = slot va then pageDesc pa flags else pt.lookup va' := by
  by_cases first : RawGpa.index 1 va' = RawGpa.index 1 va
  · by_cases second : RawGpa.index 2 va' = RawGpa.index 2 va
    · by_cases third : RawGpa.index 3 va' = RawGpa.index 3 va
      · rw [if_pos (slot_eq_iff.mpr ⟨first, second, third⟩)]
        simp [lookup, setPage, first, second, third]
      · rw [if_neg (fun same => third (slot_eq_iff.mp same).2.2)]
        simp only [lookup, setPage, first, second, Function.update_self]
        rw [Function.update_of_ne third]
        cases pt (RawGpa.index 1 va) with
        | none => rfl
        | some t2 =>
          simp only [Option.getD_some]
          cases t2 (RawGpa.index 2 va) <;> rfl
    · rw [if_neg (fun same => second (slot_eq_iff.mp same).2.1)]
      simp only [lookup, setPage, first, Function.update_self]
      rw [Function.update_of_ne second]
      cases pt (RawGpa.index 1 va) <;> rfl
  · rw [if_neg (fun same => first (slot_eq_iff.mp same).1)]
    simp only [lookup, setPage]
    rw [Function.update_of_ne first]

theorem lookup_unsetPage : (pt.unsetPage va).lookup va' =
    if slot va' = slot va ∧ isValid (pt.lookup va) = true then 0 else pt.lookup va' := by
  unfold unsetPage
  cases level1 : pt (RawGpa.index 1 va) with
  | none =>
    have missing : pt.lookup va = 0 := by simp only [lookup, level1]
    rw [missing, if_neg (fun both => absurd both.2 (by decide))]
  | some t2 =>
    cases level2 : t2 (RawGpa.index 2 va) with
    | none =>
      have missing : pt.lookup va = 0 := by simp only [lookup, level1, level2]
      simp only [level2]
      rw [missing, if_neg (fun both => absurd both.2 (by decide))]
    | some t3 =>
      have here : pt.lookup va = t3 (RawGpa.index 3 va) := by simp only [lookup, level1, level2]
      simp only [level2]
      rw [here]
      by_cases valid : isValid (t3 (RawGpa.index 3 va)) = true
      · rw [if_pos valid]
        by_cases first : RawGpa.index 1 va' = RawGpa.index 1 va
        · by_cases second : RawGpa.index 2 va' = RawGpa.index 2 va
          · by_cases third : RawGpa.index 3 va' = RawGpa.index 3 va
            · rw [if_pos ⟨slot_eq_iff.mpr ⟨first, second, third⟩, valid⟩]
              simp [lookup, first, second, third]
            · rw [if_neg (fun both => third (slot_eq_iff.mp both.1).2.2)]
              simp only [lookup, first, second, level1, level2, Function.update_self]
              rw [Function.update_of_ne third]
          · rw [if_neg (fun both => second (slot_eq_iff.mp both.1).2.1)]
            simp only [lookup, first, level1, Function.update_self]
            rw [Function.update_of_ne second]
        · rw [if_neg (fun both => first (slot_eq_iff.mp both.1).1)]
          simp only [lookup]
          rw [Function.update_of_ne first]
      · rw [if_neg valid, if_neg (fun both => valid both.2)]

/-! ### Ranges of pages -/

/-- The table `pt'` is `pt` with the pages numbered `first` to `last` mapped onto themselves. -/
def Maps (pt pt' : PageTable) (first last : Nat) (flags : Word) : Prop :=
  ∀ va, (∃ k, first ≤ k ∧ k ≤ last ∧ slot va = k % 2 ^ 27 ∧ pt'.lookup va = pageDesc (4096 * k) flags) ∨
    (∀ k, first ≤ k → k ≤ last → slot va ≠ k % 2 ^ 27) ∧ pt'.lookup va = pt.lookup va

theorem slot_page (k : Nat) : slot (4096 * k) = k % 2 ^ 27 := by
  rw [slot, Nat.mul_div_cancel_left _ (by omega)]

theorem setPages_done {first last : Nat} (count fuel : Nat) (ordered : last + 1 = first + count)
    (small : 4096 * last + 4096 < 2 ^ 64) (enough : count < fuel) :
    ∃ pt', setPages flags fuel ⟨4096 * first, 4096 * last⟩ ⟨4096 * first, 4096 * last⟩ pt = .done pt' ∧
      Maps pt pt' first last flags := by
  induction count generalizing first fuel pt with
  | zero =>
    obtain ⟨fuel, rfl⟩ : ∃ m, fuel = m + 1 := ⟨fuel - 1, by omega⟩
    refine ⟨pt, ?_, fun va => .inr ⟨fun k low high => by omega, rfl⟩⟩
    rw [setPages, PageIter.next_of_lt (by omega)]
  | succ count ih =>
    obtain ⟨fuel, rfl⟩ : ∃ m, fuel = m + 1 := ⟨fuel - 1, by omega⟩
    obtain ⟨pt', run, maps⟩ := @ih (pt.setPage (4096 * first) (4096 * first) flags) (first + 1) fuel
      (by omega) (by omega)
    refine ⟨pt', ?_, fun va => ?_⟩
    · rw [setPages, PageIter.next_of_le (by omega) (by omega)]
      simp only
      rw [show 4096 * first + 4096 = 4096 * (first + 1) by omega, run]
    · rcases maps va with ⟨k, low, high, number, entry⟩ | ⟨outside, entry⟩
      · exact .inl ⟨k, by omega, high, number, entry⟩
      · rw [lookup_setPage, slot_page] at entry
        by_cases here : slot va = first % 2 ^ 27
        · exact .inl ⟨first, by omega, by omega, here, by rw [entry, if_pos here]⟩
        · refine .inr ⟨fun k low high => ?_, by rw [entry, if_neg here]⟩
          obtain rfl | above : k = first ∨ first + 1 ≤ k := by omega
          · exact here
          · exact outside k above high

theorem setPagesWithSize_done {start size : Nat} (positive : 0 < size)
    (small : start + size + 4095 < 2 ^ 64) :
    ∃ pt', setPagesWithSize pt start start size flags = .done pt' ∧
      Maps pt pt' (start / 4096) ((start + size - 1) / 4096) flags := by
  have range : PageIter.rangeWithSize start size =
      some ⟨4096 * (start / 4096), 4096 * ((start + size - 1) / 4096)⟩ := by
    unfold PageIter.rangeWithSize alignDown
    simp only
    rw [Nat.mod_eq_of_lt (by omega), if_pos (by omega), Nat.mul_comm (start / 4096),
      Nat.mul_comm ((start + size - 1) / 4096)]
  unfold setPagesWithSize
  rw [range]
  exact setPages_done ((start + size - 1) / 4096 + 1 - start / 4096) PageIter.limit (by omega) (by omega)
    (by unfold PageIter.limit; omega)

/-- An iterator whose last page is the last one of all never ends. -/
theorem setPages_diverge (fuel k : Nat) (inside : 4096 * k ≤ 2 ^ 64 - 4096) :
    setPages flags fuel ⟨4096 * k, 2 ^ 64 - 4096⟩ ⟨4096 * k, 2 ^ 64 - 4096⟩ pt = .diverge := by
  induction fuel generalizing k pt with
  | zero => rfl
  | succ fuel ih =>
    have step : PageIter.next ⟨4096 * k, 2 ^ 64 - 4096⟩ =
        some (4096 * k, ⟨4096 * ((k + 1) % 2 ^ 52), 2 ^ 64 - 4096⟩) := by
      unfold PageIter.next
      simp only
      rw [if_pos inside, show (4096 * k + 4096) % 2 ^ 64 = 4096 * ((k + 1) % 2 ^ 52) by omega]
    rw [setPages, step]
    exact ih _ (by omega)

/-! ### Single pages of commands -/

/-- The largest address that `map` returns for. -/
abbrev mapLimit : Nat := 2 ^ 64 - 8192

theorem map_done {addr : Nat} (secure : Bool) (nonzero : addr ≠ 0) (small : addr ≤ mapLimit) :
    ∃ pt', pt.map addr secure = .done pt' ∧
      Maps pt pt' (addr / 4096) ((addr + 4095) / 4096) (rmiFlags secure) := by
  unfold map mapLimit at *
  rw [if_neg nonzero]
  exact setPagesWithSize_done (by omega) (by omega)

theorem map_stuck {addr : Nat} (secure : Bool) (large : mapLimit < addr) (bound : addr < 2 ^ 64)
    (pt' : PageTable) : pt.map addr secure ≠ .done pt' := by
  unfold mapLimit at large
  unfold map
  rw [if_neg (by omega)]
  unfold setPagesWithSize PageIter.rangeWithSize alignDown
  simp only
  by_cases wraps : 2 ^ 64 - 4096 < addr
  · -- the last address of the page wraps around to a lower one
    rw [if_neg (by omega)]
    exact nofun
  · have last : (addr + 4096 - 1) % 2 ^ 64 / 4096 * 4096 = 2 ^ 64 - 4096 := by omega
    rw [last, if_pos (by omega), Nat.mul_comm]
    change setPages _ _ _ _ _ ≠ _
    rw [setPages_diverge _ _ (by omega)]
    exact nofun

theorem isValid_zero : isValid 0 = false := by decide

theorem isNs_zero : isNs 0 = false := by decide

theorem getMaskedValue_page (k bit : Nat) (low : bit < 12) :
    getMaskedValue (BitVec.ofNat 64 (4096 * k)) (defineMask bit bit) = 0#64 := by
  apply BitVec.eq_of_toNat_eq
  rw [toNat_getMaskedValue_defineMask _ (Nat.le_refl _) (by omega), BitVec.toNat_ofNat,
    show bit + 1 - bit = 1 by omega]
  have split : 4096 = 2 ^ bit * (2 * 2 ^ (11 - bit)) := by
    rw [← Nat.pow_succ', ← Nat.pow_add, show bit + (11 - bit + 1) = 12 by omega]
  have whole : 4096 * k % 2 ^ 64 = 4096 * (k % 2 ^ 52) := by omega
  rw [whole, split, Nat.mul_assoc, Nat.mul_div_cancel_left _ (Nat.two_pow_pos bit), Nat.mul_assoc]
  simp

theorem isNs_pageDesc (k : Nat) (flags : Word) :
    isNs (pageDesc (4096 * k) flags) = isNs (flags ||| mapExtraFlag) := by
  unfold isNs pageDesc PtDesc.ns
  rw [getMaskedValue_or, getMaskedValue_page k 5 (by omega), BitVec.zero_or]

theorem isValid_pageDesc (k : Nat) (flags : Word) :
    isValid (pageDesc (4096 * k) flags) = isValid (flags ||| mapExtraFlag) := by
  unfold isValid pageDesc PtDesc.valid
  rw [getMaskedValue_or, getMaskedValue_page k 0 (by omega), BitVec.zero_or]

theorem isNs_rmi (k : Nat) (secure : Bool) : isNs (pageDesc (4096 * k) (rmiFlags secure)) = !secure := by
  rw [isNs_pageDesc]
  cases secure <;> decide

theorem isValid_rmi (k : Nat) (secure : Bool) : isValid (pageDesc (4096 * k) (rmiFlags secure)) = true := by
  rw [isValid_pageDesc]
  cases secure <;> decide

/-! ### Granules -/

theorem granule_page {b : Nat} (valid : validateAddr b = true) :
    b = 4096 * slot b ∧ b ≠ 0 ∧ b ≤ mapLimit ∧ b / 4096 = slot b ∧ (b + 4095) / 4096 = slot b ∧
      slot b < 2 ^ 27 := by
  have := validateAddr_iff.mp valid
  unfold slot mapLimit
  omega

/-- Mapping a granule changes the entry of its page. -/
theorem map_granule {b : Nat} (valid : validateAddr b = true) (secure : Bool) :
    ∃ pt', pt.map b secure = .done pt' ∧ ∀ va, pt'.lookup va =
      if slot va = slot b then pageDesc b (rmiFlags secure) else pt.lookup va := by
  obtain ⟨page, nonzero, small, first, last, bound⟩ := granule_page valid
  obtain ⟨pt', run, maps⟩ := @map_done pt b secure nonzero small
  refine ⟨pt', run, fun va => ?_⟩
  rcases maps va with ⟨k, low, high, number, entry⟩ | ⟨outside, entry⟩
  · have same : k = slot b := by omega
    subst same
    rw [Nat.mod_eq_of_lt bound] at number
    rw [if_pos number, entry, ← page]
  · have other := outside (slot b) (by omega) (by omega)
    rw [Nat.mod_eq_of_lt bound] at other
    rw [if_neg other, entry]

theorem unmap_granule {b : Nat} (valid : validateAddr b = true) (va : Nat) :
    (pt.unmap b).lookup va =
      if slot va = slot b ∧ isValid (pt.lookup b) = true then 0 else pt.lookup va := by
  obtain ⟨page, nonzero, _⟩ := granule_page valid
  have aligned : alignDown b 4096 = b := by
    unfold alignDown
    omega
  rw [unmap, if_neg nonzero, aligned, lookup_unsetPage]

/-! ### What commands may do -/

/-- Entries change on pages of granules only, and not to a non-secure mapping. -/
def Safe (pt pt' : PageTable) : Prop := ∀ va, pt'.lookup va = pt.lookup va ∨
  isNs (pt'.lookup va) = false ∧ ∃ b, validateAddr b = true ∧ slot va = slot b

namespace Safe

variable {pt pt' pt₁ pt₂ pt₃ : PageTable} {b : Nat}

theorem refl (pt : PageTable) : Safe pt pt := fun _ => .inl rfl

theorem trans (first : Safe pt₁ pt₂) (second : Safe pt₂ pt₃) : Safe pt₁ pt₃ := by
  intro va
  rcases second va with same | changed
  · rcases first va with same' | ⟨secure, granule⟩
    · exact .inl (same.trans same')
    · exact .inr ⟨by rw [same]; exact secure, granule⟩
  · exact .inr changed

theorem unmap (valid : validateAddr b = true) : Safe pt (pt.unmap b) := by
  intro va
  rw [unmap_granule valid]
  split
  · rename_i both
    exact .inr ⟨isNs_zero, b, valid, both.1⟩
  · exact .inl rfl

theorem map_secure (valid : validateAddr b = true) :
    ∃ pt', pt.map b true = .done pt' ∧ Safe pt pt' := by
  obtain ⟨pt', run, entries⟩ := @map_granule pt b valid true
  refine ⟨pt', run, fun va => ?_⟩
  rw [entries]
  split
  · rename_i same
    refine .inr ⟨?_, b, valid, same⟩
    rw [(granule_page valid).1, isNs_rmi]
    rfl
  · exact .inl rfl

/-- A mapping that is taken back is safe, whatever it was. -/
theorem map_unmap (valid : validateAddr b = true) (secure : Bool) :
    ∃ pt', pt.map b secure = .done pt' ∧ Safe pt (pt'.unmap b) := by
  obtain ⟨pt', run, entries⟩ := @map_granule pt b valid secure
  have mapped : isValid (pt'.lookup b) = true := by
    rw [entries, if_pos rfl, (granule_page valid).1, isValid_rmi]
  refine ⟨pt', run, fun va => ?_⟩
  rw [unmap_granule valid, mapped, entries va]
  by_cases same : slot va = slot b
  · rw [if_pos ⟨same, rfl⟩]
    exact .inr ⟨isNs_zero, b, valid, same⟩
  · rw [if_neg (fun both => same both.1), if_neg same]
    exact .inl rfl

end Safe

/-! ### The table after boot -/

theorem fill_done {regions : List Region}
    (fine : ∀ r ∈ regions, 0 < r.size ∧ r.start + r.size + 4095 < 2 ^ 64 ∧
      isNs (r.flags ||| mapExtraFlag) = false) :
    ∃ pt', fill regions pt = .done pt' ∧
      ((∀ va, isNs (pt.lookup va) = false) → ∀ va, isNs (pt'.lookup va) = false) := by
  induction regions generalizing pt with
  | nil => exact ⟨pt, rfl, id⟩
  | cons region rest ih =>
    obtain ⟨positive, small, secure⟩ := fine region List.mem_cons_self
    obtain ⟨pt₁, run, maps⟩ := @setPagesWithSize_done pt region.flags _ _ positive small
    obtain ⟨pt', run', kept⟩ := @ih pt₁ fun r member => fine r (List.mem_cons_of_mem _ member)
    refine ⟨pt', by rw [fill, run]; exact run', fun before => kept fun va => ?_⟩
    rcases maps va with ⟨k, _, _, _, entry⟩ | ⟨_, entry⟩
    · rw [entry, isNs_pageDesc, secure]
    · rw [entry, before]

/-- The regions of `fill` are outside of the granules and mapped secure. -/
theorem fillRegions_spec {layout : PlatformMemoryLayout} {r : Region} (member : r ∈ fillRegions layout) :
    0 < r.size ∧ isNs (r.flags ||| mapExtraFlag) = false ∧ r.start % 4096 = 0 ∧
      (0xFDC00000 ≤ r.start ∧ r.start + r.size ≤ 0xFFC00000 ∨
        r.start = 0x1c0c0000 ∧ r.size = 4096) := by
  have base := layout.rmmBase_eq
  have rw_start := layout.rwStart_gt
  have rw_end := layout.rwEnd_gt
  have stack := layout.stackBase_ge
  have stack_end := layout.stack_end
  have aligned := layout.rwStart_aligned
  have aligned' := layout.stackBase_aligned
  have uart := layout.uartPhys_eq
  simp only [fillRegions, List.mem_append, List.mem_cons, List.not_mem_nil, or_false, List.mem_map,
    List.mem_range, numOfCpu, rmmStackGuardSize, rmmStackSize, rmmSharedBufferStart] at member
  rcases member with ((rfl | rfl) | ⟨i, bound, rfl⟩) | (rfl | rfl)
  all_goals refine ⟨?_, by simp only; decide, ?_, ?_⟩ <;> simp only [and_true]
  all_goals omega

theorem isNs_new (va : Nat) : isNs (new.lookup va) = false := isNs_zero

/-- `fill` returns, and maps nothing non-secure. -/
theorem fill_fillRegions (layout : PlatformMemoryLayout) :
    ∃ pt, fill (fillRegions layout) .new = .done pt ∧ ∀ va, isNs (pt.lookup va) = false := by
  obtain ⟨pt, run, kept⟩ := @fill_done .new (fillRegions layout) fun r member => by
    obtain ⟨positive, secure, _, place⟩ := fillRegions_spec member
    exact ⟨positive, by omega, secure⟩
  exact ⟨pt, run, kept isNs_new⟩

theorem slot_of_inFill {layout : PlatformMemoryLayout} {va : Nat} (inside : InFill layout va) :
    slot va = va / 4096 ∧
      (0xFDC00 ≤ va / 4096 ∧ va / 4096 < 0xFFC00 ∨ va / 4096 = 0x1c0c0) := by
  obtain ⟨r, member, low, high⟩ := inside
  obtain ⟨_, _, aligned, place⟩ := fillRegions_spec member
  unfold alignDown at low
  unfold slot
  omega

/-- No granule has its entry among those of `fill`. -/
theorem Safe.inFill {pt pt' : PageTable} {layout : PlatformMemoryLayout} {va : Nat} (safe : Safe pt pt')
    (inside : InFill layout va) : pt'.lookup va = pt.lookup va := by
  rcases safe va with same | ⟨_, b, valid, number⟩
  · exact same
  · obtain ⟨page, place⟩ := slot_of_inFill inside
    have range := validateAddr_iff.mp valid
    unfold slot at number page
    omega

end Islet.Rmm.Mm.PageTable
