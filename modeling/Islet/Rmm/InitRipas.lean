import Islet.Rmm.Runs

/-! RTT_INIT_RIPAS against what it measures: which pages become RAM, which ranges the RIM is extended with, and the
tables for which the two are not the same. The loop goes on by the size of the entry that it has found for `base`, and
measures that much, but writes whatever entry the walk comes to. -/

namespace Islet.Rmm

open Lib Prog Bits Rmi Stage2Translation

variable [Platform] {s t : Machine} {rd : Rd} {a g base top level : Nat} {rdW baseW topW : Word}

/-! ### Ranges -/

/-- The ranges follow each other from `low` to `high`. -/
def Consecutive (low high : Nat) : List (Nat × Nat) → Prop
  | [] => low = high
  | (x, y) :: rest => x = low ∧ x < y ∧ Consecutive y high rest

/-- The range is what one entry that is not a table covers. -/
def Core.IsEntry (c : Core) (a : Nat) (range : Nat × Nat) : Prop :=
  ∃ l e, c.forest.Leaf 3 a (range.1 / 4096) l e ∧ range.1 % 2 ^ (39 - 9 * l) = 0 ∧ range.2 = range.1 + 2 ^ (39 - 9 * l)

omit [Platform] in
theorem consecutive_ripasRanges {step : Nat} (positive : 0 < step) (addr n : Nat) :
    Consecutive addr (addr + n * step) (ripasRanges addr step n) := by
  induction n generalizing addr with
  | zero => rw [Nat.zero_mul]; rfl
  | succ n ih =>
    have rest := ih (addr + step)
    rw [show addr + step + n * step = addr + (n + 1) * step by ring] at rest
    exact ⟨rfl, by omega, rest⟩

omit [Platform] in
theorem mem_ripasRanges {addr step n : Nat} {range : Nat × Nat} :
    range ∈ ripasRanges addr step n ↔ ∃ k < n, range = (addr + k * step, addr + k * step + step) := by
  induction n generalizing addr with
  | zero => simp [ripasRanges]
  | succ n ih =>
    have next : ∀ k, addr + step + k * step = addr + (k + 1) * step := fun k => by ring
    simp only [ripasRanges, List.mem_cons, ih, next]
    constructor
    · rintro (rfl | ⟨k, less, rfl⟩)
      · exact ⟨0, by omega, by simp⟩
      · exact ⟨k + 1, by omega, rfl⟩
    · rintro ⟨k, less, rfl⟩
      cases k with
      | zero => exact .inl (by simp)
      | succ k => exact .inr ⟨k, by omega, rfl⟩

omit [Platform] in
/-- The measurements in the log determine the ranges. -/
theorem measuredEvents_injective {ranges ranges' : List (Nat × Nat)} {log : List Event}
    (same : (measuredEvents a ranges).reverse ++ log = (measuredEvents a ranges').reverse ++ log) : ranges = ranges' := by
  have events := List.reverse_injective (List.append_cancel_right same)
  refine List.map_injective_iff.mpr (fun range range' equal => ?_) events
  obtain ⟨_, _⟩ := range
  cases equal
  rfl

/-! ### Pages -/

omit [Platform] in
theorem Rtt.TakesInit.views {e : Word} (takes : Rtt.TakesInit e) (level : Nat) :
    (∃ ripas, ripas ≤ 1 ∧ S2tte.view level e = .unassigned ripas) ∧
      S2tte.view level (Rtt.initialised e) = .unassigned 1 := by
  rcases takes with empty | ram
  · refine ⟨⟨0, by omega, ?_⟩, ?_⟩
    · obtain ⟨holds, value⟩ := Bool.and_eq_true_iff.mp empty
      rw [S2tte.view_of_isUnassigned holds, S2tte.ripas_eq.mp (beq_iff_eq.mp value)]
      rfl
    · rw [Rtt.initialised, if_pos empty]
      exact Rtt.view_initRam
  · obtain ⟨holds, value⟩ := Bool.and_eq_true_iff.mp ram
    have view : S2tte.view level e = .unassigned 1 := by
      rw [S2tte.view_of_isUnassigned holds, S2tte.ripas_eq.mp (beq_iff_eq.mp value)]
      rfl
    refine ⟨⟨1, by omega, view⟩, ?_⟩
    have notEmpty : S2tte.isUnassignedEmpty e = false := by
      rw [(Rtt.unassigned_predicates view).1]
      rfl
    rw [Rtt.initialised, notEmpty]
    exact view

/-- The pages of a round that has found an entry of the level of its step. -/
theorem InitRound.pages {c c' : Core} {x : Nat} (round : InitRound c c' a level x) (high : level ≤ 3)
    (aligned : x % 2 ^ (39 - 9 * level) = 0) (whole : ∀ {l e}, c.forest.Leaf 3 a (x / 4096) l e → l = level)
    (lower : x ≤ g * 4096) (upper : g * 4096 < x + 2 ^ (39 - 9 * level)) :
    (∃ ripas, ripas ≤ 1 ∧ c.Page a g (.unassigned ripas)) ∧ c'.Page a g (.unassigned 1) := by
  obtain ⟨l, e, _, leaf, takes, made, _⟩ := round
  obtain rfl := whole leaf
  have here : c.forest.Leaf 3 a g l e := by
    refine ⟨high, ?_, leaf.last⟩
    rw [block_of_bounds high aligned lower upper]
    exact leaf.stored
  obtain ⟨⟨ripas, known, before⟩, after⟩ := takes.views l
  exact ⟨⟨ripas, known, l, e, here, by rw [before]; rfl⟩, l, _, made g lower upper, by rw [after]; rfl⟩

/-! ### The command -/

/-- RTT_INIT_RIPAS has done what it has measured. -/
structure Machine.InitMeasured (s t : Machine) (a base top : Nat) : Prop where
  grows : base < t.ret 1
  within : t.ret 1 ≤ top
  pages : ∀ {g}, base ≤ g * 4096 → g * 4096 < t.ret 1 →
    (∃ ripas, ripas ≤ 1 ∧ s.core.Page a g (.unassigned ripas)) ∧ t.core.Page a g (.unassigned 1)
  others : LeavesKept s.core t.core a base (t.ret 1)
  measured : ∃ rd ranges, Consecutive base (t.ret 1) ranges ∧ (∀ range ∈ ranges, s.core.IsEntry a range) ∧
    s.core.realm? a = some rd ∧ t.core.realm? a = some (measuredRanges rd ranges) ∧
    t.core.log = (measuredEvents a ranges).reverse ++ s.core.log

/-- With steps of the size of the entry for `base`, the loop comes to an entry of another level. -/
def Core.InitSkips (c : Core) (a base top : Nat) : Prop :=
  ∃ rd level topAddr k, InitAccepted c a base top rd level topAddr ∧
    (∀ j ≤ k, InitReady c a level top topAddr (base + j * 2 ^ (39 - 9 * level))) ∧
    ∃ l e, c.forest.Leaf 3 a ((base + k * 2 ^ (39 - 9 * level)) / 4096) l e ∧ l ≠ level

section Done

variable {topAddr n : Nat} (init : HasInit s.core a base top rd level topAddr n t)

include init

theorem HasInit.high : level ≤ 3 := init.accepted.leaf.choose_spec.level

/-- The loop gets to every round that it can make. -/
theorem HasInit.lt_of_ready {k : Nat}
    (ready : ∀ j ≤ k, InitReady s.core a level top topAddr (base + j * 2 ^ (39 - 9 * level))) : k < n := by
  by_contra past
  exact init.stops (ready n (by omega))

theorem HasInit.not_skips (measured : s.InitMeasured t a base top) : ¬s.core.InitSkips a base top := by
  rintro ⟨rd', level', topAddr', k, accepted, ready, l, e, leaf, other⟩
  obtain ⟨rfl, rfl, rfl⟩ := init.accepted.unique accepted
  obtain ⟨_, ranges, _, entries, _, _, log⟩ := measured.measured
  obtain rfl := measuredEvents_injective (log.symm.trans init.rounds.log)
  obtain ⟨l', e', leaf', _, size⟩ := entries _ (mem_ripasRanges.mpr ⟨k, init.lt_of_ready ready, rfl⟩)
  have same : 39 - 9 * level' = 39 - 9 * l' := Nat.pow_right_injective (Nat.le_refl 2) (Nat.add_left_cancel size)
  have high := init.high
  have high' := leaf'.level
  exact other ((leaf.unique leaf').1.trans (by omega))

theorem HasInit.measured (even : ¬s.core.InitSkips a base top) : s.InitMeasured t a base top := by
  have positive : 0 < 2 ^ (39 - 9 * level) := Nat.two_pow_pos _
  have aligned : ∀ k, (base + k * 2 ^ (39 - 9 * level)) % 2 ^ (39 - 9 * level) = 0 := fun k => by
    rw [Nat.add_mul_mod_self_right]
    exact init.accepted.aligned.1
  have whole : ∀ k < n, ∀ {l e}, s.core.forest.Leaf 3 a ((base + k * 2 ^ (39 - 9 * level)) / 4096) l e → l = level := by
    intro k less l e leaf
    by_contra other
    exact even ⟨rd, level, topAddr, k, init.accepted, fun j le => init.ready j (by omega), l, e, leaf, other⟩
  have some := init.some
  refine ⟨?_, ?_, fun {g} lower upper => ?_, ?_, rd, _, ?_, fun range member => ?_, init.accepted.realm,
    init.rounds.realm, init.rounds.log⟩
  · have := Nat.mul_pos some positive
    rw [init.result]
    omega
  · obtain ⟨k, rfl⟩ : ∃ k, n = k + 1 := ⟨n - 1, by omega⟩
    have last := (init.ready k (by omega)).2.1
    rw [init.result, Nat.succ_mul]
    omega
  · -- the round of the page
    rw [init.result] at upper
    have less : (g * 4096 - base) / 2 ^ (39 - 9 * level) < n := by
      rw [Nat.div_lt_iff_lt_mul positive]
      omega
    have split := Nat.div_add_mod' (g * 4096 - base) (2 ^ (39 - 9 * level))
    have part := Nat.mod_lt (g * 4096 - base) positive
    exact (init.rounds.rounds _ less).pages init.high (aligned _) (whole _ less) (by omega) (by omega)
  · rw [init.result]
    exact init.rounds.kept
  · rw [init.result]
    exact consecutive_ripasRanges positive base n
  · obtain ⟨k, less, rfl⟩ := mem_ripasRanges.mp member
    obtain ⟨_, _, l, e, leaf, _⟩ := init.ready k less
    obtain rfl := whole k less leaf
    exact ⟨l, e, leaf, aligned k, rfl⟩

end Done

/-- A successful RTT_INIT_RIPAS does what it measures, exactly if its steps never come to an entry of another level; one
that fails changes nothing. -/
theorem Machine.Reachable.init_measured (reached : s.Reachable) :
    (∀ {t}, s.Succeeds (.rttInitRipas rdW baseW topW) t →
      (s.InitMeasured t rdW.toNat baseW.toNat topW.toNat ↔ ¬s.core.InitSkips rdW.toNat baseW.toNat topW.toNat)) ∧
    ∀ {t e}, s.handle (.rttInitRipas rdW baseW topW) = (.error (.error e), t) → t.core = s.core := by
  have spec : wp (Rmi.rttInitRipas rdW.toNat baseW.toNat topW.toNat) _ _ s.start :=
    rttInitRipas_spec rdW baseW topW reached.inv rfl rfl
  constructor
  · intro t done
    obtain ⟨_, _, _, _, _, init⟩ := done.post spec
    exact ⟨HasInit.not_skips (s := s) init, HasInit.measured (s := s) init⟩
  · intro t e failed
    exact (wp_error spec failed).2 e rfl

section Blocks

variable {c : Core} {e : Word}

end Blocks

open Sample in
omit [Platform] in
/-- One block is made RAM. -/
theorem init_measured_block : ∃ _ : Platform, ∃ (s t : Machine) (rdW : Word), s.Reachable ∧
    s.Succeeds (.rttInitRipas rdW 0 0x200000) t ∧ ¬s.core.InitSkips rdW.toNat 0 0x200000 ∧
    s.InitMeasured t rdW.toNat 0 0x200000 := by
  let s := Machine.prepared (Action.delegates 3 ++ Action.newRealm 1 39 ++ [Action.newTable 2 0 2])
  have reached : s.Reachable := (Machine.prepared_via _).reachable
  have done : s.Succeeds (.rttInitRipas (BitVec.ofNat 64 (bankAt 0)) 0 0x200000) _ :=
    Machine.succeeds_of_result (by decide +kernel)
  have leaf : s.core.forest.Leaf 3 (bankAt 0) 0 2 0 := ⟨by decide, by decide +kernel, by decide +kernel⟩
  have even : ¬s.core.InitSkips (bankAt 0) 0 0x200000 := by
    rintro ⟨_, level, _, k, accepted, ready, l, e', other, differs⟩
    obtain rfl : level = 2 := (accepted.leaf.choose_spec.unique leaf).1
    -- the range ends with the first step
    have within := (ready k (Nat.le_refl k)).2.1
    obtain rfl : k = 0 := by omega
    exact differs (other.unique leaf).1
  exact ⟨platform, s, _, _, reached, done, even, (reached.init_measured.1 done).mpr even⟩

open Sample in
omit [Platform] in
/-- A block, and then a table of pages: the whole range is measured, but of the table only the first page is made RAM. -/
theorem init_skips_pages : ∃ _ : Platform, ∃ (s t : Machine) (rdW : Word), s.Reachable ∧
    s.Succeeds (.rttInitRipas rdW 0 0x400000) t ∧ t.ret 1 = 0x400000 ∧
    s.core.Page rdW.toNat 513 (.unassigned 0) ∧ t.core.Page rdW.toNat 513 (.unassigned 0) := by
  let s := Machine.prepared (Action.delegates 4 ++ Action.newRealm 1 39 ++
    [Action.newTable 2 0 2, Action.newTable 3 0x200000 3])
  have done : s.Succeeds (.rttInitRipas (BitVec.ofNat 64 (bankAt 0)) 0 0x400000) _ :=
    Machine.succeeds_of_result (by decide +kernel)
  obtain ⟨t, same⟩ : ∃ t, (s.handle (.rttInitRipas (BitVec.ofNat 64 (bankAt 0)) 0 0x400000)).2 = t := ⟨_, rfl⟩
  have top : t.ret 1 = 0x400000 := same ▸ by decide +kernel
  have node : t.core.forest.node (bankAt 0) 3 1 = some (bankAt 3) := same ▸ by decide +kernel
  have zero : t.core.forest.read (bankAt 3) 1 = 0 := same ▸ by decide +kernel
  rw [same] at done
  have stored := Forest.entry_of_node node (show 1 < 512 by decide)
  rw [zero] at stored
  exact ⟨platform, s, t, _, (Machine.prepared_via _).reachable, done, top,
    ⟨3, 0, ⟨by decide, by decide +kernel, by decide +kernel⟩, by decide⟩,
    3, 0, ⟨by decide, stored, forest_next_none (by decide)⟩, by decide⟩

end Islet.Rmm
