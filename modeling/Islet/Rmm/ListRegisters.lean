import Islet.Rmm.Progress

/-! List registers of the virtual interrupt controller, on their way from the host to the
hardware and back: `receive_state_from_host` and `restore_state` before the realm runs,
`save_state` and `send_state_to_host` after it. The hardware has one register more than
`nr_lrs` says. -/

namespace Islet.Rmm

variable [Platform]

/-! ### Loading and saving -/

/-- The `ICH_*_EL2` registers of a CPU. -/
structure IchRegisters where
  lr : Nat → Word
  ap0r : Nat → Word
  ap1r : Nat → Word
  vmcr : Word
  hcr : Word
  misr : Word

/-- The saved state with the active priorities, which only `restore_state` and `save_state` use. -/
structure GicContext extends GicRegister where
  ichAp0rEl2 : Nat → Word
  ichAp1rEl2 : Nat → Word

namespace Gic

/-- `set_lr`, `set_ap0r` and `set_ap1r`, with as many registers as there are. -/
def setIndexed (count : Nat) (registers : Nat → Word) (i : Nat) (value : Word) : Nat → Word :=
  if i < count then Function.update registers i value else registers

def setLr := setIndexed 16

def setAp0r := setIndexed 4

def setAp1r := setIndexed 4

/-- `restore_state`, with the number of active priority registers of the hardware. -/
def restoreState (nrAprs : Nat) (gic : GicContext) (cpu : IchRegisters) : IchRegisters :=
  let lr := (List.range (Platform.nrLrs + 1)).foldl (fun lr i => setLr lr i (gic.ichLrEl2 i)) cpu.lr
  let ap0r := (List.range (nrAprs + 1)).foldl (fun ap i => setAp0r ap i (gic.ichAp0rEl2 i)) cpu.ap0r
  let ap1r := (List.range (nrAprs + 1)).foldl (fun ap i => setAp1r ap i (gic.ichAp1rEl2 i)) cpu.ap1r
  { cpu with
    lr := lr
    ap0r := ap0r
    ap1r := ap1r
    vmcr := gic.ichVmcrEl2
    hcr := gic.ichHcrEl2 }

/-- `save_state`. -/
def saveState (nrAprs : Nat) (gic : GicContext) (cpu : IchRegisters) : GicContext :=
  { gic with
    ichLrEl2 := (List.range (Platform.nrLrs + 1)).foldl (fun lr i => Function.update lr i (cpu.lr i)) gic.ichLrEl2
    ichAp0rEl2 := (List.range (nrAprs + 1)).foldl (fun ap i => Function.update ap i (cpu.ap0r i)) gic.ichAp0rEl2
    ichAp1rEl2 := (List.range (nrAprs + 1)).foldl (fun ap i => Function.update ap i (cpu.ap1r i)) gic.ichAp1rEl2
    ichVmcrEl2 := cpu.vmcr
    ichHcrEl2 := cpu.hcr
    ichMisrEl2 := cpu.misr }

/-- The REC with the saved state. -/
def withGic (r : Rec) (gic : GicContext) : Rec := { r with context := { r.context with gicState := gic.toGicRegister } }

/-! ### Loops over registers -/

omit [Platform] in
theorem foldl_update {α : Type} [DecidableEq α] {key : Nat → α} (inj : Function.Injective key) (value : Nat → Word)
    (start : α → Word) (n j : Nat) :
    (List.range n).foldl (fun f i => Function.update f (key i) (value i)) start (key j) =
      if j < n then value j else start (key j) := by
  induction n with
  | zero => rfl
  | succ n ih =>
    rw [List.range_succ, List.foldl_append, List.foldl_cons, List.foldl_nil]
    by_cases last : j = n
    · subst last
      rw [Function.update_self, if_pos (Nat.lt_succ_self j)]
    · rw [Function.update_of_ne (inj.ne last), ih]
      by_cases before : j < n
      · rw [if_pos before, if_pos (Nat.lt_succ_of_lt before)]
      · rw [if_neg before, if_neg (by omega)]

omit [Platform] in
theorem foldl_setIndexed {count n : Nat} (fits : n ≤ count) (value : Nat → Word) (start : Nat → Word) (j : Nat) :
    (List.range n).foldl (fun f i => setIndexed count f i (value i)) start j = if j < n then value j else start j := by
  refine Eq.trans ?_ (foldl_update Function.injective_id value start n j)
  refine congrFun (List.foldl_ext _ _ _ fun f i member => ?_) j
  exact if_pos ((List.mem_range.mp member).trans_le fits)

theorem restoreState_lr (nrAprs : Nat) (gic : GicContext) (cpu : IchRegisters) {i : Nat} (implemented : i ≤ Platform.nrLrs) :
    (restoreState nrAprs gic cpu).lr i = gic.ichLrEl2 i := by
  have few := Platform.nrLrs_lt
  exact (foldl_setIndexed (by omega) gic.ichLrEl2 cpu.lr i).trans (if_pos (by omega))

theorem saveState_lr (nrAprs : Nat) (gic : GicContext) (cpu : IchRegisters) {i : Nat} (implemented : i ≤ Platform.nrLrs) :
    (saveState nrAprs gic cpu).ichLrEl2 i = cpu.lr i :=
  (foldl_update Function.injective_id cpu.lr gic.ichLrEl2 _ i).trans (if_pos (by omega))

/-- The word of the `Run` page for a list register. -/
theorem sendStateToHost_lr (r : Rec) (run : Page) {i : Nat} (implemented : i ≤ Platform.nrLrs) :
    sendStateToHost r run (Run.gicLr i) =
      if i < Platform.nrLrs then r.context.gicState.ichLrEl2 i else run (Run.gicLr i) := by
  have few := Platform.nrLrs_lt
  have inj : Function.Injective Run.gicLr := fun i j same => by
    unfold Run.gicLr at same
    omega
  unfold sendStateToHost Run.set
  rw [Function.update_of_ne, Function.update_of_ne, Function.update_of_ne]
  · exact foldl_update inj r.context.gicState.ichLrEl2 run Platform.nrLrs i
  all_goals
    unfold Run.gicLr
    simp only [Run.gicMisr, Run.gicVmcr, Run.gicHcr]
    omega

/-! ### The exchange -/

/-- An interrupt that the host may ask for, if the register holds one. -/
structure WellFormed (lr : Word) : Prop where
  software : lrState lr ≠ 0 → (lr >>> 61) &&& 1 = 0
  vintid : lrState lr ≠ 0 → validVintid (lrVintid lr) = true
  priority : lrState lr ≠ 0 → lrPriority lr &&& Platform.priRes0Mask = 0

/-- All list registers of the hardware, `lr`, are what the host has asked for. -/
structure Loaded (run : Page) (lr : Nat → Word) : Prop where
  entry : ∀ i ≤ Platform.nrLrs, lr i = Run.entryGicLr run i
  wellFormed : ∀ i ≤ Platform.nrLrs, WellFormed (lr i)
  distinct : ∀ i j, i < j → j ≤ Platform.nrLrs → lrState (lr i) ≠ 0 → lrState (lr j) ≠ 0 →
    lrVintid (lr i) ≠ lrVintid (lr j)

theorem receiveStateFromHost_lr (r : Rec) (run : Page) (i : Nat) :
    (receiveStateFromHost r run).context.gicState.ichLrEl2 i =
      if i < Platform.nrLrs then Run.entryGicLr run i else r.context.gicState.ichLrEl2 i := rfl

section Accepted

variable {run : Page} (accepted : validateState run = true)
include accepted

theorem validLr_of_validateState {i : Nat} (inside : i < Platform.nrLrs) (used : lrState (Run.entryGicLr run i) ≠ 0) :
    validLr run i = true := by
  unfold validateState at accepted
  rw [Bool.and_eq_true, List.all_eq_true] at accepted
  have checked := accepted.2 i (List.mem_range.mpr inside)
  rw [Bool.or_eq_true, beq_iff_eq] at checked
  exact checked.resolve_left used

theorem wellFormed_of_validateState {i : Nat} (inside : i < Platform.nrLrs) : WellFormed (Run.entryGicLr run i) := by
  have checked : lrState (Run.entryGicLr run i) ≠ 0 → _ := fun used => validLr_of_validateState accepted inside used
  simp only [validLr, Bool.and_eq_true, beq_iff_eq] at checked
  exact ⟨fun used => (checked used).1.1.1.1, fun used => (checked used).1.2, fun used => (checked used).1.1.1.2⟩

/-- The nested loop compares with the last register as well. -/
theorem distinct_of_validateState {i j : Nat} (before : i < j) (last : j ≤ Platform.nrLrs)
    (used : lrState (Run.entryGicLr run i) ≠ 0) (used' : lrState (Run.entryGicLr run j) ≠ 0) :
    lrVintid (Run.entryGicLr run i) ≠ lrVintid (Run.entryGicLr run j) := by
  have checked := validLr_of_validateState accepted (before.trans_le last) used
  simp only [validLr, Bool.and_eq_true, List.all_eq_true] at checked
  have other := checked.2 (j - i - 1) (List.mem_range.mpr (by omega))
  rw [show i + 1 + (j - i - 1) = j by omega, Bool.or_eq_true, beq_iff_eq, bne_iff_ne] at other
  exact other.resolve_left used'

theorem loaded_iff (r : Rec) {lr : Nat → Word}
    (restored : ∀ i ≤ Platform.nrLrs, lr i = (receiveStateFromHost r run).context.gicState.ichLrEl2 i) :
    Loaded run lr ↔ r.context.gicState.ichLrEl2 Platform.nrLrs = Run.entryGicLr run Platform.nrLrs ∧
      WellFormed (Run.entryGicLr run Platform.nrLrs) := by
  have last : lr Platform.nrLrs = r.context.gicState.ichLrEl2 Platform.nrLrs := by
    rw [restored _ (Nat.le_refl _), receiveStateFromHost_lr, if_neg (Nat.lt_irrefl _)]
  constructor
  · intro loaded
    refine ⟨last.symm.trans (loaded.entry _ (Nat.le_refl _)), ?_⟩
    rw [← loaded.entry _ (Nat.le_refl _)]
    exact loaded.wellFormed _ (Nat.le_refl _)
  · rintro ⟨same, fine⟩
    have entry : ∀ i ≤ Platform.nrLrs, lr i = Run.entryGicLr run i := by
      intro i inside
      rcases Nat.lt_or_eq_of_le inside with before | rfl
      · rw [restored i inside, receiveStateFromHost_lr, if_pos before]
      · exact last.trans same
    refine ⟨entry, fun i inside => ?_, fun i j before inside used used' => ?_⟩
    · rw [entry i inside]
      rcases Nat.lt_or_eq_of_le inside with before | rfl
      · exact wellFormed_of_validateState accepted before
      · exact fine
    · rw [entry i (by omega)] at used ⊢
      rw [entry j inside] at used' ⊢
      exact distinct_of_validateState accepted before inside used used'

end Accepted

/-- All list registers that were saved are in the `Run` page. -/
def Reported (saved : GicContext) (run : Page) : Prop :=
  ∀ i ≤ Platform.nrLrs, run (Run.gicLr i) = saved.ichLrEl2 i

theorem reported_iff (r : Rec) (nrAprs : Nat) (gic : GicContext) (cpu : IchRegisters) (run : Page) :
    Reported (saveState nrAprs gic cpu) (sendStateToHost (withGic r (saveState nrAprs gic cpu)) run) ↔
      run (Run.gicLr Platform.nrLrs) = cpu.lr Platform.nrLrs := by
  constructor
  · intro reported
    have last := reported _ (Nat.le_refl _)
    rw [sendStateToHost_lr _ _ (Nat.le_refl _), if_neg (Nat.lt_irrefl _), saveState_lr _ _ _ (Nat.le_refl _)] at last
    exact last
  · intro same i inside
    rw [sendStateToHost_lr _ _ inside]
    rcases Nat.lt_or_eq_of_le inside with before | rfl
    · rw [if_pos before]
      rfl
    · rw [if_neg (Nat.lt_irrefl _), saveState_lr _ _ _ inside]
      exact same

/-- The host asks for the interrupt 32 in the last list register. -/
def lastPending : Page := Run.set .zero (97 + Platform.nrLrs) (0x4000000000000000 ||| 32)

section Examples

omit [Platform]

/-- A CPU with four list registers. -/
abbrev fourRegisters : Platform := { (default : Platform) with nrLrs := 3, nrLrs_lt := by decide }

/-- The registers of a CPU that has none in use. -/
def noRegisters : IchRegisters := ⟨fun _ => 0, fun _ => 0, fun _ => 0, 0, 0, 0⟩

def noContext : GicContext := ⟨⟨0, 0, fun _ => 0, 0⟩, fun _ => 0, fun _ => 0⟩

end Examples

end Gic

end Islet.Rmm
