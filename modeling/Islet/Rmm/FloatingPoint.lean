import Islet.Rmm.Rec.Simd
import Mathlib.Logic.Function.Basic

/-! Isolation of the floating point registers. The host and any number of RECs use
one CPU in turn; RECs trap at the first use of an entry. Followed along are the
registers that each REC last left, and those that the host had at the entry. -/

namespace Islet.Rmm.Simd

namespace AsmEnv

variable (env : AsmEnv) (fpu : FpuRegs)

theorem load_operand (i : Fin numFpuRegs) : env.load fpu (env.addrQ + BitVec.ofNat 64 (16 * i.val)) = fpu.q i := by
  have small : i.val < 32 := i.isLt
  have offset : (env.addrQ + BitVec.ofNat 64 (16 * i.val) - env.addrQ).toNat = 16 * i.val := by
    rw [add_sub_cancel_left, BitVec.toNat_ofNat, Nat.mod_eq_of_lt (by omega)]
  have inside : 16 * i.val % 16 = 0 ∧ 16 * i.val / 16 < numFpuRegs := by omega
  simp only [load, offset]
  rw [dif_pos inside]
  congr 1
  exact Fin.ext (Nat.mul_div_cancel_left i.val (by omega))

/-- What is loaded through `x0` is the first pair of the saved registers. -/
def FindsPair : Prop := env.load fpu env.x0 = fpu.q 0 ∧ env.load fpu (env.x0 + 16) = fpu.q 1

end AsmEnv

theorem restoreFpu_eq_iff {env : AsmEnv} {fpu : FpuRegs} : restoreFpu env fpu = fpu ↔ env.FindsPair fpu := by
  constructor
  · intro same
    have q := congrArg FpuRegs.q same
    have first := congrFun q 0
    have second := congrFun q 1
    simp only [restoreFpu, AsmEnv.base] at first second
    exact ⟨by simpa using first, by simpa using second⟩
  · rintro ⟨first, second⟩
    refine FpuRegs.ext (funext fun i => ?_) rfl rfl
    simp only [restoreFpu, AsmEnv.base]
    split
    · rename_i pair
      obtain ⟨i, less⟩ := i
      have cases : i = 0 ∨ i = 1 := by
        dsimp only at pair
        omega
      rcases cases with rfl | rfl
      · simpa using first
      · simpa using second
    · exact env.load_operand fpu i

inductive FpEvent where
  | hostUses (regs : FpuRegs)
  | enter (r : Nat)
  | trap (syndrome : Syndrome) (env : AsmEnv)
  | realmUses (regs : FpuRegs)
  | exit (env : AsmEnv)

structure FpSystem where
  cpu : Cpu
  recs : Nat → SimdRegister
  running : Option Nat
  /-- What each REC last left in the registers. -/
  left : Nat → FpuRegs
  /-- The host's registers at the last entry. -/
  host : FpuRegs

namespace FpSystem

/-- Floating point instructions of the REC that runs do not trap. -/
def accessible (w : FpSystem) : Bool := !w.cpu.cptrEl2.getLsbD Syndrome.fpu.trapBit

/-- What an event makes of the CPU; `none` if it cannot happen now, or panics. -/
def step (w : FpSystem) : FpEvent → Option FpSystem
  | .hostUses regs => if w.running = none then some { w with cpu.regs := regs } else none
  | .enter r =>
    if w.running = none then
      some { w with cpu := restoreState (w.recs r) w.cpu, running := some r, host := w.cpu.regs }
    else none
  | .trap syndrome env => do
    let r ← w.running
    if w.cpu.cptrEl2.getLsbD syndrome.trapBit then
      let (simd, cpu) ← handleTrap syndrome env (w.recs r) w.cpu
      some { w with cpu, recs := Function.update w.recs r simd }
    else none
  | .realmUses regs => if w.running ≠ none ∧ w.accessible then some { w with cpu.regs := regs } else none
  | .exit env => do
    let r ← w.running
    let (simd, cpu) ← saveState env (w.recs r) w.cpu
    some { w with
      cpu
      recs := Function.update w.recs r simd
      running := none
      left := if w.accessible then Function.update w.left r w.cpu.regs else w.left }

/-- No REC runs, and the RECs are fresh ones of realms without SVE. -/
structure Initial (w : FpSystem) : Prop where
  running : w.running = none
  recs : ∀ r, ∃ cfg : SimdConfig, cfg.sveEn = false ∧ w.recs r = initSimd cfg {}
  left : ∀ r, w.left r = .zero

inductive Reached : FpSystem → Prop where
  | initial {w : FpSystem} (start : w.Initial) : Reached w
  | step {w w' : FpSystem} {e : FpEvent} (before : Reached w) (stepped : w.step e = some w') : Reached w'

/-- The saved registers of a REC are those it left. -/
structure Keeps (simd : SimdRegister) (left : FpuRegs) : Prop where
  plain : simd.cfg.sveEn = false
  traps : simd.cptrEl2 = CptrEl2.trapAll
  saved : simd.isSaved = true → simd.fpu = left
  unsaved : simd.isSaved = false → left = .zero

/-- While the REC that runs has not used the registers, the host's are still there. -/
structure Inv (w : FpSystem) : Prop where
  recs : ∀ r, Keeps (w.recs r) (w.left r)
  idle : ∀ r, w.running ≠ some r → (w.recs r).isUsed = false
  used : ∀ r, w.running = some r → (w.recs r).isUsed = w.accessible
  kept : w.running ≠ none → w.cpu.nsSimd.fpu = w.host
  untouched : w.running ≠ none → w.accessible = false → w.cpu.regs = w.host

variable {w w' : FpSystem}

theorem Initial.inv (start : w.Initial) : w.Inv := by
  refine ⟨fun r => ?_, fun r _ => ?_, fun r running => absurd (start.running.symm.trans running) nofun,
    fun running => absurd start.running running, fun running => absurd start.running running⟩
  · obtain ⟨cfg, plain, same⟩ := start.recs r
    rw [same]
    exact ⟨plain, rfl, nofun, fun _ => start.left r⟩
  · obtain ⟨cfg, _, same⟩ := start.recs r
    rw [same]
    rfl

theorem step_trap {syndrome : Syndrome} {env : AsmEnv} (stepped : w.step (.trap syndrome env) = some w') :
    ∃ r simd cpu, w.running = some r ∧ w.cpu.cptrEl2.getLsbD syndrome.trapBit = true ∧
      handleTrap syndrome env (w.recs r) w.cpu = some (simd, cpu) ∧
      w' = { w with cpu, recs := Function.update w.recs r simd } := by
  obtain ⟨r, running, stepped⟩ := Option.bind_eq_some_iff.mp stepped
  obtain ⟨trapped, stepped⟩ := Option.ite_none_right_eq_some.mp stepped
  obtain ⟨⟨simd, cpu⟩, handled, same⟩ := Option.bind_eq_some_iff.mp stepped
  exact ⟨r, simd, cpu, running, trapped, handled, (Option.some.inj same).symm⟩

theorem step_exit {env : AsmEnv} (stepped : w.step (.exit env) = some w') :
    ∃ r simd cpu, w.running = some r ∧ saveState env (w.recs r) w.cpu = some (simd, cpu) ∧
      w' = { w with
        cpu
        recs := Function.update w.recs r simd
        running := none
        left := if w.accessible then Function.update w.left r w.cpu.regs else w.left } := by
  obtain ⟨r, running, stepped⟩ := Option.bind_eq_some_iff.mp stepped
  obtain ⟨⟨simd, cpu⟩, saved, same⟩ := Option.bind_eq_some_iff.mp stepped
  exact ⟨r, simd, cpu, running, saved, (Option.some.inj same).symm⟩

/-- A trap is answered with an exception, or opens the registers to the REC. -/
theorem handleTrap_cases {syndrome : Syndrome} {env : AsmEnv} {simd simd' : SimdRegister} {cpu cpu' : Cpu}
    (handled : handleTrap syndrome env simd cpu = some (simd', cpu')) :
    simd' = simd ∧ cpu' = cpu ∧ syndrome ≠ .fpu ∨
      simd' = { simd with isUsed := true } ∧
      cpu' = { cpu with
        cptrEl2 := CptrEl2.tam
        regs := if simd.isSaved then restoreFpu env simd.fpu else cpu.regs } := by
  unfold handleTrap at handled
  split at handled
  · rename_i aborts
    cases handled
    refine .inl ⟨rfl, rfl, ?_⟩
    rintro rfl
    exact nomatch aborts
  · right
    dsimp only at handled
    split at handled
    · rename_i saved
      cases syndrome <;> cases handled
      exact ⟨rfl, by rw [if_pos saved]⟩
    · rename_i unsaved
      cases handled
      exact ⟨rfl, by rw [if_neg unsaved]⟩

theorem Inv.trap {syndrome : Syndrome} {env : AsmEnv} (inv : w.Inv) (stepped : w.step (.trap syndrome env) = some w') :
    w'.Inv := by
  obtain ⟨r, simd, cpu, running, _, handled, rfl⟩ := step_trap stepped
  obtain ⟨rfl, rfl, _⟩ | ⟨rfl, rfl⟩ := handleTrap_cases handled
  · rw [Function.update_eq_self]
    exact inv
  · have opened : (!CptrEl2.tam.getLsbD Syndrome.fpu.trapBit) = true := by decide
    refine ⟨fun x => ?_, fun x idle => ?_, fun x run => ?_, inv.kept, fun _ closed => nomatch opened.symm.trans closed⟩
      <;> dsimp only
    · by_cases here : x = r
      · subst here
        rw [Function.update_self]
        exact ⟨(inv.recs x).plain, (inv.recs x).traps, (inv.recs x).saved, (inv.recs x).unsaved⟩
      · rw [Function.update_of_ne here]
        exact inv.recs x
    · have other : x ≠ r := by
        rintro rfl
        exact idle running
      rw [Function.update_of_ne other]
      exact inv.idle x idle
    · cases running.symm.trans run
      rw [Function.update_self]
      exact opened.symm

theorem Inv.exit {env : AsmEnv} (inv : w.Inv) (stepped : w.step (.exit env) = some w') : w'.Inv := by
  obtain ⟨r, simd, cpu, running, saved, rfl⟩ := step_exit stepped
  rw [saveState, if_neg (by rw [(inv.recs r).plain]; exact nofun)] at saved
  cases saved
  refine ⟨fun x => ?_, fun x _ => ?_, nofun, fun run => absurd rfl run, fun run => absurd rfl run⟩
  · dsimp only
    by_cases here : x = r
    · subst here
      rw [Function.update_self, ← inv.used x running]
      split
      · rw [Function.update_self]
        exact ⟨(inv.recs x).plain, rfl, fun _ => rfl, nofun⟩
      · exact ⟨(inv.recs x).plain, rfl, (inv.recs x).saved, (inv.recs x).unsaved⟩
    · have left : (if w.accessible then Function.update w.left r w.cpu.regs else w.left) x = w.left x := by
        split
        · exact Function.update_of_ne here ..
        · rfl
      rw [Function.update_of_ne here, left]
      exact inv.recs x
  · dsimp only
    by_cases here : x = r
    · subst here
      rw [Function.update_self]
    · rw [Function.update_of_ne here]
      exact inv.idle x fun run => here (Option.some.inj (run.symm.trans running))

/-- The events of a REC change its registers and flags, and leave those of the others alone. -/
theorem Inv.step {e : FpEvent} (inv : w.Inv) (stepped : w.step e = some w') : w'.Inv := by
  cases e with
  | hostUses regs =>
    obtain ⟨free, same⟩ := Option.ite_none_right_eq_some.mp stepped
    cases same
    exact ⟨inv.recs, inv.idle, fun r running => absurd (free.symm.trans running) nofun,
      fun running => absurd free running, fun running => absurd free running⟩
  | enter r =>
    obtain ⟨free, same⟩ := Option.ite_none_right_eq_some.mp stepped
    cases same
    have plain := (inv.recs r).plain
    have unused : ∀ r, (w.recs r).isUsed = false := fun r => inv.idle r (by rw [free]; exact nofun)
    have closed : (restoreState (w.recs r) w.cpu).cptrEl2 = CptrEl2.trapAll := (inv.recs r).traps
    refine ⟨inv.recs, fun r _ => unused r, fun r _ => ?_, fun _ => ?_, fun _ _ => ?_⟩
    · rw [unused r, accessible, closed]
      decide
    · simp [restoreState, plain, saveFpu]
    · simp [restoreState, plain]
  | trap syndrome env => exact inv.trap stepped
  | realmUses regs =>
    obtain ⟨⟨_, usable⟩, same⟩ := Option.ite_none_right_eq_some.mp stepped
    cases same
    exact ⟨inv.recs, inv.idle, inv.used, inv.kept, fun _ closed => nomatch closed.symm.trans usable⟩
  | exit env => exact inv.exit stepped

theorem Reached.inv (reached : w.Reached) : w.Inv := by
  induction reached with
  | initial start => exact start.inv
  | step _ stepped ih => exact ih.step stepped

/-! ### Isolation -/

/-- The registers that the REC finds at its first use are those it left, and at the exit the host finds its own. -/
def Isolates (w : FpSystem) (e : FpEvent) (w' : FpSystem) : Prop :=
  match e with
  | .trap .fpu _ => ∀ r, w.running = some r → w'.cpu.regs = w.left r
  | .exit _ => w'.cpu.regs = w.host
  | _ => True

/-- The condition of the trap and of the exit: `x0` leads to the saved registers, and a REC that has saved none
finds zeros. -/
def Meets (w : FpSystem) : FpEvent → Prop
  | .trap .fpu env => ∀ r, w.running = some r →
    if (w.recs r).isSaved then env.FindsPair (w.recs r).fpu else w.cpu.regs = .zero
  | .exit env => env.FindsPair w.cpu.nsSimd.fpu
  | _ => True

/-- A CPU with the given registers, before any REC has run. -/
def fresh (regs : FpuRegs) : FpSystem where
  cpu := { regs, cptrEl2 := CptrEl2.tam, zcrEl2 := 0, zcrEl1 := 0, nsSimd := {} }
  recs _ := initSimd {} {}
  running := none
  left _ := .zero
  host := .zero

theorem fresh_initial (regs : FpuRegs) : (fresh regs).Initial :=
  ⟨rfl, fun _ => ⟨{}, rfl, rfl⟩, fun _ => rfl⟩

end FpSystem

end Islet.Rmm.Simd
