import Islet.Armv9a.Bits

/-! Floating point registers of a CPU that host and RECs share (`rec/simd.rs`, and
the trap of `exception/trap.rs` that restores them when a REC first uses them).

The assembly is modelled with its operands. `restore_fpu` loads the first pair of
registers through `x0`, which is not an operand, so what it finds there is given
by the environment. -/

namespace Islet.Rmm

open Bits

namespace Simd

abbrev numFpuRegs : Nat := 32

@[ext] structure FpuRegs where
  q : Fin numFpuRegs → BitVec 128
  fpsr : Word
  fpcr : Word

def FpuRegs.zero : FpuRegs := ⟨fun _ => 0, 0, 0⟩

structure SimdConfig where
  sveEn : Bool := false
  sveVq : Word := 0
  smeEn : Bool := false

structure SimdRegister where
  isUsed : Bool := false
  isSaved : Bool := false
  cfg : SimdConfig := {}
  cptrEl2 : Word := 0
  fpu : FpuRegs := .zero
  zcrEl2 : Word := 0
  zcrEl12 : Word := 0

namespace CptrEl2

def tz : Word := 1#64 <<< 8
def tfp : Word := 1#64 <<< 10
def tsm : Word := 1#64 <<< 12
def tam : Word := 1#64 <<< 30

/-- Everything that belongs to the vector units traps. -/
def trapAll : Word := tam + tsm + tfp + tz

end CptrEl2

def ZcrEl2.len (value : Word) : Word := value &&& 0xf

/-- The registers of a CPU, and the host's copy of its registers. -/
structure Cpu where
  regs : FpuRegs
  cptrEl2 : Word
  zcrEl2 : Word
  zcrEl1 : Word
  nsSimd : SimdRegister

/-- `init_simd` for a REC of a realm with the given configuration. -/
def initSimd (cfg : SimdConfig) (simd : SimdRegister) : SimdRegister :=
  { simd with
    isUsed := false
    isSaved := false
    cfg := cfg
    cptrEl2 := CptrEl2.trapAll
    zcrEl2 := if cfg.sveEn then ZcrEl2.len cfg.sveVq else 0 }

/-! ### Assembly -/

/-- What the compiler and the memory bring to `restore_fpu`: the address of the array, the register `x0`, and the
memory around the array. -/
structure AsmEnv where
  addrQ : Word
  x0 : Word
  mem : Word → BitVec 128

namespace AsmEnv

variable (env : AsmEnv) (fpu : FpuRegs)

/-- Sixteen bytes at an address, where the array of saved registers lies at `addr_q`. -/
def load (addr : Word) : BitVec 128 :=
  let offset := (addr - env.addrQ).toNat
  if h : offset % 16 = 0 ∧ offset / 16 < numFpuRegs then fpu.q ⟨offset / 16, h.2⟩ else env.mem addr

/-- The base register of the `k`-th load of a pair: the first one is `[x0]`, all others are `[{addr_q}, #32 * k]`. -/
def base (k : Nat) : Word := if k = 0 then env.x0 else env.addrQ

end AsmEnv

/-- All stores of `save_fpu` go through its operand. -/
def saveFpu (cpu : Cpu) : FpuRegs := cpu.regs

def restoreFpu (env : AsmEnv) (fpu : FpuRegs) : FpuRegs where
  q i := env.load fpu (env.base (i.val / 2) + BitVec.ofNat 64 (16 * i.val))
  fpsr := fpu.fpsr
  fpcr := fpu.fpcr

/-! ### Entry, trap and exit -/

/-- On the way into a REC the host's registers are saved; those of the REC stay in memory. -/
def restoreState (simd : SimdRegister) (cpu : Cpu) : Cpu :=
  let cpu := { cpu with cptrEl2 := CptrEl2.tam }
  let cpu :=
    if simd.cfg.sveEn then
      { cpu with nsSimd.zcrEl2 := cpu.zcrEl2, zcrEl2 := simd.zcrEl2 }
    else { cpu with nsSimd.fpu := saveFpu cpu }
  let cpu := { cpu with nsSimd.cptrEl2 := cpu.cptrEl2 }
  { cpu with cptrEl2 := simd.cptrEl2 }

/-- On the way out the REC's registers are saved if it used them, and the host's are restored. SVE is not
implemented. -/
def saveState (env : AsmEnv) (simd : SimdRegister) (cpu : Cpu) : Option (SimdRegister × Cpu) :=
  if simd.cfg.sveEn then none
  else
    let simd := if simd.isUsed then { simd with fpu := saveFpu cpu, isSaved := true } else simd
    some ({ simd with isUsed := false, cptrEl2 := CptrEl2.trapAll },
      { cpu with regs := restoreFpu env cpu.nsSimd.fpu, cptrEl2 := cpu.nsSimd.cptrEl2 })

inductive Syndrome where
  | fpu
  | sve
  | sme
  deriving DecidableEq

namespace Syndrome

/-- The bit of `CPTR_EL2` that makes the access trap. -/
def trapBit : Syndrome → Nat
  | fpu => 10
  | sve => 8
  | sme => 12

/-- The access is to a unit that the realm does not have. -/
def aborts (simd : SimdRegister) : Syndrome → Bool
  | fpu => false
  | sve => !simd.cfg.sveEn
  | sme => !simd.cfg.smeEn

end Syndrome

/-- The trap of an access from a REC. An access that is not supported is answered with an undefined exception;
otherwise the traps go away and saved registers are restored, as far as that is implemented. -/
def handleTrap (syndrome : Syndrome) (env : AsmEnv) (simd : SimdRegister) (cpu : Cpu) : Option (SimdRegister × Cpu) :=
  if syndrome.aborts simd then some (simd, cpu)
  else
    let cpu := { cpu with cptrEl2 := CptrEl2.tam }
    let simd := { simd with isUsed := true }
    if simd.isSaved then
      match syndrome with
      | .fpu => some (simd, { cpu with regs := restoreFpu env simd.fpu })
      | .sve | .sme => none
    else some (simd, cpu)

end Simd

end Islet.Rmm
