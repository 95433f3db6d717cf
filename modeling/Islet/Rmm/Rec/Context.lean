import Islet.Rmm.Rmi.Rtt

/-! The part of a REC that is exchanged with the host around an entry: general
registers, interrupt and timer state, and the `Run` page. The `Run` structure is
the page itself; its fields are words at the offsets the Rust structure fixes.

Bit positions of the `ICH_*` and `HPFAR` registers are the architecture's. -/

namespace Islet.Rmm

open Lib Prog Bits Rmi

namespace Run

/-- Replace the low `bits` bits of a word, the shape of a narrow field with padding. -/
def setLow (w : Word) (bits : Nat) (value : Word) : Word := (w >>> bits <<< bits) ||| value

def entryFlags (run : Page) : Word := run 0

def entryGpr (run : Page) (i : Nat) : Word := run (64 + i)

def entryGicHcr (run : Page) : Word := run 96

def entryGicLr (run : Page) (i : Nat) : Word := run (97 + i)

/-- The words of `Exit` that are set as a whole. -/
def esr : Nat := 288
def far : Nat := 289
def hpfar : Nat := 290
def gpr (i : Nat) : Nat := 320 + i
def gicHcr : Nat := 352
def gicLr (i : Nat) : Nat := 353 + i
def gicMisr : Nat := 369
def gicVmcr : Nat := 370
def cntpCtl : Nat := 384
def cntpCval : Nat := 385
def cntvCtl : Nat := 386
def cntvCval : Nat := 387
def ripasBase : Nat := 416
def ripasSize : Nat := 417

def set (run : Page) (word : Nat) (value : Word) : Page := Function.update run word value

def setExitReason (run : Page) (reason : Word) : Page :=
  Run.set run 256 (setLow (run 256) 8 reason)

def setRipas (run : Page) (base size : Word) (state : Word) : Page :=
  let run := Run.set (Run.set run ripasBase base) ripasSize size
  Run.set run 418 (setLow (run 418) 8 state)

def setImm (run : Page) (imm : Word) : Page := Run.set run 448 (setLow (run 448) 16 imm)

/-- `Run::verify_compliance`: no list register asks for a hardware interrupt. -/
def verifyCompliance (run : Page) : Bool :=
  (List.range 16).all fun i => entryGicLr run i &&& (1#64 <<< 61) == 0

end Run

/-! ### Registers -/

/-- `RegOffset::PC`. -/
abbrev regPc : Nat := 31

/-- `set_reg` on the registers that the monitor sets. -/
def Rec.setReg (r : Rec) (register : Nat) (value : Word) : Rec :=
  if register ≤ 30 then
    { r with context := { r.context with
        gpRegs := Function.update r.context.gpRegs register value } }
  else if register = regPc then { r with context := { r.context with elr := value } }
  else r

/-- `get_reg` on a general register. -/
def Rec.getReg (r : Rec) (register : Nat) : Word := r.context.gpRegs register

def Rec.setRipas (r : Rec) (start endAddr state : Nat) (flags : Word) : Rec :=
  { r with ripas := ⟨start, endAddr, start, state, flags⟩ }

def Rec.setRunnable (r : Rec) (flags : Word) : Rec := { r with runnable := flags &&& 1 != 0 }

/-- `Rec::reset_ctx`. -/
def Rec.resetCtx (r : Rec) : Rec :=
  { r with context := { r.context with spsr := initialSpsr, sctlr := 0 } }

/-! ### Interrupts and timers -/

namespace Gic

variable [Platform]

/-- `ICH_HCR_EL2_NS_MASK`. -/
def hcrNsMask : Word := defineMask 7 1 ||| defineMask 14 14

/-- `ICH_HCR_EL2_EOI_COUNT_MASK`. -/
def hcrEoiCountMask : Word := defineMask 31 27

/-- `En`, `vSGIEOICount` and `DVIM`. -/
def initHcr : Word := (1#64 <<< 0) + (1#64 <<< 8) + (1#64 <<< 15)

def lrState (lr : Word) : Nat := ((lr >>> 62) &&& 0x3).toNat

def lrVintid (lr : Word) : Nat := (lr &&& 0xffffffff).toNat

def lrPriority (lr : Word) : Word := (lr >>> 48) &&& 0xff

def onlyEoiMask : Word := defineMask 44 32 &&& ~~~defineMask 41 41

def validVintid (intid : Nat) : Bool :=
  if intid ≤ 1019 ∨ (8192 ≤ intid ∧ intid ≤ Platform.maxVintid) then true
  else if Platform.extRange then
    (1056 ≤ intid && intid ≤ 1119) || (4096 ≤ intid && intid ≤ 5119)
  else false

/-- What `validate_state` asks of one list register that is in use. -/
def validLr (run : Page) (i : Nat) : Bool :=
  let lr := Run.entryGicLr run i
  (lr >>> 61) &&& 1 == 0 && lrPriority lr &&& Platform.priRes0Mask == 0 && lr &&& onlyEoiMask == 0 &&
    validVintid (lrVintid lr) &&
    (List.range (Platform.nrLrs - i)).all fun k =>
      let other := Run.entryGicLr run (i + 1 + k)
      lrState other == 0 || lrVintid lr != lrVintid other

/-- `validate_state`. -/
def validateState (run : Page) : Bool :=
  Run.entryGicHcr run &&& ~~~hcrNsMask == 0 &&
    (List.range Platform.nrLrs).all fun i =>
      lrState (Run.entryGicLr run i) == 0 || validLr run i

/-- `receive_state_from_host`. -/
def receiveStateFromHost (r : Rec) (run : Page) : Rec :=
  let gic := r.context.gicState
  { r with context := { r.context with gicState := { gic with
      ichLrEl2 := fun i => if i < Platform.nrLrs then Run.entryGicLr run i else gic.ichLrEl2 i
      ichHcrEl2 := (gic.ichHcrEl2 &&& ~~~hcrNsMask) ||| (Run.entryGicHcr run &&& hcrNsMask) } } }

/-- `send_state_to_host`. -/
def sendStateToHost (r : Rec) (run : Page) : Page :=
  let gic := r.context.gicState
  let run := (List.range Platform.nrLrs).foldl (fun run i =>
    Run.set run (Run.gicLr i) (gic.ichLrEl2 i)) run
  let run := Run.set run Run.gicMisr gic.ichMisrEl2
  let run := Run.set run Run.gicVmcr gic.ichVmcrEl2
  Run.set run Run.gicHcr (gic.ichHcrEl2 &&& (hcrEoiCountMask ||| hcrNsMask))

end Gic

/-- `timer::send_state_to_host`. -/
def Timer.sendStateToHost (r : Rec) (run : Page) : Page :=
  let timer := r.context.timer
  let run := Run.set run Run.cntvCtl timer.cntvCtlEl0
  let run := Run.set run Run.cntvCval (timer.cntvCvalEl0 - timer.cntvoffEl2)
  let run := Run.set run Run.cntpCtl timer.cntpCtlEl0
  Run.set run Run.cntpCval (timer.cntpCvalEl0 - timer.cntpoffEl2)

/-! ### Syndromes -/

namespace EsrEl2

def ec : Word := defineMask 31 26
def isv : Word := defineMask 24 24
def sas : Word := defineMask 23 22
def sse : Word := defineMask 21 21
def srt : Word := defineMask 20 16
def sf : Word := defineMask 15 15
def set : Word := defineMask 12 11
def fnv : Word := defineMask 10 10
def ea : Word := defineMask 9 9
def wnr : Word := defineMask 6 6
def dfsc : Word := defineMask 5 0

def ecDataAbort : Word := 36

def nonEmulatableAbortMask : Word := ec ||| set ||| fnv ||| ea ||| dfsc

def emulatableAbortMask : Word := nonEmulatableAbortMask ||| isv ||| sas ||| sf ||| wnr

def accessSizeMask (esr : Word) : Word :=
  match (getMaskedValue esr sas).toNat with
  | 0 => 0xff
  | 1 => 0xffff
  | 2 => 0xffffffff
  | _ => 0xffffffffffffffff

end EsrEl2

/-! ### Access from handlers -/

namespace Rmi

def modifyRun (f : Page → Page) : RmmM Unit := modify fun s => { s with run := f s.run }

def getRun : RmmM Page := gets Machine.run

variable [Platform]

/-- Change the REC in the given granule in place. -/
def modifyRec (recGranule : Nat) (f : Rec → Rec) : RmmM Unit := do
  let r ← contentRec recGranule
  setRec recGranule (f r)

/-- `emulate_mmio`; a sign-extending load is not implemented and panics. -/
def emulateMmio (recGranule : Nat) : RmmM Unit := do
  let run ← getRun
  if Run.entryFlags run &&& 1 = 0 then pure ()
  else do
    let r ← contentRec recGranule
    let esr := r.context.esrEl2
    let rt := (getMaskedValue esr EsrEl2.srt).toNat
    errIf (getMaskedValue esr EsrEl2.ec ≠ EsrEl2.ecDataAbort ∨
      r.emulatableAbort ≠ .emulatableAbort) .rmiErrorRec
    if getMaskedValue esr EsrEl2.wnr = 0 ∧ rt ≠ 31 then do
      if getMaskedValue esr EsrEl2.sse ≠ 0 then fail .panic
      modifyRec recGranule fun r =>
        r.setReg rt (Run.entryGpr run 0 &&& EsrEl2.accessSizeMask esr)
    modifyRec recGranule fun r =>
      { r with context := { r.context with elr := r.context.elr + 4 } }

end Rmi

end Islet.Rmm
