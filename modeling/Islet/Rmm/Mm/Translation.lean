import Mathlib.Logic.Function.Basic
import Islet.Vmsa.Page
import Islet.Rmm.Objects

/-! The monitor's own stage-1 page table: three levels over 39-bit addresses,
filled once at boot and then changed by `map` and `unmap` around each access to
a granule. Subtables come from the heap, so an upper-level entry is modelled as
the table it points to; allocation is assumed to succeed. A bottom entry is the
descriptor word itself. The walk looks at bits 38..12 of an address only. -/

namespace Islet.Rmm.Mm

open Bits Vmsa

namespace PtDesc

def uxn : Word := defineMask 54 54
def pxn : Word := defineMask 53 53
def af : Word := defineMask 10 10
def sh : Word := defineMask 9 8
def ap : Word := defineMask 7 6
def ns : Word := defineMask 5 5
def indx : Word := defineMask 4 2
def type : Word := defineMask 1 1
def valid : Word := defineMask 0 0

end PtDesc

/-- `attr::permission` and the other attribute values `fill` and `map` use. -/
def permissionRw : Word := 0b00
def permissionRo : Word := 0b10
def shareableInner : Word := 0b11
def mairRmmMem : Word := 0b0
def mairDeviceMem : Word := 0b1
def pageTypeTableOrPage : Word := 0b1

/-- `BasePageSize::MAP_EXTRA_FLAG`. -/
def mapExtraFlag : Word :=
  bitsInReg PtDesc.type pageTypeTableOrPage ||| bitsInReg PtDesc.sh shareableInner |||
    bitsInReg PtDesc.valid 1 ||| bitsInReg PtDesc.af 1

abbrev L3Table := Nat → Word
abbrev L2Table := Nat → Option L3Table

/-- The root of the table, by L1 index. -/
abbrev PageTable := Nat → Option L2Table

namespace PageTable

/-- `PageTable::new_in`: every entry zero. -/
def new : PageTable := fun _ => none

def isValid (pte : Word) : Bool := getMaskedValue pte PtDesc.valid != 0

/-- `NS` of a descriptor. -/
def isNs (pte : Word) : Bool := getMaskedValue pte PtDesc.ns != 0

/-- The bottom entry for a virtual address, zero where there is no table. -/
def lookup (pt : PageTable) (va : Nat) : Word :=
  match pt (RawGpa.index 1 va) with
  | none => 0
  | some t2 =>
    match t2 (RawGpa.index 2 va) with
    | none => 0
    | some t3 => t3 (RawGpa.index 3 va)

/-- The descriptor of a page. -/
def pageDesc (pa : Nat) (flags : Word) : Word := BitVec.ofNat 64 pa ||| (flags ||| mapExtraFlag)

/-- `set_page`: missing tables on the way are allocated. -/
def setPage (pt : PageTable) (va pa : Nat) (flags : Word) : PageTable :=
  let t2 := (pt (RawGpa.index 1 va)).getD fun _ => none
  let t3 := (t2 (RawGpa.index 2 va)).getD fun _ => 0
  Function.update pt (RawGpa.index 1 va)
    (some (Function.update t2 (RawGpa.index 2 va)
      (some (Function.update t3 (RawGpa.index 3 va) (pageDesc pa flags)))))

/-- `unset_page`: a valid entry is cleared, nothing else changes. -/
def unsetPage (pt : PageTable) (va : Nat) : PageTable :=
  match pt (RawGpa.index 1 va) with
  | none => pt
  | some t2 =>
    match t2 (RawGpa.index 2 va) with
    | none => pt
    | some t3 =>
      if isValid (t3 (RawGpa.index 3 va)) then
        Function.update pt (RawGpa.index 1 va)
          (some (Function.update t2 (RawGpa.index 2 va)
            (some (Function.update t3 (RawGpa.index 3 va) 0))))
      else pt

/-- How a loop over page ranges ends. -/
inductive Mapped where
  | done (pt : PageTable)
  | panic
  | diverge

/-- `set_pages` over a guest and a physical range. -/
def setPages (flags : Word) : Nat → PageIter → PageIter → PageTable → Mapped
  | 0, _, _, _ => .diverge
  | fuel + 1, guest, phys, pt =>
    match guest.next with
    | none => .done pt
    | some (va, guest) =>
      match phys.next with
      | none => .panic
      | some (pa, phys) => setPages flags fuel guest phys (pt.setPage va pa flags)

/-- `Inner::set_pages`. -/
def setPagesWithSize (pt : PageTable) (va pa size : Nat) (flags : Word) : Mapped :=
  match PageIter.rangeWithSize va size, PageIter.rangeWithSize pa size with
  | some guest, some phys => setPages flags PageIter.limit guest phys pt
  | _, _ => .panic

/-- The flags `set_pages_for_rmi` gives a page. -/
def rmiFlags (secure : Bool) : Word :=
  bitsInReg PtDesc.ap permissionRw ||| bitsInReg PtDesc.indx mairRmmMem |||
    bitsInReg PtDesc.ns (if secure then 0 else 1) ||| bitsInReg PtDesc.sh shareableInner |||
    (bitsInReg PtDesc.uxn 1 ||| bitsInReg PtDesc.pxn 1) ||| bitsInReg PtDesc.valid 1

/-- `set_pages_for_rmi`. -/
def map (pt : PageTable) (addr : Nat) (secure : Bool) : Mapped :=
  if addr = 0 then .done pt else setPagesWithSize pt addr addr 4096 (rmiFlags secure)

/-- `unset_pages_for_rmi`. -/
def unmap (pt : PageTable) (addr : Nat) : PageTable :=
  if addr = 0 then pt else pt.unsetPage (alignDown addr 4096)

/-- A region that `fill` maps onto itself. -/
structure Region where
  start : Nat
  size : Nat
  flags : Word

abbrev numOfCpu : Nat := 8
abbrev rmmStackGuardSize : Nat := 4096
abbrev rmmStackSize : Nat := 1024 * 1024 - rmmStackGuardSize
abbrev rmmSharedBufferStart : Nat := 0xFFBFF000

/-- The regions of `fill`, in its order. -/
def fillRegions (layout : PlatformMemoryLayout) : List Region :=
  let ro := bitsInReg PtDesc.ap permissionRo ||| bitsInReg PtDesc.indx mairRmmMem
  let rw' := bitsInReg PtDesc.ap permissionRw ||| bitsInReg PtDesc.indx mairRmmMem
  let device := bitsInReg PtDesc.ap permissionRw ||| bitsInReg PtDesc.indx mairDeviceMem
  [⟨layout.rmmBase, layout.rwStart - layout.rmmBase, ro⟩,
    ⟨layout.rwStart, layout.rwEnd - layout.rwStart, rw'⟩] ++
  (List.range numOfCpu).map (fun i =>
    ⟨layout.stackBase + (rmmStackGuardSize + rmmStackSize) * i, rmmStackSize, rw'⟩) ++
  [⟨layout.uartPhys, 4096, device⟩, ⟨rmmSharedBufferStart, 4096, rw'⟩]

/-- `fill`: the regions are mapped one after the other. -/
def fill : List Region → PageTable → Mapped
  | [], pt => .done pt
  | region :: rest, pt =>
    match setPagesWithSize pt region.start region.start region.size region.flags with
    | .done pt => fill rest pt
    | stopped => stopped

/-- The page of `va` is one that `fill` maps. -/
def InFill (layout : PlatformMemoryLayout) (va : Nat) : Prop :=
  ∃ region ∈ fillRegions layout,
    alignDown region.start 4096 ≤ va ∧ va < region.start + region.size

end PageTable

end Islet.Rmm.Mm
