import Islet.Rmm.Machine
import Islet.Rmm.Realm.Stage2Tte

/-! Walks of a realm's stage-2 tables. A walk starts at the root tables, which
may be concatenated, and follows table descriptors down to the level asked for;
it stops earlier at an entry that points to no table. The result is the place of
the descriptor, so that reading and writing an entry share one walk.

Invalidation of the TLB has no effect on the modelled state and is left out. -/

namespace Islet.Rmm

open Lib Bits Vmsa

/-- Where a descriptor is stored: a table page and an index in it. -/
structure Slot where
  table : Nat
  index : Nat
  deriving DecidableEq, Repr

/-- How a walk ends. `panic` is an index beyond the root tables. -/
inductive Walk (α : Type) where
  | found (a : α) (level : Nat)
  | missing
  | panic

/-- A table, or several concatenated ones. -/
structure TableRange where
  base : Nat
  pages : Nat
  deriving DecidableEq, Repr

namespace S2tte

/-- `Entry::is_valid`. -/
def isValidEntry (e : Word) : Bool := getMaskedValue e valid != 0

/-- `points_to_table_or_page`. -/
def pointsToTableOrPage (e : Word) : Bool := isValidEntry e && getMaskedValue e type == 1

/-- `Entry::address`. -/
def address (e : Word) (level : Nat) : Option Nat :=
  if isValidEntry e then
    if getMaskedValue e type == 1 then some (getMasked e addrTblOrPage).toNat
    else match level with
      | 1 => some (getMasked e addrBlkL1).toNat
      | 2 => some (getMasked e addrBlkL2).toNat
      | _ => none
  else none

end S2tte

/-- `RootTable`: the shapes of root tables that `Stage2Translation::new` knows. -/
def Stage2Translation.supported (rootLevel rootPages : Nat) : Bool :=
  match rootLevel with
  | 0 => rootPages == 1 || rootPages == 16
  | 1 => rootPages == 1 || rootPages == 2 || rootPages == 8
  | 2 => rootPages == 4 || rootPages == 8 || rootPages == 16
  | _ => false

namespace Stage2Translation

/-- `Entry::index` in the root tables. -/
def rootIndex (t : Stage2Translation) (addr : Nat) : Nat :=
  match t.rootLevel with
  | 0 => RawGpa.index 0 addr
  | level + 1 =>
    if 1 < t.rootPages then RawGpa.index level addr * 512 + RawGpa.index (level + 1) addr
    else RawGpa.index (level + 1) addr

def rootSlot? (t : Stage2Translation) (addr : Nat) : Option Slot :=
  let index := t.rootIndex addr
  if index < 512 * t.rootPages then some ⟨t.base + 4096 * (index / 512), index % 512⟩ else none

variable [Platform]

/-- The descriptor stored at a place. -/
def pte (c : Core) (slot : Slot) : Word := (c.mem slot.table).words slot.index

/-- The place in the table that the descriptor `e` of the level above points to. -/
def nextSlot (e : Word) (level addr : Nat) : Slot :=
  ⟨(getMasked e S2tte.addrTblOrPage).toNat, RawGpa.index level addr⟩

/-- `PageTableMethods::entry` from a table `depth` levels above the pages. With
`check`, an invalid descriptor ends the walk without result. -/
def descend (c : Core) (addr level : Nat) (check : Bool) : Nat → Slot → Walk Slot
  | 0, slot =>
    if level ≠ 3 then .missing
    else if check && !S2tte.isValidEntry (pte c slot) then .missing
    else .found slot 3
  | depth + 1, slot =>
    let this := 2 - depth
    if 3 < level then .missing
    else if check && !S2tte.isValidEntry (pte c slot) then .missing
    else if this < level ∧ S2tte.pointsToTableOrPage (pte c slot) then
      descend c addr level check depth (nextSlot (pte c slot) (this + 1) addr)
    else .found slot this

/-- `entry` on the root tables. -/
def walk (c : Core) (t : Stage2Translation) (ipa level : Nat) (check : Bool) : Walk Slot :=
  let addr := alignDown ipa 4096
  if 3 < level then .missing
  else match t.rootSlot? addr with
    | none => .panic
    | some slot => descend c addr level check (3 - t.rootLevel) slot

/-- `table_entries` below the root tables. -/
def descendTable (c : Core) (addr level : Nat) : Nat → Nat → Walk TableRange
  | 0, table => .found ⟨table, 1⟩ 3
  | depth + 1, table =>
    let this := 2 - depth
    let e := pte c ⟨table, RawGpa.index this addr⟩
    if this < level ∧ S2tte.pointsToTableOrPage e then
      descendTable c addr level depth (getMasked e S2tte.addrTblOrPage).toNat
    else .found ⟨table, 1⟩ this

/-- `table_entries` on the root tables. -/
def tableEntries (c : Core) (t : Stage2Translation) (ipa level : Nat) : Walk TableRange :=
  let addr := alignDown ipa 4096
  if 3 < level then .missing
  else if t.rootLevel < level then
    match t.rootSlot? addr with
    | none => .panic
    | some slot =>
      if S2tte.pointsToTableOrPage (pte c slot) then
        descendTable c addr level (2 - t.rootLevel)
          (getMasked (pte c slot) S2tte.addrTblOrPage).toNat
      else .found ⟨t.base, t.rootPages⟩ t.rootLevel
  else .found ⟨t.base, t.rootPages⟩ t.rootLevel

/-- The descriptors of a table in order. -/
def readEntries (c : Core) (range : TableRange) : List Word :=
  (List.range (512 * range.pages)).map fun i => pte c ⟨range.base + 4096 * (i / 512), i % 512⟩

/-- `space_size`; `none` where `mapping_size` is unreachable. -/
def spaceSize? (t : Stage2Translation) (level : Nat) : Option Nat :=
  let count := if level = t.rootLevel then t.rootPages else 1
  match level with
  | 0 => (S2tte.mappingSize? 0).map (· * 512 * count)
  | level + 1 => (S2tte.mappingSize? level).map (· * count)

/-- Store a descriptor. -/
def storePte (slot : Slot) (value : Word) (c : Core) : Core :=
  c.setContent slot.table
    (.raw (Function.update (c.mem slot.table).words slot.index value))

end Stage2Translation

namespace Rmi

open Prog Stage2Translation

/-- A value that is there unless the code panics. -/
def orPanic {α : Type} : Option α → RmmM α
  | some a => pure a
  | none => fail .panic

def mappingSize (level : Nat) : RmmM Nat := orPanic (S2tte.mappingSize? level)

def addrAsBlock (e : Word) (level : Nat) : RmmM Word := orPanic (S2tte.addrAsBlock? e level)

/-- `Rd::s2_table`. -/
def s2Table (rd : Rd) : RmmM Stage2Translation := do
  let c ← getCore
  orPanic (c.rttTables rd.id)

def levelSpaceSize (rd : Rd) (level : Nat) : RmmM Nat := do
  let t ← s2Table rd
  orPanic (t.spaceSize? level)

variable [Platform]

/-- The place a walk of the realm's tables finds, and its level. -/
def walkTo (rd : Rd) (ipa level : Nat) (check : Bool) : RmmM (Option (Slot × Nat)) := do
  let t ← s2Table rd
  let c ← getCore
  match t.walk c ipa level check with
  | .found slot last => pure (some (slot, last))
  | .missing => pure none
  | .panic => fail .panic

/-- `S2TTE::get_s2tte`. -/
def getS2tte (rd : Rd) (ipa level : Nat) (code : Error) : RmmM (Word × Nat) := do
  match ← walkTo rd ipa level false with
  | some (slot, last) => do
    let c ← getCore
    pure (pte c slot, last)
  | none => err code

/-- `ipa_to_pte_set`. -/
def ipaToPteSet (rd : Rd) (ipa level : Nat) (value : Word) (tlbi : Tlbi) : RmmM Unit := do
  match ← walkTo rd ipa level false with
  | some (slot, last) => modify fun s =>
    { s with
      core := storePte slot value s.core
      stores := ⟨rd.id, last, pte s.core slot, value, tlbi⟩ :: s.stores }
  | none => err .rmiErrorInput

/-- `ipa_to_pa`: only descriptors of table or page type give an address. -/
def ipaToPa (rd : Rd) (ipa level : Nat) : RmmM (Option Nat) := do
  match ← walkTo rd ipa level true with
  | some (slot, _) => do
    let c ← getCore
    pure (S2tte.address (pte c slot) 0)
  | none => pure none

/-- `entries`. -/
def entries (rd : Rd) (ipa level : Nat) : RmmM (List Word × Nat) := do
  let t ← s2Table rd
  let c ← getCore
  match t.tableEntries c ipa level with
  | .found range last => pure (readEntries c range, last)
  | .missing => err .rmiErrorInput
  | .panic => fail .panic

end Rmi

end Islet.Rmm
