import Islet.Rmm.Machine

/-! The granule status table of the `gst_page_table` build: a table of two levels that grows
as granules are first delegated. An entry shares its granule with the entries that
have it as their parent, which are the RECs of a realm descriptor; a shared granule cannot
change its state. -/

namespace Islet.Rmm.Gst

open Lib Prog

/-- `vmsa::error::Error`, as far as the table returns them. -/
inductive MmError where
  | mmStateError
  | mmInvalidAddr
  | mmNoEntry
  | mmIsInUse
  | mmRefcountError
  | mmWrongParentChild
  deriving DecidableEq, Repr

/-- How an operation on the table stops early. -/
inductive Stop where
  | mm (e : MmError)
  | rmi (e : Error)
  | panic
  deriving DecidableEq, Repr

/-- What a handler returns: `From<vmsa::error::Error>`. -/
def Stop.toRmi? : Stop → Option Error
  | .mm _ => some .rmiErrorInput
  | .rmi e => some e
  | .panic => none

/-! ### Addresses -/

/-- `FVP_DRAM0_REGION` of this build. -/
def inDram0 (addr : Nat) : Bool := 0x80000000 ≤ addr && addr < 0x80000000 + 0x7C000000 - 1

/-- `FVP_DRAM1_REGION` of this build. -/
def inDram1 (addr : Nat) : Bool := 0x880000000 ≤ addr && addr < 0x880000000 + 0x80000000 - 1

def validateAddr (addr : Nat) : Bool := addr % granuleSize == 0 && (inDram0 addr || inDram1 addr)

def addrToIdx (phys : Nat) : Option Nat :=
  if phys % granuleSize ≠ 0 then none
  else if inDram0 phys then some ((phys - 0x80000000) / granuleSize)
  else if inDram1 phys then
    some ((phys - 0x880000000) / granuleSize + (0x80000000 + 0x7C000000 - 1 - 0x80000000 + 1) / granuleSize)
  else none

/-- `L0_TABLE_ENTRY_SIZE_RANGE`. -/
abbrev l0TableEntrySizeRange : Nat := 1024 * 1024 * 4

/-- `Entry::index` for the level 0 table. -/
def l0Index (idx : Nat) : Nat := idx * granuleSize / l0TableEntrySizeRange

/-- `Entry::index` for the level 1 tables. -/
def l1Index (idx : Nat) : Nat := idx * granuleSize % l0TableEntrySizeRange / granuleSize

/-! ### The table -/

/-- An entry of a level 1 table, with the granule behind its `Rc`. A parent is the `Rc` of another entry, and known by
the index of that entry. -/
structure Inner where
  state : GranuleState
  addr : Nat
  parent : Option Nat
  valid : Bool
  deriving DecidableEq, Repr

def Inner.new : Inner := ⟨.undelegated, 0, none, false⟩

/-- `GranuleStatusTable`, and the memory. -/
structure Table where
  /-- Which entries of the level 0 table are valid. -/
  root : Nat → Bool
  l1Tables : Nat → Option (Nat → Inner)
  mem : Nat → Content

/-- `create_granule_status_table`. -/
def Table.new (mem : Nat → Content) : Table := ⟨fun _ => false, fun _ => none, mem⟩

namespace Table

variable (t : Table)

/-- The entry of the granule with an index. -/
def inner (idx : Nat) : Inner :=
  match t.l1Tables (l0Index idx) with
  | some l1 => l1 (l1Index idx)
  | none => .new

def setInner (idx : Nat) (inner : Inner) : Table :=
  match t.l1Tables (l0Index idx) with
  | some l1 => { t with
      l1Tables := Function.update t.l1Tables (l0Index idx) (some (Function.update l1 (l1Index idx) inner)) }
  | none => t

/-- Whether `entry` comes to a valid entry of a level 1 table. -/
def found (idx : Nat) : Bool :=
  t.root (l0Index idx) &&
    match t.l1Tables (l0Index idx) with
    | some l1 => (l1 (l1Index idx)).valid
    | none => false

/-- `num_children`: the references to the granule, besides that of its own entry. -/
def numChildren (idx : Nat) : Nat :=
  ((Finset.range granuleStatusTableSize).filter fun j => (t.inner j).parent = some idx).card

/-- `Rc::strong_count`. -/
def strongCount (idx : Nat) : Nat := 1 + t.numChildren idx

def zeroize (addr : Nat) : Table := { t with mem := Function.update t.mem addr (.raw .zero) }

/-- A level 1 table for the granule, if there is none. -/
def addL1Table (idx : Nat) : Table :=
  match t.l1Tables (l0Index idx) with
  | some _ => t
  | none =>
    if t.root (l0Index idx) then t
    else { t with
      root := Function.update t.root (l0Index idx) true
      l1Tables := Function.update t.l1Tables (l0Index idx) (some fun _ => .new) }

end Table

/-- An operation on the table. -/
abbrev GstM (α : Type) : Type := Prog Empty Table Stop α

/-- `get_granule!`; the result is the index of the entry. -/
def getGranule (addr : Nat) : GstM Nat :=
  if validateAddr addr then
    match addrToIdx addr with
    | none => fail .panic
    | some idx => do
      let t ← get
      rejectIf (!t.found idx) (.mm .mmNoEntry)
      pure idx
  else fail (.mm .mmInvalidAddr)

/-- `get_granule_if!`. -/
def getGranuleIf (addr : Nat) (state : GranuleState) : GstM Nat := do
  let idx ← getGranule addr
  let t ← get
  rejectIf ((t.inner idx).state ≠ state) (.mm .mmStateError)
  pure idx

/-- The transitions that `Granule::set_state` allows. -/
def validTransition (prev state : GranuleState) : Bool :=
  match prev with
  | .undelegated => state == .delegated || state == .undelegated
  | .delegated => state != .delegated
  | _ => state == .delegated

/-- The part of `Granule::set_state` that releases the parent and wipes the granule. -/
def release (idx : Nat) (state : GranuleState) (refcount : Nat) : GstM Unit := do
  let t ← get
  let granule := t.inner idx
  match state with
  | .delegated =>
    if granule.state ≠ .rtt then do
      modify fun t => t.setInner idx { granule with parent := none }
      rejectIf (1 < refcount) (.mm .mmIsInUse)
      modify fun t => t.zeroize granule.addr
    else pure ()
  | .undelegated => if granule.state = .delegated then modify fun t => t.zeroize granule.addr else pure ()
  | _ => pure ()

/-- `Inner::set_state`. -/
def setState (idx addr : Nat) (state : GranuleState) : GstM Unit := do
  let t ← get
  let refcount := t.strongCount idx
  -- `Rc::get_mut`
  rejectIf (refcount ≠ 1) (.mm .mmRefcountError)
  rejectIf (!validTransition (t.inner idx).state state) (.mm .mmStateError)
  release idx state refcount
  modify fun t => t.setInner idx { t.inner idx with addr := addr, state := state, valid := true }

/-- `Inner::set_parent`. -/
def setParent (idx parent : Nat) : GstM Unit := do
  let t ← get
  rejectIf (t.strongCount idx ≠ 1) (.mm .mmRefcountError)
  rejectIf ((t.inner idx).state ≠ .recCtx ∨ (t.inner parent).state ≠ .rd) (.mm .mmWrongParentChild)
  modify fun t => t.setInner idx { t.inner idx with parent := some parent }

def setGranule (idx : Nat) (state : GranuleState) : GstM Unit := do
  let t ← get
  setState idx (t.inner idx).addr state

def setGranuleWithParent (parent child : Nat) (state : GranuleState) : GstM Unit := do
  let t ← get
  let granule := t.inner child
  setState child granule.addr state
  match ← attempt some (setParent child parent) with
  | .ok _ => pure ()
  | .error e => do
    -- the state has already been changed, and is taken back
    setState child granule.addr granule.state
    fail e

/-- `set_granule_raw`, with `set_page` on the level 0 table. -/
def setGranuleRaw (addr : Nat) (state : GranuleState) : GstM Unit :=
  if validateAddr addr then
    match addrToIdx addr with
    | none => fail .panic
    | some idx => do
      modify fun t => t.addL1Table idx
      setState idx addr state
  else fail (.mm .mmInvalidAddr)

/-- `set_state_and_get_granule!`. -/
def setStateAndGetGranule (addr : Nat) (state : GranuleState) : GstM Nat := do
  setGranuleRaw addr state
  getGranule addr

/-! ### The same granules -/

theorem validateAddr_eq (addr : Nat) : validateAddr addr = Rmm.validateAddr addr := by
  rw [Bool.eq_iff_iff, validateAddr_iff]
  simp only [validateAddr, inDram0, inDram1, granuleSize, Bool.and_eq_true, Bool.or_eq_true, beq_iff_eq, decide_eq_true_eq]
  omega

theorem addrToIdx_of_valid {addr : Nat} (valid : Rmm.validateAddr addr = true) :
    addrToIdx addr = some (granuleAddrToIndex addr) := by
  rw [granuleAddrToIndex_of_valid valid]
  rw [validateAddr_iff] at valid
  simp only [addrToIdx, inDram0, inDram1, granuleSize, Bool.and_eq_true, decide_eq_true_eq]
  split_ifs <;> first | omega | exact congrArg some (by omega)

theorem l0Index_eq (idx : Nat) : l0Index idx = idx / 1024 := by
  unfold l0Index granuleSize l0TableEntrySizeRange
  omega

theorem l1Index_eq (idx : Nat) : l1Index idx = idx % 1024 := by
  unfold l1Index granuleSize l0TableEntrySizeRange
  omega

/-- An entry is known by its two indices. -/
theorem index_inj {i j : Nat} (high : l0Index i = l0Index j) (low : l1Index i = l1Index j) : i = j := by
  rw [l0Index_eq, l0Index_eq] at high
  rw [l1Index_eq, l1Index_eq] at low
  omega

/-! ### Reads over updates -/

namespace Table

variable {t : Table} {i j : Nat} {e : Inner}

theorem inner_setInner : (t.setInner i e).inner j =
    if j = i ∧ (t.l1Tables (l0Index i)).isSome = true then e else t.inner j := by
  unfold setInner
  cases table : t.l1Tables (l0Index i) with
  | none => simp
  | some l1 =>
    unfold inner
    by_cases high : l0Index j = l0Index i
    · by_cases low : l1Index j = l1Index i
      · simp [index_inj high low]
      · have other : j ≠ i := fun same => low (same ▸ rfl)
        simp [high, low, other, table]
    · have other : j ≠ i := fun same => high (same ▸ rfl)
      simp [high, other]

theorem inner_setInner_cases (t : Table) (i j : Nat) (e : Inner) :
    (t.setInner i e).inner j = t.inner j ∨ j = i ∧ (t.setInner i e).inner j = e := by
  rw [inner_setInner]
  split
  · rename_i here
    exact .inr ⟨here.1, rfl⟩
  · exact .inl rfl

theorem inner_addL1Table : (t.addL1Table i).inner j = t.inner j := by
  unfold addL1Table
  split
  · rfl
  · next missing =>
    split_ifs
    · rfl
    · unfold inner
      by_cases high : l0Index j = l0Index i
      · simp [high, missing]
      · simp [high]

end Table

/-! ### Parents and children -/

/-- A granule that has a parent is a REC, and its parent is a realm descriptor. -/
def Table.Kin (t : Table) : Prop := ∀ j p, (t.inner j).parent = some p →
  j < granuleStatusTableSize ∧ (t.inner j).state = .recCtx ∧ (t.inner p).state = .rd

/-- Granule `idx` has no children, and all others are in order. -/
structure Table.Alone (idx : Nat) (t : Table) : Prop where
  kin : t.Kin
  childless : ∀ j, (t.inner j).parent ≠ some idx

section Kin

variable {t : Table} {idx addr : Nat} {state : GranuleState} {e : Inner}

theorem Table.Kin.alone (kin : t.Kin) (one : t.strongCount idx = 1) : t.Alone idx := by
  refine ⟨kin, fun j parent => ?_⟩
  have none : t.numChildren idx = 0 := Nat.add_left_cancel one
  have outside := Finset.filter_eq_empty_iff.mp (Finset.card_eq_zero.mp none)
  exact outside (Finset.mem_range.mpr (kin j idx parent).1) parent

attribute [irreducible] Table.numChildren

/-- Without a parent, a granule that has no children may become anything. -/
theorem Table.Alone.setInner (alone : t.Alone idx) (orphan : e.parent = none) : (t.setInner idx e).Alone idx := by
  have before : ∀ j p, ((t.setInner idx e).inner j).parent = some p →
      (t.inner j).parent = some p ∧ (t.setInner idx e).inner j = t.inner j := by
    intro j p parent
    rcases t.inner_setInner_cases idx j e with same | ⟨-, new⟩
    · exact ⟨same ▸ parent, same⟩
    · cases orphan.symm.trans (new ▸ parent)
  refine ⟨fun j p parent => ?_, fun j parent => alone.childless j (before j idx parent).1⟩
  obtain ⟨old, same⟩ := before j p parent
  obtain ⟨bound, isRec, isRd⟩ := alone.kin j p old
  rcases t.inner_setInner_cases idx p e with kept | ⟨rfl, -⟩
  · exact ⟨bound, same ▸ isRec, kept ▸ isRd⟩
  · exact absurd old (alone.childless j)

theorem release_spec (alone : t.Alone idx) (allowed : validTransition (t.inner idx).state state = true) :
    wp (release idx state 1) (fun _ u => u.Alone idx ∧ (u.inner idx).parent = none) (fun _ _ => False) t := by
  have orphan : (t.inner idx).state ≠ .recCtx → (t.inner idx).parent = none := by
    intro other
    by_contra parent
    obtain ⟨p, parent⟩ := Option.ne_none_iff_exists'.mp parent
    exact other (alone.kin idx p parent).2.1
  -- a REC changes only by being destroyed
  have kept : state ≠ .delegated → (t.inner idx).parent = none := by
    intro live
    refine orphan fun isRec => live ?_
    simpa [isRec, validTransition] using allowed
  unfold release
  rw [wp_bind, wp_get]
  cases state with
  | delegated =>
    simp only [wp_ite, wp_bind, wp_modify, wp_rejectIf]
    have freed := alone.setInner (e := { t.inner idx with parent := none }) rfl
    refine ⟨fun _ => ⟨by simp, fun _ => ⟨⟨freed.kin, freed.childless⟩, ?_⟩⟩, fun isRtt => ⟨alone, orphan ?_⟩⟩
    · change ((t.setInner idx _).inner idx).parent = none
      rw [Table.inner_setInner]
      split
      · rfl
      · simp_all [Table.inner, Inner.new]
    · simp [not_not.mp isRtt]
  | undelegated =>
    simp only [wp_ite, wp_modify]
    exact ⟨fun _ => ⟨⟨alone.kin, alone.childless⟩, kept (by simp)⟩, fun _ => ⟨alone, kept (by simp)⟩⟩
  | _ => exact ⟨alone, kept (by simp)⟩

theorem setState_keeps : Keeps Table.Kin (setState idx addr state) := by
  intro t kin
  unfold setState
  simp only [wp_bind, wp_get, wp_rejectIf]
  refine ⟨fun _ => kin, fun one => ⟨fun _ => kin, fun allowed => ?_⟩⟩
  have one := not_not.mp one
  rw [one]
  refine wp_mono (release_spec (kin.alone one) (by simpa using allowed)) (fun _ u after => ?_) fun _ _ => False.elim
  exact (after.1.setInner (e := { u.inner idx with addr := addr, state := state, valid := true }) after.2).kin

theorem setParent_keeps {parent : Nat} (bound : idx < granuleStatusTableSize) :
    Keeps Table.Kin (setParent idx parent) := by
  intro t kin
  unfold setParent
  simp only [wp_bind, wp_get, wp_rejectIf, wp_modify, not_or, not_not]
  refine ⟨fun _ => kin, fun _ => ⟨fun _ => kin, fun fits j p child => ?_⟩⟩
  obtain ⟨isRec, isRd⟩ : (t.inner idx).state = .recCtx ∧ (t.inner parent).state = .rd := by simpa [not_or] using fits
  have cases := t.inner_setInner_cases idx (e := { t.inner idx with parent := some parent })
  generalize t.setInner idx { t.inner idx with parent := some parent } = u at *
  have states : ∀ j, (u.inner j).state = (t.inner j).state := by
    intro j
    rcases cases j with same | ⟨rfl, same⟩ <;> rw [same]
  rw [states, states]
  rcases cases j with same | ⟨rfl, same⟩ <;> rw [same] at child
  · exact kin j p child
  · cases child
    exact ⟨bound, isRec, isRd⟩

theorem setGranuleWithParent_keeps {parent : Nat} (bound : idx < granuleStatusTableSize) :
    Keeps Table.Kin (setGranuleWithParent parent idx state) := by
  unfold setGranuleWithParent
  refine .bind (fun _ => id) fun t => .bind setState_keeps fun _ => .bind (.attempt (setParent_keeps bound)) fun r => ?_
  cases r with
  | ok _ => exact .pure _
  | error e => exact .bind setState_keeps fun _ _ => id

theorem getGranule_spec (kin : t.Kin) :
    wp (getGranule addr) (fun idx u => idx < granuleStatusTableSize ∧ u.Kin) (fun _ => Table.Kin) t := by
  unfold getGranule
  rw [wp_ite]
  refine ⟨fun valid => ?_, fun _ => kin⟩
  rw [validateAddr_eq] at valid
  simp only [addrToIdx_of_valid valid, wp_bind, wp_get, wp_rejectIf]
  exact ⟨fun _ => kin, fun _ => ⟨granuleAddrToIndex_lt valid, kin⟩⟩

end Kin

/-- A transaction on granules. -/
inductive Call where
  | setRaw (addr : Nat) (state : GranuleState)
  | set (addr : Nat) (state : GranuleState)
  | setWithParent (parent child : Nat) (state : GranuleState)

def Call.program : Call → GstM Unit
  | .setRaw addr state => setGranuleRaw addr state
  | .set addr state => do
    let granule ← getGranule addr
    setGranule granule state
  | .setWithParent parent child state => do
    let rd ← getGranule parent
    let granule ← getGranule child
    setGranuleWithParent rd granule state

theorem Call.program_keeps (call : Call) : Keeps Table.Kin call.program := by
  have locked : ∀ {addr : Nat} {k : Nat → GstM Unit}, (∀ idx < granuleStatusTableSize, Keeps Table.Kin (k idx)) →
      Keeps Table.Kin (getGranule addr >>= k) := fun rest t kin =>
    (wp_bind _ _).mpr (wp_mono (getGranule_spec kin) (fun idx u found => rest idx found.1 u found.2) fun _ _ => id)
  cases call with
  | setRaw addr state =>
    intro t kin
    unfold program setGranuleRaw
    rw [wp_ite]
    refine ⟨fun valid => ?_, fun _ => kin⟩
    simp only [addrToIdx_of_valid (validateAddr_eq addr ▸ valid), wp_bind, wp_modify]
    exact setState_keeps _ (by simpa only [Table.Kin, Table.inner_addL1Table] using kin)
  | set addr state => exact locked fun idx _ => .bind (fun _ => id) fun _ => setState_keeps
  | setWithParent parent child state => exact locked fun _ _ => locked fun idx => setGranuleWithParent_keeps

/-- After any transactions, failed ones among them, a granule that has a parent is a REC and the parent is a realm
descriptor: the RECs of a realm keep its descriptor from being given back, however many they are. -/
theorem kin_of_calls (mem : Nat → Content) (calls : List Call) :
    (calls.foldl (fun t call => (call.program.run t).2) (Table.new mem)).Kin := by
  suffices run : ∀ t : Table, t.Kin → (calls.foldl (fun t call => (call.program.run t).2) t).Kin from
    run _ fun j p parent => (by cases parent)
  induction calls with
  | nil => exact fun t => id
  | cons call rest ih =>
    intro t kin
    have kept := call.program_keeps t kin
    unfold wp at kept
    refine ih _ ?_
    dsimp only
    generalize call.program.run t = last at kept
    rcases last with ⟨_ | _, u⟩ <;> exact kept

end Islet.Rmm.Gst
