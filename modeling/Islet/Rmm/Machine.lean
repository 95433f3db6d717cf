import Mathlib.Data.Finset.Insert
import Islet.Lib.Prog
import Islet.Rmm.Mm.Translation

/-! The state the monitor works on and the primitives its handlers are written
in. The `Core` is what a command can change for good: the granule status table,
EL3's protection table, memory, and the two global tables of realms. The
machine adds the monitor's page table, the granule locks the running handler
holds, the registers it returns, and the `Run` structure REC_ENTER works on.

`history`, `stores` and `log` are not part of the program. The history records each
change of a granule's state, and the stores each descriptor that is written to a
realm's tables, so that statements can speak about everything a handler does, also in
a handler that stops midway. The log records what commands and realms did that later
states do not show.

The steps of a handler that another processor can notice carry a label: the
locks, the accesses to host memory, and the clearing of root tables.

Handlers run one at a time. A handler that locks a granule it already holds
spins forever; this, a panic and an endless loop are the ways to stop without
returning to the host. -/

namespace Islet.Rmm

open Lib

/-- `rmi::error::InternalError`. -/
inductive InternalError where
  | notExistRealm
  | measurementError
  | invalidMeasurementIndex
  deriving DecidableEq, Repr

/-- `rmi::error::Error`. -/
inductive Error where
  | rmiErrorInput
  | rmiErrorRealm (index : Nat)
  | rmiErrorRec
  | rmiErrorRtt (level : Nat)
  | rmiErrorInUse
  | rmiErrorCount
  | rmiErrorOthers (inner : InternalError)
  deriving DecidableEq, Repr

/-- The status code an error is returned as. -/
def Error.code : Error → Nat
  | .rmiErrorInput => 1
  | .rmiErrorRealm index => 2 ||| (index <<< 8)
  | .rmiErrorRec => 3
  | .rmiErrorRtt level => 4 ||| (level <<< 8)
  | .rmiErrorInUse => 5
  | .rmiErrorCount => 6
  | .rmiErrorOthers _ => 7

/-- Why a computation of the monitor stops early. -/
inductive Halt where
  | error (e : Error)
  | panic
  | deadlock
  | diverge
  deriving DecidableEq, Repr

/-- `Stage2Translation`: where the root tables are and what shape they have. -/
structure Stage2Translation where
  base : Nat
  rootLevel : Nat
  rootPages : Nat
  deriving DecidableEq, Repr

/-- An operation that extends the initial measurement of a realm. -/
inductive MeasuredOp where
  | data (ipa flags : Nat) (content : Page)
  | recCreate (params : Page)
  | ripas (base top : Nat)

/-- What the log records. Realms and RECs are named by the addresses of their granules. -/
inductive Event where
  | created (rd : Nat) (params : Page)
  | measured (rd : Nat) (op : MeasuredOp)
  | extended (rd slot : Nat) (buffer : List Byte)
  | recCreated (recAddr : Nat)
  | entered (recAddr : Nat) (r : Rec)
  | cpuOn (recAddr : Nat) (mpidr entry contextId : Word)

structure Core where
  /-- `GRANULE_STATUS_TABLE`, by index. -/
  granules : Nat → Granule
  /-- EL3's view of the granule with the given index. -/
  gpt : Nat → GranuleGpt
  /-- The page that starts at an address. -/
  mem : Nat → Content
  /-- `RTT_TABLES`, by VMID. -/
  rttTables : Nat → Option Stage2Translation
  /-- `VMID_SET`. -/
  vmidSet : Finset Nat
  /-- The events so far, the last one first. -/
  log : List Event

/-- One change of a granule's state. -/
structure StateChange where
  index : Nat
  prev : GranuleState
  state : GranuleState
  deriving DecidableEq, Repr

/-- `Tlbi`: what is invalidated after a store of a descriptor. -/
inductive Tlbi where
  | none
  | leaf (vmid : Nat)
  | breakdown (vmid : Nat)
  deriving DecidableEq, Repr

/-- One store of a descriptor, in the tables of the realm with this VMID. -/
structure PteSet where
  vmid : Nat
  level : Nat
  old : Word
  new : Word
  tlbi : Tlbi
  deriving DecidableEq, Repr

structure Machine where
  core : Core
  pageTable : Mm.PageTable
  /-- Indices of the granules whose lock the handler holds. -/
  held : List Nat
  /-- The return registers. -/
  ret : Nat → Nat
  /-- The `Run` structure of the REC being entered. -/
  run : Page
  history : List StateChange
  stores : List PteSet

/-- What is recorded of a run, besides what it leaves. -/
def Machine.trace (s : Machine) : List StateChange × List PteSet := (s.history, s.stores)

/-- The steps that are told apart when handlers run side by side. -/
inductive Label where
  /-- The lock of a granule is taken. -/
  | lock (index : Nat)
  /-- A page of the host is read or written. -/
  | host (addr : Nat)
  /-- A root table is cleared. -/
  | root (addr : Nat)
  deriving DecidableEq, Repr

/-- A computation of the monitor. -/
abbrev RmmM (α : Type) : Type := Prog Label Machine Halt α

namespace Core

def granule (c : Core) (addr : Nat) : Granule := c.granules (granuleAddrToIndex addr)

def stateOf (c : Core) (addr : Nat) : GranuleState := (c.granule addr).state

def refCount (c : Core) (addr : Nat) : BitVec 8 := (c.granule addr).refCount

def gptOf (c : Core) (addr : Nat) : GranuleGpt := c.gpt (granuleAddrToIndex addr)

def setContent (c : Core) (addr : Nat) (content : Content) : Core :=
  { c with mem := Function.update c.mem addr content }

def setGranule (c : Core) (index : Nat) (granule : Granule) : Core :=
  { c with granules := Function.update c.granules index granule }

def emit (c : Core) (event : Event) : Core := { c with log := event :: c.log }

/-- The core after several events, the last one first. -/
def emits (c : Core) (events : List Event) : Core := { c with log := events ++ c.log }

end Core

namespace Rmi

open Prog

/-- `return Err(e)`. -/
def err {α : Type} (e : Error) : RmmM α := fail (.error e)

/-- `if c { return Err(e) }`. -/
def errIf (c : Prop) [Decidable c] (e : Error) : RmmM Unit := rejectIf c (.error e)

/-- The result of a fallible call, where the caller looks at it. -/
def result {α : Type} (m : RmmM α) : RmmM (Except Error α) :=
  attempt (fun stop => match stop with
    | .error e => some e
    | _ => none) m

/-- A Rust scope: the guards acquired inside are dropped on every way out. -/
def inScope {α : Type} (m : RmmM α) : RmmM α := bracket (fun s t => { t with held := s.held }) m

def modifyCore (f : Core → Core) : RmmM Unit := modify fun s => { s with core := f s.core }

def getCore : RmmM Core := gets Machine.core

def setRet (i value : Nat) : RmmM Unit :=
  modify fun s => { s with ret := Function.update s.ret i value }

def emit (event : Event) : RmmM Unit := modifyCore (·.emit event)

/-- `Spinlock::lock` on an entry of the granule status table. -/
def lock (index : Nat) : RmmM Unit :=
  visible (.lock index)
    (fun s => if index ∈ s.held then s else { s with held := index :: s.held })
    (fun s => if index ∈ s.held then .error .deadlock else .ok ())

/-- Drop a guard. -/
def unlock (index : Nat) : RmmM Unit := modify fun s => { s with held := s.held.erase index }

/-- `get_granule!`; the result is the index of the locked entry. -/
def getGranule (addr : Nat) : RmmM Nat :=
  if validateAddr addr then
    let index := granuleAddrToIndex addr
    if granuleStatusTableSize ≤ index then err .rmiErrorInput
    else do
      lock index
      pure index
  else err .rmiErrorInput

/-- `get_granule_if!`. -/
def getGranuleIf (addr : Nat) (state : GranuleState) : RmmM Nat := do
  let index ← getGranule addr
  let c ← getCore
  if (c.granules index).state = state then pure index
  else do
    unlock index
    err .rmiErrorInput

/-- `is_not_in_realm`. -/
def isNotInRealm (addr : Nat) : RmmM Bool := do
  match ← result (inScope (getGranuleIf addr .undelegated)) with
  | .ok _ => pure true
  | .error _ => pure false

/-- Whether `set_state` wipes the granule. -/
def wipes (prev state : GranuleState) : Bool :=
  (prev == .delegated && state == .undelegated) || state == .delegated

/-- `Granule::set_state` on the table and on memory. -/
def setStateCore (index : Nat) (state : GranuleState) (c : Core) : Core :=
  let granule := c.granules index
  let wiped := if wipes granule.state state then c.setContent (indexToAddr index) (.raw .zero) else c
  wiped.setGranule index { granule with state := state }

/-- `set_granule`. -/
def setGranule (index : Nat) (state : GranuleState) : RmmM Unit := modify fun s =>
  { s with
    core := setStateCore index state s.core
    history := ⟨index, (s.core.granules index).state, state⟩ :: s.history }

/-- `inc_count`, wrapping. -/
def incCount (index : Nat) : RmmM Unit := modifyCore fun c =>
  c.setGranule index { c.granules index with refCount := (c.granules index).refCount + 1 }

/-- `dec_count`, wrapping. -/
def decCount (index : Nat) : RmmM Unit := modifyCore fun c =>
  c.setGranule index { c.granules index with refCount := (c.granules index).refCount - 1 }

def numChildren (index : Nat) : RmmM Nat := do
  let c ← getCore
  pure (c.granules index).refCount.toNat

/-! ### Contents of granules -/

section Contents

variable [Platform]

def contentRd (index : Nat) : RmmM Rd := do
  let c ← getCore
  pure (c.mem (indexToAddr index)).asRd

def setRd (index : Nat) (rd : Rd) : RmmM Unit :=
  modifyCore fun c => c.setContent (indexToAddr index) (.rd rd)

def contentRec (index : Nat) : RmmM Rec := do
  let c ← getCore
  pure (c.mem (indexToAddr index)).asRec

def setRec (index : Nat) (r : Rec) : RmmM Unit :=
  modifyCore fun c => c.setContent (indexToAddr index) (.recCtx r)

def contentPage (addr : Nat) : RmmM Page := do
  let c ← getCore
  pure (c.mem addr).words

def setPage (addr : Nat) (page : Page) : RmmM Unit :=
  modifyCore fun c => c.setContent addr (.raw page)

/-! ### Host memory -/

/-- The read of a page that `host::copy_from` and `host::copy_to_obj` make. -/
def hostRead (addr : Nat) : RmmM Page := visible (.host addr) id fun s => .ok (s.core.mem addr).words

/-- The write of a page that `host::copy_to_ptr` makes. -/
def hostWrite (addr : Nat) (page : Page) : RmmM Unit :=
  visible (.host addr) (fun s => { s with core := s.core.setContent addr (.raw page) }) fun _ => .ok ()

/-- `host::copy_from`; the page at a host address, if it is not a realm's. -/
def copyFrom (addr : Nat) : RmmM (Option Page) := do
  if ← isNotInRealm addr then do
    let page ← hostRead addr
    pure (some page)
  else pure none

/-- `host::copy_to_ptr`. -/
def copyToPtr (src : Page) (dst : Nat) : RmmM (Option Unit) := do
  if ← isNotInRealm dst then do
    hostWrite dst src
    pure (some ())
  else pure none

end Contents

/-! ### The monitor's page table -/

/-- `rmm.page_table.map`. -/
def pageTableMap (addr : Nat) (secure : Bool) : RmmM Unit :=
  act none
    (fun s => match s.pageTable.map addr secure with
      | .done pt => { s with pageTable := pt }
      | _ => s)
    (fun s => match s.pageTable.map addr secure with
      | .done _ => pure ()
      | .panic => fail .panic
      | .diverge => fail .diverge)

/-- `rmm.page_table.unmap`. -/
def pageTableUnmap (addr : Nat) : RmmM Unit :=
  modify fun s => { s with pageTable := s.pageTable.unmap addr }

/-! ### EL3 -/

/-- `smc(MARK_REALM, addr)` as the model in `asm.rs` answers it. -/
def smcMarkRealm (addr : Nat) : RmmM Bool := do
  let c ← getCore
  if c.gptOf addr = .ns then do
    modifyCore fun c => { c with gpt := Function.update c.gpt (granuleAddrToIndex addr) .realm }
    pure true
  else pure false

/-- `smc(MARK_NONSECURE, addr)` as the model in `asm.rs` answers it. -/
def smcMarkNonsecure (addr : Nat) : RmmM Bool := do
  let c ← getCore
  if c.gptOf addr = .realm then do
    modifyCore fun c => { c with gpt := Function.update c.gpt (granuleAddrToIndex addr) .ns }
    pure true
  else pure false

/-! ### Reads over updates -/

end Rmi

namespace Core

open Rmi

variable {c : Core} {a b : Nat}

@[simp] theorem granules_setContent (content : Content) :
    (c.setContent a content).granules = c.granules := rfl

@[simp] theorem stateOf_setContent (content : Content) :
    (c.setContent a content).stateOf b = c.stateOf b := rfl

@[simp] theorem refCount_setContent (content : Content) :
    (c.setContent a content).refCount b = c.refCount b := rfl

@[simp] theorem gptOf_setContent (content : Content) :
    (c.setContent a content).gptOf b = c.gptOf b := rfl

@[simp] theorem rttTables_setContent (content : Content) :
    (c.setContent a content).rttTables = c.rttTables := rfl

@[simp] theorem vmidSet_setContent (content : Content) :
    (c.setContent a content).vmidSet = c.vmidSet := rfl

@[simp] theorem log_setContent (content : Content) : (c.setContent a content).log = c.log := rfl

@[simp] theorem log_emits (events : List Event) : (c.emits events).log = events ++ c.log := rfl

@[simp] theorem mem_setContent_same (content : Content) : (c.setContent a content).mem a = content := by
  simp [setContent]

theorem mem_setContent_of_ne (content : Content) (other : b ≠ a) :
    (c.setContent a content).mem b = c.mem b := by
  simp [setContent, other]

section SetState

variable (state : GranuleState)

@[simp] theorem gptOf_setStateCore {i : Nat} :
    (setStateCore i state c).gptOf b = c.gptOf b := by
  unfold setStateCore
  simp only
  split
  · rfl
  · rfl

@[simp] theorem rttTables_setStateCore {i : Nat} :
    (setStateCore i state c).rttTables = c.rttTables := by
  unfold setStateCore
  simp only
  split
  · rfl
  · rfl

@[simp] theorem vmidSet_setStateCore {i : Nat} : (setStateCore i state c).vmidSet = c.vmidSet := by
  unfold setStateCore
  simp only
  split
  · rfl
  · rfl

@[simp] theorem log_setStateCore {i : Nat} : (setStateCore i state c).log = c.log := by
  unfold setStateCore
  simp only
  split
  · rfl
  · rfl

/-- Changes of state do not look at the log. -/
theorem setStateCore_emit {i : Nat} (event : Event) :
    setStateCore i state (c.emit event) = (setStateCore i state c).emit event := by
  unfold setStateCore
  simp only
  change (if wipes (c.granules i).state state then _ else _ : Core).setGranule _ _ =
    ((if wipes (c.granules i).state state then _ else _ : Core).setGranule _ _).emit event
  split
  · rfl
  · rfl

theorem granules_setStateCore {i : Nat} : (setStateCore i state c).granules =
    Function.update c.granules i { c.granules i with state := state } := by
  unfold setStateCore
  simp only
  split
  · rfl
  · rfl

theorem stateOf_setStateCore_same :
    (setStateCore (granuleAddrToIndex a) state c).stateOf a = state := by
  simp [stateOf, granule, granules_setStateCore]

theorem stateOf_setStateCore_of_ne (left : validateAddr a = true) (right : validateAddr b = true)
    (other : b ≠ a) : (setStateCore (granuleAddrToIndex a) state c).stateOf b = c.stateOf b := by
  have apart : granuleAddrToIndex b ≠ granuleAddrToIndex a :=
    fun same => other ((granuleAddrToIndex_inj right left).mp same)
  simp [stateOf, granule, granules_setStateCore, apart]

@[simp] theorem refCount_setStateCore {i : Nat} :
    (setStateCore i state c).refCount b = c.refCount b := by
  simp only [refCount, granule, granules_setStateCore]
  by_cases same : granuleAddrToIndex b = i
  · rw [same, Function.update_self]
  · rw [Function.update_of_ne same]

/-- A state change touches no other granule's memory. -/
theorem mem_setStateCore_of_ne (valid : validateAddr a = true) (other : b ≠ a) :
    (setStateCore (granuleAddrToIndex a) state c).mem b = c.mem b := by
  unfold setStateCore
  simp only [indexToAddr_granuleAddrToIndex valid]
  split
  · exact mem_setContent_of_ne _ other
  · rfl

theorem mem_setStateCore_delegated (valid : validateAddr a = true) :
    (setStateCore (granuleAddrToIndex a) .delegated c).mem a = .raw .zero := by
  have wiped : ∀ prev, wipes prev .delegated = true := by
    intro prev
    cases prev <;> rfl
  unfold setStateCore
  simp only [indexToAddr_granuleAddrToIndex valid, wiped, if_true]
  exact mem_setContent_same _

theorem mem_setStateCore_of_not_wipes {i : Nat} (kept : wipes (c.granules i).state state = false) :
    (setStateCore i state c).mem = c.mem := by
  unfold setStateCore
  simp only [kept]
  rfl

end SetState

end Core

end Islet.Rmm
