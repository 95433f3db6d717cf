import Islet.Rmm.Execution

/-! Runs that can be carried out. The host delegates granules, builds a realm on them and
enters its RECs, from boot on; the state it ends in is evaluated, so that what is said of
such a state is decided by running the monitor. -/

namespace Islet.Rmm

open Lib Prog Bits Rmi Stage2Translation

/-- A platform to run on, with one answer to everything. -/
instance : Inhabited Platform where
  default :=
    { memoryLayout := ⟨0xFDC00000, 0xFDD00000, 0xFDE00000, 0xFDF00000, 0x1c0c0000, rfl, by decide, by decide,
        by decide, by decide, by decide, by decide, rfl⟩
      rdWords := fun _ => .zero
      rdOfWords := fun _ => ⟨0, .new, 0, 0, 0, 0, 0, 0, [], Vector.replicate _ .empty, 0, none, false⟩
      recWords := fun _ => .zero
      recOfWords := fun _ => .new
      sha256 := fun _ => Vector.replicate _ 0
      sha512 := fun _ => Vector.replicate _ 0
      verifySignature := fun _ => true
      getToken := fun _ _ _ _ => none
      sealingKey := fun _ _ => none
      sveEn := false
      sveVq := 0
      nrLrs := 0
      nrLrs_lt := by decide
      priRes0Mask := 0
      maxVintid := 0
      extRange := false
      fipaMask := 0
      vtcr := fun _ _ => 0 }

/-! ### What the host offers -/

/-- The `i`-th granule of the first memory bank. -/
def bankAt (i : Nat) : Nat := 0x80000000 + 4096 * i

/-- A page that stays with the host: the first granule of the second bank. -/
def hostPage : Nat := 0x880000000

/-- Parameters for REALM_CREATE, with all fields zero that are not named. -/
def realmPage (bits base level count : Nat) : Page := fun i =>
  if i = 1 then BitVec.ofNat 64 bits
  else if i = 0x101 then BitVec.ofNat 64 base
  else if i = 0x102 then BitVec.ofNat 64 level
  else if i = 0x103 then BitVec.ofNat 64 count
  else 0

/-- A realm of one root table at the given level. -/
def oneRoot (level bits : Nat) : RealmParams := ⟨realmPage bits (bankAt 1) level 1⟩

/-- Parameters for REC_CREATE, with the auxiliary granules in a row. -/
def recPage (flags : Word) (mpidr first : Nat) : Page := fun i =>
  if i = 0 then flags
  else if i = 0x20 then BitVec.ofNat 64 mpidr
  else if i = 0x100 then 16
  else if 0x101 ≤ i ∧ i < 0x111 then BitVec.ofNat 64 (bankAt (first + (i - 0x101)))
  else 0

/-- REC_CREATE of the `j`-th granule of the stock, with the parameters on the host's page. -/
def takeRec (j : Nat) : Command :=
  .recCreate (BitVec.ofNat 64 (bankAt 0)) (BitVec.ofNat 64 (bankAt j)) (BitVec.ofNat 64 hostPage)

/-! ### Runs -/

instance (c : Core) (x : Nat) (state : GranuleState) : Decidable (c.Has x state) := inferInstanceAs (Decidable (_ ∧ _))

/-- What the host can do. -/
inductive Action where
  | call (cmd : Command)
  | write (addr : Nat) (page : Page)

variable [Platform] {s : Machine} {cond : Machine → Command → Bool}

/-- The machine after boot, with all memory zero. -/
def Machine.boot : Machine where
  core :=
    { granules := fun _ => .new
      gpt := fun _ => .ns
      mem := fun _ => .raw .zero
      rttTables := fun _ => none
      vmidSet := ∅
      log := [] }
  pageTable :=
    match Mm.PageTable.fill (Mm.PageTable.fillRegions Platform.memoryLayout) .new with
    | .done pt => pt
    | _ => .new
  held := []
  ret := fun _ => 0
  run := .zero
  history := []
  stores := []

theorem Machine.boot_initial : Machine.boot.Initial := by
  obtain ⟨pt, filled, _⟩ := Mm.PageTable.fill_fillRegions Platform.memoryLayout
  refine ⟨fun _ => rfl, fun _ => nofun, fun _ => rfl, rfl, ?_, rfl, rfl, rfl⟩
  unfold Machine.boot
  rw [filled]

/-- The state in which the host continues after a command that returns. -/
def Machine.next (s : Machine) (cmd : Command) : Machine := (s.exec cmd).getD s

theorem Machine.exec_next {cmd : Command} (returns : (s.exec cmd).isSome = true) : s.exec cmd = some (s.next cmd) := by
  obtain ⟨t, returned⟩ := Option.isSome_iff_exists.mp returns
  rw [Machine.next, returned]
  rfl

/-- The state after an action. An action that the host cannot take is left out, and so is a command that does
not meet the condition. -/
def Machine.act (cond : Machine → Command → Bool) (s : Machine) : Action → Machine
  | .call cmd => if cond s cmd then s.next cmd else s
  | .write addr page =>
    if validateAddr addr = true ∧ s.core.gptOf addr ≠ .realm then s.hostWrite addr page else s

/-- The state after boot and these actions. -/
def Machine.after (cond : Machine → Command → Bool) (actions : List Action) : Machine :=
  actions.foldl (Machine.act cond) .boot

theorem Machine.ReachableVia.act (reached : s.ReachableVia fun s cmd => cond s cmd = true) :
    ∀ action, (s.act cond action).ReachableVia fun s cmd => cond s cmd = true
  | .call cmd => by
    rw [Machine.act]
    split
    · rename_i meets
      unfold Machine.next
      cases returned : s.exec cmd with
      | none => exact reached
      | some t => exact .command reached cmd meets returned
    · exact reached
  | .write addr page => by
    rw [Machine.act]
    split
    · rename_i may
      exact .hostWrite reached addr page may.1 may.2
    · exact reached

theorem Machine.after_via (actions : List Action) :
    (Machine.after cond actions).ReachableVia fun s cmd => cond s cmd = true := by
  suffices follows : ∀ s : Machine, (s.ReachableVia fun s cmd => cond s cmd = true) →
      (actions.foldl (Machine.act cond) s).ReachableVia fun s cmd => cond s cmd = true from
    follows _ (.initial Machine.boot_initial)
  induction actions with
  | nil => exact fun _ => id
  | cons action rest ih => exact fun s reached => ih _ (reached.act action)

omit [Platform] in
/-- A program whose result is known ends in the state it is evaluated to. -/
theorem run_of_result {α : Type} {m : RmmM α} {result : Except Halt α} (known : (m.run s).1 = result) :
    m.run s = (result, (m.run s).2) :=
  Prod.ext known rfl

theorem Machine.handle_of_result {cmd : Command} {result : Except Halt Unit} (known : (s.handle cmd).1 = result) :
    s.handle cmd = (result, (s.handle cmd).2) :=
  Prod.ext known rfl

theorem Machine.succeeds_of_result {cmd : Command} (known : (s.handle cmd).1 = .ok ()) :
    s.Succeeds cmd (s.handle cmd).2 :=
  Machine.handle_of_result known

theorem Machine.Succeeds.result {cmd : Command} {t : Machine} (done : s.Succeeds cmd t) :
    (s.handle cmd).1 = .ok () ∧ (s.handle cmd).2 = t :=
  Prod.ext_iff.mp done

/-! ### Runs that prepare a realm -/

/-- The command delegates a granule or creates a realm. -/
def Command.starts : Command → Bool
  | .granuleDelegate _ => true
  | .realmCreate _ _ => true
  | _ => false

/-- The command enters no REC, and creates none in a realm that has been given 255. -/
def Prepares (s : Machine) (cmd : Command) : Prop :=
  (∀ r, ¬EntersRec cmd r) ∧ ∀ {a rd}, CreatesRec cmd a → s.core.realm? a = some rd → rd.recIndex < 255

/-- The test of it. -/
def Command.prepares (s : Machine) : Command → Bool
  | .recEnter _ _ _ => false
  | .recCreate rd _ _ => (s.core.realm? rd.toNat).all fun desc => desc.recIndex < 255
  | _ => true

theorem Command.prepares_sound (s : Machine) (cmd : Command) (test : cmd.prepares s = true) : Prepares s cmd := by
  cases cmd with
  | recEnter _ _ _ => exact nomatch test
  | recCreate rd _ _ =>
    refine ⟨fun _ => id, fun {a desc} creates realm => ?_⟩
    cases creates
    rw [Command.prepares, realm] at test
    exact of_decide_eq_true test
  | _ => exact ⟨fun _ => id, False.elim⟩

/-- The state after a run of preparations. -/
abbrev Machine.prepared (actions : List Action) : Machine := .after (fun s cmd => cmd.prepares s) actions

theorem Machine.prepared_via (actions : List Action) : (Machine.prepared actions).ReachableVia Prepares :=
  (Machine.after_via actions).mono Command.prepares_sound

namespace Action

/-- The first granules of the bank are delegated. -/
def delegates (count : Nat) : List Action :=
  (List.range count).map fun i => .call (.granuleDelegate (BitVec.ofNat 64 (bankAt i)))

/-- A realm of one root table is created, under the first granule. -/
def newRealm (level bits : Nat) : List Action :=
  [.write hostPage (oneRoot level bits).page,
    .call (.realmCreate (BitVec.ofNat 64 (bankAt 0)) (BitVec.ofNat 64 hostPage))]

/-- It is given a table, in the `j`-th granule. -/
def newTable (j : Nat) (ipa level : Word) : Action :=
  .call (.rttCreate (BitVec.ofNat 64 (bankAt 0)) (BitVec.ofNat 64 (bankAt j)) ipa level)

/-- It is given a page of data, a copy of the host's, in the `j`-th granule. -/
def newData (j : Nat) (ipa : Word) : Action :=
  .call (.dataCreate (BitVec.ofNat 64 (bankAt 0)) (BitVec.ofNat 64 (bankAt j)) ipa (BitVec.ofNat 64 hostPage) 0)

/-- It is given its `k`-th REC, in the `j`-th granule and the sixteen after it. -/
def newRec (flags : Word) (k j : Nat) : List Action :=
  [.write hostPage (recPage flags (k % 16 + 256 * (k / 16)) (j + 1)), .call (takeRec j)]

def activate : Action := .call (.realmActivate (BitVec.ofNat 64 (bankAt 0)))

/-- A realm with a page of data under its first table. -/
def populate : List Action := delegates 5 ++ newRealm 1 39 ++ [newTable 2 0 2, newTable 3 0 3, newData 4 0]

/-- An active realm with a page of data, one that has a granule but is empty, and two RECs, of which only the
first may run; then the host writes its page. -/
def staff (page : Page) : List Action :=
  delegates 40 ++ newRealm 1 39 ++ [newTable 2 0 2, newTable 3 0 3, newData 4 0] ++ newRec 1 0 5 ++ newRec 0 1 22 ++
    [.call (.dataCreateUnknown (BitVec.ofNat 64 (bankAt 0)) (BitVec.ofNat 64 (bankAt 39)) 0x1000), activate,
      .write hostPage page]

end Action

/-! ### Samples -/

deriving instance DecidableEq for Rd

namespace Sample

/-- A machine whose HPFAR_EL2 has the faulting address in bits 43 to 4. -/
scoped instance platform : Platform := { (default : Platform) with fipaMask := 0xffffffffff0 }

/-- A realm that has just been created, and three free granules. -/
def created : Machine := .prepared (Action.delegates 5 ++ Action.newRealm 1 39)

theorem created_via : created.ReachableVia Prepares := Machine.prepared_via _

/-- The same with a page of data under its first table. -/
def populated : Machine := .prepared Action.populate

theorem populated_via : populated.ReachableVia Prepares := Machine.prepared_via _

/-- An active realm with two RECs. -/
def staffed : Machine := .prepared (Action.staff .zero)

theorem staffed_via : staffed.ReachableVia Prepares := Machine.prepared_via _

/-- A realm with a table of level 2 for the first gigabyte of the unprotected half. -/
def outer : Machine := .prepared (Action.delegates 4 ++ Action.newRealm 1 39 ++ [Action.newTable 2 0x4000000000 2])

theorem outer_via : outer.ReachableVia Prepares := Machine.prepared_via _

/-- There the host has mapped a block of two megabytes. -/
def mapped : Machine := .prepared (Action.delegates 4 ++ Action.newRealm 1 39 ++ [Action.newTable 2 0x4000000000 2,
  .call (.rttMapUnprotected (BitVec.ofNat 64 (bankAt 0)) 0x4000000000 2 0)])

theorem mapped_via : mapped.ReachableVia Prepares := Machine.prepared_via _

end Sample

end Islet.Rmm
