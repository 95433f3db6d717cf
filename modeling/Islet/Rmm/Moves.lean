import Islet.Rmm.Calm
import Islet.Rmm.Mm.Frame
import Islet.Rmm.System

/-! What a command can do to the state, in moves. A move is one of the changes that
keep the invariant, together with what justifies it in terms of the command and of
the state `c₀` the command started in. Every property of single commands is read
off the moves. -/

namespace Islet.Rmm

open Lib Bits Rmi Stage2Translation

variable [Platform]

/-! ### What justifies a move -/

/-- The granule has the state. -/
def Core.Has (c : Core) (addr : Nat) (state : GranuleState) : Prop :=
  validateAddr addr = true ∧ c.stateOf addr = state

/-- A command that may give page `g` of the realm at `a` this RIPAS: the two that destroy, and
the one that answers the pending request of a REC. -/
def Authorized (c₀ : Core) (cmd : Command) (a g : Nat) (ripas : Option Nat) : Prop :=
  match cmd with
  | .dataDestroy _ _ => ripas = some 2
  | .rttDestroy _ _ _ => ripas = some 2
  | .rttSetRipas rd recAddr _ _ =>
    rd.toNat = a ∧ (c₀.mem recAddr.toNat).asRec.ripas.addr ≤ g * 4096 ∧
      g * 4096 < (c₀.mem recAddr.toNat).asRec.ripas.endAddr ∧
      ripas = some (c₀.mem recAddr.toNat).asRec.ripas.state
  | _ => False

/-- The entries of the level-`level` table for `ipa` all point to tables. -/
def TableOfTables (c : Core) (a ipa level : Nat) : Prop :=
  ∀ i < 512, ∃ e, S2tte.isTable e level = true ∧
    c.forest.entry a level (ipa / 4096 / 512 ^ (3 - (level - 1)) * 512 + i) = some e

/-- RTT_FOLD of a table of tables with page `g` below it. -/
def FoldsTables (c₀ : Core) (cmd : Command) (a g : Nat) : Prop :=
  match cmd with
  | .rttFold rd ipa level => rd.toNat = a ∧
    g / 512 ^ (3 - (level.toNat - 1)) = ipa.toNat / 4096 / 512 ^ (3 - (level.toNat - 1)) ∧
    TableOfTables c₀ a ipa.toNat level.toNat
  | _ => False

/-- The ways in which a page can come to a RIPAS it did not have. -/
def MayRetype (c₀ : Core) (cmd : Command) (a g : Nat) (ripas : Option Nat) : Prop :=
  (∃ rd, c₀.realm? a = some rd ∧ rd.state = .new) ∨ Authorized c₀ cmd a g ripas ∨
    FoldsTables c₀ cmd a g ∧ ripas = some 0

/-- The checks that DATA_CREATE makes before it copies the source page. -/
structure CopiesData (c : Core) (rd target ipa src : Nat) (desc : Rd) : Prop where
  realm : c.realm? rd = some desc
  new : desc.state = .new
  ipa : validateIpa desc ipa = true
  source : validateAddr src = true ∧ c.stateOf src = .undelegated
  target : validateAddr target = true ∧ c.stateOf target = .delegated

/-- There is a level-3 entry for `ipa`, and it is unassigned. -/
def FindsPlace (c : Core) (rd ipa : Nat) : Prop :=
  ∃ e, c.forest.entry rd 3 (ipa / 4096) = some e ∧ S2tte.isUnassigned e = true

/-- DATA_CREATE copies the source page and then finds no place for it. -/
def CopiesInVain (c : Core) (rd target ipa src : Nat) : Prop :=
  (∃ desc, CopiesData c rd target ipa src desc) ∧ ¬FindsPlace c rd ipa

/-- What such a command leaves in the target. -/
def LeavesData (c : Core) (cmd : Command) (x : Nat) (page : Page) : Prop :=
  match cmd with
  | .dataCreate rd target ipa src _ => x = target.toNat ∧ page = (c.mem src.toNat).words ∧
    CopiesInVain c rd.toNat target.toNat ipa.toNat src.toNat
  | _ => False

/-- The command creates a REC of the realm at `a`. -/
def CreatesRec (cmd : Command) (a : Nat) : Prop :=
  match cmd with
  | .recCreate rd _ _ => rd.toNat = a
  | _ => False

/-- The view of a page changes by a written entry as the command justifies. -/
def Retypes (c₀ : Core) (cmd : Command) (a g : Nat) (rd : Rd) (old new : View) : Prop :=
  rd.inPar g → new.ripas? = old.ripas? ∨ MayRetype c₀ cmd a g new.ripas?

/-- RTT_MAP_UNPROTECTED of a block of a gigabyte. -/
def MapsBlock (cmd : Command) : Prop :=
  match cmd with
  | .rttMapUnprotected _ _ level _ => level.toNat ≤ 1
  | _ => False

/-- RTT_FOLD of a level-2 table whose first entry has an address. -/
def FoldsBlocks (c₀ : Core) (cmd : Command) : Prop :=
  match cmd with
  | .rttFold rd ipa level => level.toNat = 2 ∧ ∃ e, c₀.forest.entry rd.toNat 2 (ipa.toNat / 4096 / 512) = some e ∧
    (S2tte.isAssigned e = true ∨ S2tte.isAssignedRam e 2 = true ∨ S2tte.isAssignedNs e 2 = true)
  | _ => False

/-! ### Changes of a realm descriptor -/

/-- The metadata names the initial measurement and the hash algorithm of the realm. -/
def Rd.Agrees (rd : Rd) (metadata : RealmMetadata) : Prop :=
  metadata.equalRdRim rd.rim = true ∧ metadata.equalRdHashAlgo? rd.hashAlgo = some true

/-- The commands that extend an initial measurement. -/
def Command.Measures : Command → Prop
  | .realmCreate _ _ => True
  | .dataCreate _ _ _ _ _ => True
  | .recCreate _ _ _ => True
  | .rttInitRipas _ _ _ => True
  | _ => False

/-- The command activates a realm. -/
def Command.Activates : Command → Prop
  | .realmActivate _ => True
  | _ => False

/-- The numbers of a measured operation fit into registers. -/
def MeasuredOp.Small : MeasuredOp → Prop
  | .data ipa flags _ => ipa < 2 ^ 64 ∧ flags < 2 ^ 64
  | .recCreate _ => True
  | .ripas base top => base < 2 ^ 64 ∧ top < 2 ^ 64

/-- What can happen to the descriptor `rd` of the realm at `a`, and the events of it. -/
inductive RdStep (c : Core) (cmd : Command) (a : Nat) (rd : Rd) : Rd → List Event → Prop where
  | activate (activates : cmd.Activates) (isNew : rd.state = .new)
    (agrees : ∀ m, rd.metadata = some m → rd.Agrees ⟨(c.mem m).words⟩) :
    RdStep c cmd a rd { rd with state := .active } []
  | measure (op : MeasuredOp) (small : op.Small) (measures : cmd.Measures) (isNew : rd.state = .new) :
    RdStep c cmd a rd (rd.measured op) [.measured a op]
  | extend (slot : Fin measurementsSlotNr) (buffer : List Byte) (active : rd.state = .active) (other : slot ≠ 0) :
    RdStep c cmd a rd (rd.extended slot buffer) [.extended a slot buffer]
  | off (active : rd.state = .active) : RdStep c cmd a rd { rd with state := .systemOff } []

theorem RdStep.layout {c : Core} {cmd : Command} {a : Nat} {rd rd' : Rd} {events : List Event}
    (step : RdStep c cmd a rd rd' events) : rd'.layout = rd.layout ∧ rd'.metadata = rd.metadata := by
  cases step <;> exact ⟨rfl, rfl⟩

/-! ### Changes of a REC -/

/-- The IPAs at which a realm can have its host-call structure. -/
def HostCallIpa (rd : Rd) (ipa : Nat) : Prop :=
  ipa % 0x100 = 0 ∧ ipa / granuleSize = (ipa + 0x100 - 1) / granuleSize ∧ rd.addrInPar ipa = true

/-- REC_ENTER of a REC whose pending host call does not belong to the realm that its owner is now. -/
def StaleHostCall (c₀ : Core) (cmd : Command) : Prop :=
  match cmd with
  | .recEnter recAddr _ _ => c₀.Has recAddr.toNat .recCtx ∧ (c₀.mem recAddr.toNat).asRec.hostCallPending = true ∧
    ∃ o rd, (c₀.mem recAddr.toNat).asRec.owner = some o ∧ c₀.realm? o = some rd ∧
      ¬HostCallIpa rd ((c₀.mem recAddr.toNat).asRec.getReg 1).toNat
  | _ => False

/-- PSCI_COMPLETE of the two RECs, as it leaves them. -/
structure Completes (c₀ : Core) (cmd : Command) (caller target : Nat) (done done' : Rec) : Prop where
  other : caller ≠ target
  valid : validateAddr caller = true ∧ validateAddr target = true
  states : c₀.stateOf caller = .recCtx ∧ c₀.stateOf target = .recCtx
  pending : (c₀.mem caller).asRec.psciPending = true
  owners : ∃ o o', (c₀.mem caller).asRec.owner = some o ∧ (c₀.mem target).asRec.owner = some o' ∧
    (c₀.mem o).asRd.vmid = (c₀.mem o').asRd.vmid
  completed : ∃ callerPa targetPa status, cmd = .psciComplete callerPa targetPa status ∧
    callerPa.toNat = caller ∧ targetPa.toNat = target ∧
    completePsci? (c₀.mem caller).asRec (c₀.mem target).asRec status = some (done, done')

/-- The command names the REC of an RTT_SET_RIPAS. -/
def AnswersRipas (cmd : Command) (r : Nat) : Prop :=
  match cmd with
  | .rttSetRipas _ recAddr _ _ => recAddr.toNat = r
  | _ => False

/-- The command is a REC_ENTER of the REC. -/
def EntersRec (cmd : Command) (r : Nat) : Prop :=
  match cmd with
  | .recEnter recAddr _ _ => recAddr.toNat = r
  | _ => False

/-- The realm exits with a call of the monitor. -/
def RealmStep.IsRsi (step : RealmStep) : Prop := step.exitCode.toNat % 16 = 0 ∧ step.exitCode.toNat / 16 % 16 = 1

/-- The command runs a realm that calls the monitor with these registers. -/
def Command.Calls (cmd : Command) (regs : Nat → Word) : Prop :=
  match cmd with
  | .recEnter _ _ script => ∃ step ∈ script, step.IsRsi ∧ step.context.gpRegs = regs
  | _ => False

/-- What can happen to the REC in the granule `r`, and the events of it. A stale host call lets a
REC run that still has one pending. -/
inductive RecStep (c₀ c : Core) (cmd : Command) (r : Nat) : Rec → Rec → List Event → Prop where
  | stale {rc rc'} (enters : EntersRec cmd r) (stale : StaleHostCall c₀ cmd) : RecStep c₀ c cmd r rc rc' []
  | work {rc rc'} (enters : EntersRec cmd r) (psci : rc.psciPending = false ∧ rc'.psciPending = false)
    (host : rc'.hostCallPending = true → rc.hostCallPending = true ∧ rc'.getReg 1 = rc.getReg 1)
    (ripas : rc'.ripas = rc.ripas ∨ rc'.ripas.endAddr = 0)
    (abort : rc'.emulatableAbort = .emulatableAbort → rc.emulatableAbort = .emulatableAbort)
    (runnable : rc'.runnable = true → rc.runnable = true) : RecStep c₀ c cmd r rc rc' []
  | state {rc state} (enters : EntersRec cmd r) : RecStep c₀ c cmd r rc { rc with state := state } []
  | askHost {rc o rd} (enters : EntersRec cmd r) (clear : rc.Clear) (owner : rc.owner = some o)
    (realm : c.realm? o = some rd) (ipa : HostCallIpa rd (rc.getReg 1).toNat) :
    RecStep c₀ c cmd r rc { rc with hostCallPending := true } []
  | askRipas {rc start endAddr state flags} (enters : EntersRec cmd r) (clear : rc.Clear)
    (ordered : start < endAddr) :
    RecStep c₀ c cmd r rc (rc.setRipas start endAddr state flags) []
  | askCpuOn {rc o rd} (enters : EntersRec cmd r) (clear : StaleHostCall c₀ cmd ∨ rc.Clear ∧ rc.runnable = true)
    (owner : rc.owner = some o) (realm : c.realm? o = some rd)
    (entry : rd.addrInPar (rc.getReg 2).toNat = true) (index : Mpidr.index (rc.getReg 1) < rd.recIndex)
    (other : Mpidr.index (rc.getReg 1) ≠ rc.vcpuid) :
    RecStep c₀ c cmd r rc { rc with psciPending := true }
      [.cpuOn r (rc.getReg 1) (rc.getReg 2) (rc.getReg 3)]
  | askAffinityInfo {rc} (enters : EntersRec cmd r) (clear : rc.Clear) (runnable : rc.runnable = true)
    (asks : (rc.getReg 0).toNat = Rsi.psciAffinityInfoCmd) (step : cmd.Calls rc.getReg)
    (other : Mpidr.index (rc.getReg 1) ≠ rc.vcpuid) :
    RecStep c₀ c cmd r rc { rc with psciPending := true } []
  | abort {rc} (enters : EntersRec cmd r) (clear : rc.Clear) :
    RecStep c₀ c cmd r rc { rc with emulatableAbort := .emulatableAbort } []
  | progress {rc} (addr : Nat) (answers : AnswersRipas cmd r) (low : rc.ripas.addr < addr)
    (high : addr ≤ rc.ripas.endAddr) :
    RecStep c₀ c cmd r rc { rc with ripas := { rc.ripas with addr := addr } } []
  | answered {rc' target done'} (same : (c₀.mem r).asRec = (c.mem r).asRec)
    (completes : Completes c₀ cmd r target rc' done') : RecStep c₀ c cmd r (c.mem r).asRec rc' []
  | started {rc' caller done} (same : (c₀.mem r).asRec = (c.mem r).asRec)
    (completes : Completes c₀ cmd caller r done rc') : RecStep c₀ c cmd r (c.mem r).asRec rc' []

/-- What never changes about a REC. -/
structure Rec.Fixed (rc rc' : Rec) : Prop where
  owner : rc'.owner = rc.owner
  aux : rc'.aux = rc.aux
  vcpuid : rc'.vcpuid = rc.vcpuid
  ripas : rc.ripas.state ≤ 1 → rc'.ripas.state ≤ 1

/-! ### Moves -/

/-- The command delegates a granule or takes it back. -/
def Command.HandsOver : Command → Prop
  | .granuleDelegate _ => True
  | .granuleUndelegate _ => True
  | _ => False

/-- The core after the metadata page has been copied to `m` for the realm at `a`. -/
def metadataCore (c : Core) (a m : Nat) (rd : Rd) (page : Page) : Core :=
  (setStateCore (granuleAddrToIndex m) .metadata (c.setContent m (.raw page))).setContent a
    (.rd { rd with metadata := some m })

inductive Move (c₀ : Core) (cmd : Command) : Core → Core → Prop where
  | write {c x content} (free : c.stateOf x = .data ∨ c.stateOf x = .undelegated) :
    Move c₀ cmd c (c.setContent x content)
  | setRd {c a rd rd' events} (realm : c.realm? a = some rd) (step : RdStep c cmd a rd rd' events) :
    Move c₀ cmd c ((c.setContent a (.rd rd')).emits events)
  | setRec {c r rc' events} (valid : validateAddr r = true) (state : c.stateOf r = .recCtx)
    (step : RecStep c₀ c cmd r (c.mem r).asRec rc' events) (fixed : (c.mem r).asRec.Fixed rc') :
    Move c₀ cmd c ((c.setContent r (.recCtx rc')).emits events)
  | enter {c r} (enters : EntersRec cmd r) (valid : validateAddr r = true) (state : c.stateOf r = .recCtx)
    (clear : StaleHostCall c₀ cmd ∨ (c.mem r).asRec.Clear) :
    Move c₀ cmd c (c.emits [.entered r (c.mem r).asRec])
  | aux {c x state} (valid : validateAddr x = true)
    (old : c.stateOf x = .delegated ∨ c.stateOf x = .recAux)
    (new : state = .delegated ∨ state = .recAux) :
    Move c₀ cmd c (setStateCore (granuleAddrToIndex x) state c)
  | handOver {c x state world} (hands : cmd.HandsOver) (valid : validateAddr x = true)
    (old : c.stateOf x = .undelegated ∨ c.stateOf x = .delegated)
    (new : state = .undelegated ∧ world ≠ .realm ∨ state = .delegated ∧ world = .realm) :
    Move c₀ cmd c (setStateCore (granuleAddrToIndex x) state (c.setGpt x world))
  | entry {c a l p b i v} (here : LeafAt c a l p b i) (plain : S2tte.isTable v l = false)
    (fits : ∀ {rd g}, c.realm? a = some rd → Below l p i g → rd.Fits g (S2tte.view l v))
    (backing : (S2tte.view l v).backing? = none ∨
      (S2tte.view l v).backing? = (S2tte.view l (c.forest.read b i)).backing?)
    (retypes : ∀ {rd g}, c.realm? a = some rd → Below l p i g →
      Retypes c₀ cmd a g rd (S2tte.view l (c.forest.read b i)) (S2tte.view l v))
    (blocks : l ≤ 1 → (S2tte.view l (c.forest.read b i)).Vacant →
      (S2tte.view l v).Vacant ∨ MapsBlock cmd) :
    Move c₀ cmd c (storePte ⟨b, i⟩ v c)
  | addData {a p b i x v content} (here : LeafAt c₀ a 3 p b i) (valid : validateAddr x = true)
    (state : c₀.stateOf x = .delegated) (plain : S2tte.isTable v 3 = false)
    (fits : ∀ {rd g}, c₀.realm? a = some rd → Below 3 p i g → rd.Fits g (S2tte.view 3 v))
    (names : (S2tte.view 3 v).backing? = some x)
    (vacant : (S2tte.view 3 (c₀.forest.read b i)).backing? = none)
    (retypes : ∀ {rd g}, c₀.realm? a = some rd → Below 3 p i g →
      Retypes c₀ cmd a g rd (S2tte.view 3 (c₀.forest.read b i)) (S2tte.view 3 v)) :
    Move c₀ cmd c₀
      (setStateCore (granuleAddrToIndex x) .data (storePte ⟨b, i⟩ v (c₀.setContent x content)))
  | dropData {c a p b i x v} (here : LeafAt c a 3 p b i)
    (names : (S2tte.view 3 (c.forest.read b i)).backing? = some x)
    (plain : S2tte.isTable v 3 = false)
    (fits : ∀ {rd g}, c.realm? a = some rd → Below 3 p i g → rd.Fits g (S2tte.view 3 v))
    (none : (S2tte.view 3 v).backing? = none)
    (retypes : ∀ {rd g}, c.realm? a = some rd → Below 3 p i g →
      Retypes c₀ cmd a g rd (S2tte.view 3 (c.forest.read b i)) (S2tte.view 3 v)) :
    Move c₀ cmd c (setStateCore (granuleAddrToIndex x) .delegated (storePte ⟨b, i⟩ v c))
  | dropTable {c a l p b i r v} (place : c.forest.node a l p = some b) (index : i < 512)
    (child : c.forest.node a (l + 1) (p * 512 + i) = some r) (plain : S2tte.isTable v l = false)
    (fits : ∀ {rd g}, c.realm? a = some rd → Below l p i g → rd.Fits g (S2tte.view l v))
    (kept : ∀ {g pa}, Below l p i g →
      ((S2tte.view l v).at_ (g % 512 ^ (3 - l))).backing? = some pa →
      ∃ w, c.Page a g w ∧ w.backing? = some pa)
    (retypes : ∀ {rd g w}, c.realm? a = some rd → Below l p i g → c.Page a g w →
      Retypes c₀ cmd a g rd w (S2tte.view l v))
    (blocks : l ≤ 1 → (S2tte.view l v).Vacant ∨ FoldsBlocks c₀ cmd) :
    Move c₀ cmd c (setStateCore (granuleAddrToIndex r) .delegated (storePte ⟨b, i⟩ v c))
  | split {c a l p b i r page} (split : Split c a l p b i r page) :
    Move c₀ cmd c (splitCore c b i r page)
  | newRealm {c' a rd} (measures : cmd.Measures) (new : NewRealm c₀ c' a rd) : Move c₀ cmd c₀ c'
  | endRealm {c' a rd} (ended : EndRealm c₀ c' a rd) : Move c₀ cmd c₀ c'
  | newRec {c' a r rd rc} (creates : CreatesRec cmd a) (new : NewRec c₀ c' a r rd rc) : Move c₀ cmd c₀ c'
  | endRec {c r o} (ended : EndRec c r o) : Move c₀ cmd c (endRecCore c r o)
  | metadata {c a m rd page} (realm : c.realm? a = some rd) (isNew : rd.state = .new)
    (none : rd.metadata = none) (valid : validateAddr m = true) (state : c.stateOf m = .delegated)
    (signed : Platform.verifySignature page = true) (accepted : (RealmMetadata.mk page).validate = true) :
    Move c₀ cmd c (metadataCore c a m rd page)
  | leaveData {c x page} (valid : validateAddr x = true) (state : c.stateOf x = .delegated)
    (leaves : LeavesData c₀ cmd x page) : Move c₀ cmd c (c.setContent x (.raw page))

/-- Several moves of one command. -/
abbrev Moves (c₀ : Core) (cmd : Command) : Core → Core → Prop := Relation.ReflTransGen (Move c₀ cmd)

/-! ### The invariant -/

section

variable {c₀ c c' : Core} {cmd : Command} {a l p b i x : Nat}

theorem read_setContent_of_ne (content : Content) (other : b ≠ x) (j : Nat) :
    (c.setContent x content).forest.read b j = c.forest.read b j := by
  change ((c.setContent x content).mem b).words j = (c.mem b).words j
  rw [Core.mem_setContent_of_ne _ other]

/-- A leaf stays one when a delegated granule is written. -/
theorem LeafAt.setContent (content : Content) (here : LeafAt c a l p b i) (inv : c.Inv)
    (state : c.stateOf x = .delegated) :
    LeafAt (c.setContent x content) a l p b i ∧
      (c.setContent x content).forest.read b i = c.forest.read b i := by
  have forest : SameForest c (c.setContent x content) :=
    (sameOwners_setContent (by rw [state]; exact nofun) (by rw [state]; exact nofun)).sameForest inv.tables
  have other : b ≠ x := by
    rintro rfl
    have table := (inv.tables.tables here.place).2
    rw [state] at table
    exact nomatch table
  have read := @read_setContent_of_ne _ c _ _ content other i
  exact ⟨⟨by rw [forest.node_eq]; exact here.place, here.index, by rw [read]; exact here.leaf⟩, read⟩

theorem Move.inv (move : Move c₀ cmd c c') (inv : c.Inv) : c'.Inv := by
  cases move with
  | write free => exact (Calm.setContent free).inv inv
  | setRd realm step =>
    exact ((Calm.setRd realm step.layout.1 step.layout.2).emits _).inv inv
  | setRec _ state _ fixed =>
    exact ((Calm.setRec state fixed.owner fixed.aux fixed.ripas).emits _).inv inv
  | enter _ _ _ _ => exact ((Calm.refl c).emits _).inv inv
  | aux valid old new => exact inv.setAux valid old new
  | handOver _ valid old new => exact inv.handOver valid old new
  | entry here plain fits backing _ _ => exact inv.setEntry here plain fits backing
  | @addData a p b i x v content here valid state plain fits names _ _ =>
    have realm : c₀.stateOf x ≠ .rd := by rw [state]; exact nofun
    obtain ⟨leaf, _⟩ := here.setContent content inv state
    refine (inv.setContent realm (by rw [state]; exact nofun) (by rw [state]; exact nofun)).addData leaf valid
      state plain ?_ names
    intro rd g found below
    rw [realm?_setContent realm] at found
    exact fits found below
  | dropData here names plain fits none _ => exact inv.dropData here names plain fits none
  | dropTable place index child plain fits kept _ _ =>
    exact inv.dropTable place index child plain fits kept
  | split split => exact split.inv inv
  | newRealm _ new => exact new.inv inv
  | endRealm ended => exact ended.inv' inv
  | newRec _ new => exact new.inv inv
  | endRec ended => exact ended.inv inv
  | metadata realm _ _ valid state _ _ => exact inv.setMetadata realm valid state _
  | leaveData _ state _ =>
    exact inv.setContent (by rw [state]; exact nofun) (by rw [state]; exact nofun)
      (by rw [state]; exact nofun)

theorem Moves.inv (moves : Moves c₀ cmd c c') (inv : c.Inv) : c'.Inv := by
  induction moves with
  | refl => exact inv
  | tail _ move ih => exact move.inv ih

end

/-! ### Locks and mappings -/

/-- The root tables that the parameters of REALM_CREATE name. -/
def RealmParams.rootAt (p : RealmParams) (i : Nat) : Nat := p.rttBase + i * granuleSize

/-- REALM_CREATE with the new descriptor among its root tables, and only delegated granules before it. -/
def LocksOwnRoot (c : Core) (rd paramsPtr : Nat) : Prop :=
  let params : RealmParams := ⟨(c.mem paramsPtr).words⟩
  rd ≠ paramsPtr ∧ c.Has rd .delegated ∧ c.Has paramsPtr .undelegated ∧ params.verifyCompliance rd = true ∧
    ∃ i < params.rttNumStart, params.rootAt i = rd ∧ ∀ j < i, c.Has (params.rootAt j) .delegated

/-- ISLET_REALM_SET_METADATA gets as far as locking the granule for the metadata. -/
def ReadyForMetadata (c : Core) (rd metaPtr : Nat) : Prop :=
  let metadata : RealmMetadata := ⟨(c.mem metaPtr).words⟩
  c.Has metaPtr .undelegated ∧ Platform.verifySignature metadata.page = true ∧ metadata.validate = true ∧
    ∃ desc, c.realm? rd = some desc ∧ desc.state = .new ∧ desc.metadata = none

/-- The command comes to a granule whose lock it holds. -/
def SelfLocks (c : Core) (cmd : Command) : Prop :=
  match cmd with
  | .realmCreate rd paramsPtr => LocksOwnRoot c rd.toNat paramsPtr.toNat
  | .recEnter recAddr runPa _ => runPa.toNat = recAddr.toNat ∧ c.Has recAddr.toNat .recCtx
  | .isletRealmSetMetadata rd mdg metaPtr =>
    mdg.toNat = rd.toNat ∧ ReadyForMetadata c rd.toNat metaPtr.toNat
  | _ => False

/-- A pointer of the host that can be mapped but not read. -/
def Stray (c : Core) (p : Nat) : Prop := p ≤ Mm.PageTable.mapLimit ∧ ¬c.Has p .undelegated

/-- The command maps `p` as non-secure and then gives up. -/
def LeavesMapped (c : Core) (cmd : Command) (p : Nat) : Prop :=
  match cmd with
  | .realmCreate rd paramsPtr =>
    paramsPtr.toNat = p ∧ rd.toNat ≠ p ∧ c.Has rd.toNat .delegated ∧ Stray c p
  | .recCreate rd recAddr paramsPtr => paramsPtr.toNat = p ∧ recAddr.toNat ≠ rd.toNat ∧ Stray c p
  | .recEnter recAddr runPa _ =>
    runPa.toNat = p ∧ recAddr.toNat ≠ p ∧ c.Has recAddr.toNat .recCtx ∧ Stray c p
  | _ => False

end Islet.Rmm
