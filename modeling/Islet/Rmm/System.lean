import Islet.Rmm.Rmi.Rec

/-! The monitor as a system: the commands the host can issue, with any register
values, and the states that runs of the system reach. The host may write memory
that EL3 has not given to the realm world at any time between two commands.

A command that ends in a panic, a deadlock or an endless loop never returns to
the host, so it has no successor state. -/

namespace Islet.Rmm

open Lib Prog Rmi

/-- The commands of the RMI, with their arguments as the registers hold them. -/
inductive Command where
  | version (req : Word)
  | features (index : Word)
  | granuleDelegate (addr : Word)
  | granuleUndelegate (addr : Word)
  | dataCreate (rd target ipa src flags : Word)
  | dataCreateUnknown (rd target ipa : Word)
  | dataDestroy (rd ipa : Word)
  | realmActivate (rd : Word)
  | realmCreate (rd paramsPtr : Word)
  | realmDestroy (rd : Word)
  | recCreate (rd recAddr paramsPtr : Word)
  | recDestroy (recAddr : Word)
  | recEnter (recAddr runPa : Word) (script : List RealmStep)
  | recAuxCount (rd : Word)
  | psciComplete (caller target status : Word)
  | rttCreate (rd rtt ipa level : Word)
  | rttDestroy (rd ipa level : Word)
  | rttFold (rd ipa level : Word)
  | rttInitRipas (rd base top : Word)
  | rttSetRipas (rd recAddr base top : Word)
  | rttReadEntry (rd ipa level : Word)
  | rttMapUnprotected (rd ipa level host : Word)
  | rttUnmapUnprotected (rd ipa level : Word)
  | isletRealmSetMetadata (rd mdg metaPtr : Word)
  /-- A function identifier without a handler. -/
  | unregistered

variable [Platform]

/-- The handler registered for a command. -/
def Command.handler : Command → RmmM Unit
  | .version req => Rmi.version req
  | .features index => Rmi.features index.toNat
  | .granuleDelegate addr => Rmi.granuleDelegate addr.toNat
  | .granuleUndelegate addr => Rmi.granuleUndelegate addr.toNat
  | .dataCreate rd target ipa src flags =>
    Rmi.dataCreate rd.toNat target.toNat ipa.toNat src.toNat flags.toNat
  | .dataCreateUnknown rd target ipa => Rmi.dataCreateUnknown rd.toNat target.toNat ipa.toNat
  | .dataDestroy rd ipa => Rmi.dataDestroy rd.toNat ipa.toNat
  | .realmActivate rd => Rmi.realmActivate rd.toNat
  | .realmCreate rd paramsPtr => Rmi.realmCreate rd.toNat paramsPtr.toNat
  | .realmDestroy rd => Rmi.realmDestroy rd.toNat
  | .recCreate rd recAddr paramsPtr => Rmi.recCreate rd.toNat recAddr.toNat paramsPtr.toNat
  | .recDestroy recAddr => Rmi.recDestroy recAddr.toNat
  | .recEnter recAddr runPa script => Rmi.recEnter recAddr.toNat runPa.toNat script
  | .recAuxCount rd => Rmi.recAuxCount rd.toNat
  | .psciComplete caller target status => Rmi.psciComplete caller.toNat target.toNat status
  | .rttCreate rd rtt ipa level => Rmi.rttCreate rd.toNat rtt.toNat ipa.toNat level.toNat
  | .rttDestroy rd ipa level => Rmi.rttDestroy rd.toNat ipa.toNat level.toNat
  | .rttFold rd ipa level => Rmi.rttFold rd.toNat ipa.toNat level.toNat
  | .rttInitRipas rd base top => Rmi.rttInitRipas rd.toNat base.toNat top.toNat
  | .rttSetRipas rd recAddr base top =>
    Rmi.rttSetRipas rd.toNat recAddr.toNat base.toNat top.toNat
  | .rttReadEntry rd ipa level => Rmi.rttReadEntry rd.toNat ipa.toNat level.toNat
  | .rttMapUnprotected rd ipa level host =>
    Rmi.rttMapUnprotected rd.toNat ipa.toNat level.toNat host
  | .rttUnmapUnprotected rd ipa level =>
    Rmi.rttUnmapUnprotected rd.toNat ipa.toNat level.toNat
  | .isletRealmSetMetadata rd mdg metaPtr =>
    Rmi.isletRealmSetMetadata rd.toNat mdg.toNat metaPtr.toNat
  | .unregistered => pure ()

/-- The state a handler starts in: no lock is held and the return registers are zero. -/
def Machine.start (s : Machine) : Machine := { s with held := [], ret := fun _ => 0 }

/-- A run of the handler of a command. -/
def Machine.handle (s : Machine) (cmd : Command) : Except Halt Unit × Machine :=
  cmd.handler.run s.start

/-- `Monitor::handle_rmi`: the state in which the host continues, if it does. -/
def Machine.exec (s : Machine) (cmd : Command) : Option Machine :=
  match s.handle cmd with
  | (.ok _, t) => some t
  | (.error (.error e), t) => some { t with ret := Function.update t.ret 0 e.code }
  | (.error _, _) => none

/-- The command returned without an error. -/
def Machine.Succeeds (s : Machine) (cmd : Command) (t : Machine) : Prop :=
  s.handle cmd = (.ok (), t)

/-- The state after boot: nothing is delegated and the page table is what `fill` makes. -/
structure Machine.Initial (s : Machine) : Prop where
  granules : ∀ i, s.core.granules i = Granule.new
  gpt : ∀ i, s.core.gpt i ≠ .realm
  rttTables : ∀ vmid, s.core.rttTables vmid = none
  vmidSet : s.core.vmidSet = ∅
  pageTable : Mm.PageTable.fill (Mm.PageTable.fillRegions Platform.memoryLayout) .new =
    .done s.pageTable
  history : s.history = []
  stores : s.stores = []
  log : s.core.log = []

/-- A write of the host to a page that the protection table leaves to it. -/
def Machine.hostWrite (s : Machine) (addr : Nat) (page : Page) : Machine :=
  { s with core := s.core.setContent addr (.raw page) }

/-- One step of the whole system. -/
inductive Machine.Step : Machine → Machine → Prop where
  | command {s t} (cmd : Command) (returned : s.exec cmd = some t) : Step s t
  | hostWrite {s} (addr : Nat) (page : Page) (valid : validateAddr addr)
    (outside : s.core.gptOf addr ≠ .realm) : Step s (s.hostWrite addr page)

inductive Machine.Reachable : Machine → Prop where
  | initial {s} (start : s.Initial) : Reachable s
  | step {s t} (reached : Reachable s) (next : s.Step t) : Reachable t

end Islet.Rmm
