import Islet.Rmm.Spec.Fold
import Islet.Rmm.Spec.Ripas
import Islet.Rmm.Spec.Create
import Islet.Rmm.Spec.Enter

/-! What every command does, and what every run of the system therefore keeps. A
command makes moves, changes granule states legally, and deadlocks exactly when it
comes to a granule whose lock it holds. -/

namespace Islet.Rmm

open Lib Prog Bits Rmi Stage2Translation

variable [Platform] {s t : Machine} {cmd : Command}

/-! ### Single commands -/

/-- How every command returns: it has made moves and left no pointer of the host mapped. -/
def Returns (cmd : Command) (s t : Machine) : Prop :=
  Kept s.core cmd s t ∧ ¬SelfLocks s.core cmd ∧ ∀ p, ¬LeavesMapped s.core cmd p

theorem Stops.ends {ready : Prop} {halt : Halt} (stops : Stops s.core cmd s ready halt t)
    (unlocked : ¬SelfLocks s.core cmd) (clean : ∀ p, ¬LeavesMapped s.core cmd p) : Ends cmd s halt t := by
  obtain ⟨_, rest⟩ := stops
  cases halt with
  | error e => exact rest.ends nofun unlocked clean
  | panic => exact ⟨iff_of_false nofun unlocked, rest, trivial⟩
  | deadlock => exact rest.elim
  | diverge => exact ⟨iff_of_false nofun unlocked, rest, trivial⟩

/-- Commands that neither lock a granule twice nor map a pointer of the host before a check. -/
theorem wp_plain {m : RmmM Unit} {ready : Prop} (spec : wp m (fun _ t => Kept s.core cmd s t)
    (Stops s.core cmd s ready) s) (unlocked : ¬SelfLocks s.core cmd) (clean : ∀ p, ¬LeavesMapped s.core cmd p) :
    wp m (fun _ t => Returns cmd s t) (Ends cmd s) s :=
  wp_mono spec (fun _ _ kept => ⟨kept, unlocked, clean⟩) fun _ _ stops => stops.ends unlocked clean

theorem Command.handler_spec (cmd : Command) (inv : s.core.Inv) (idle : s.held = []) :
    wp cmd.handler (fun _ t => Returns cmd s t) (Ends cmd s) s := by
  cases cmd with
  | version req => exact wp_plain (version_spec req) id fun _ => id
  | features index => exact wp_plain (features_spec index.toNat) id fun _ => id
  | granuleDelegate addr =>
    have hands : Command.HandsOver (.granuleDelegate addr) := trivial
    exact wp_plain (wp_mono (granuleDelegate_spec hands idle) (fun _ _ post => post.2.2) fun _ _ => id) id fun _ => id
  | granuleUndelegate addr => exact wp_plain (granuleUndelegate_spec trivial inv idle) id fun _ => id
  | dataCreate rd target ipa src flags =>
    exact wp_plain (wp_mono (dataCreate_spec rd target ipa src flags inv idle rfl rfl rfl rfl rfl)
      (fun _ _ post => post.1) fun _ _ post => post.1) id fun _ => id
  | dataCreateUnknown rd target ipa =>
    exact wp_plain (wp_mono (dataCreateUnknown_spec _ inv idle) (fun _ _ post => post.1) fun _ _ => id) id fun _ => id
  | dataDestroy rd ipa =>
    exact wp_plain (wp_mono (dataDestroy_spec rd ipa inv idle rfl) (fun _ _ post => post.1) fun _ _ => id) id fun _ => id
  | realmActivate rd =>
    have activates : (Command.realmActivate rd).Activates := trivial
    exact wp_plain (wp_mono (realmActivate_spec _ inv idle activates) (fun _ _ post => post.1) fun _ _ post => post.1) id
      fun _ => id
  | realmCreate rd ptr =>
    exact wp_mono (realmCreate_spec rd ptr idle rfl rfl rfl) (fun _ _ post => ⟨post.1, post.2.1, post.2.2.1⟩)
      fun _ _ post => post.1
  | realmDestroy rd =>
    exact wp_plain (wp_mono (realmDestroy_spec _ inv idle) (fun _ _ post => post.1) fun _ _ => id) id fun _ => id
  | recCreate rd rc ptr =>
    exact wp_mono (recCreate_spec rd rc ptr inv idle rfl rfl rfl rfl) (fun _ _ post => ⟨post.1, id, post.2.1⟩)
      fun _ _ post => post.1
  | recDestroy rc => exact wp_plain (recDestroy_spec inv idle) id fun _ => id
  | recEnter rc ptr script =>
    exact wp_mono (recEnter_spec rc ptr script inv idle rfl rfl rfl) (fun _ _ post => post) fun _ _ => id
  | recAuxCount rd => exact wp_plain (recAuxCount_spec idle) id fun _ => id
  | psciComplete caller target status =>
    exact wp_plain (wp_mono (psciComplete_spec caller target inv idle rfl rfl rfl) (fun _ _ post => post.1)
      fun _ _ post => post.1) id fun _ => id
  | rttCreate rd rtt ipa level =>
    exact wp_plain (wp_mono (rttCreate_spec _ inv idle) (fun _ _ post => post.2.1) fun _ _ post => post.1) id fun _ => id
  | rttDestroy rd ipa level => exact wp_plain (rttDestroy_spec rd ipa level inv idle rfl) id fun _ => id
  | rttFold rd ipa level =>
    exact wp_plain (wp_mono (rttFold_spec rd ipa level inv idle rfl rfl rfl rfl) (fun _ _ post => post.1)
      fun _ _ post => post.1) id fun _ => id
  | rttInitRipas rd base top =>
    exact wp_plain (wp_mono (rttInitRipas_spec rd base top inv idle rfl) (fun _ _ post => post.1)
      fun _ _ post => post.1) id fun _ => id
  | rttSetRipas rd rc base top =>
    exact wp_plain (wp_mono (rttSetRipas_spec rd rc base top inv idle rfl rfl rfl) (fun _ _ post => post.1)
      fun _ _ stops => stops.1) id fun _ => id
  | rttReadEntry rd ipa level =>
    exact wp_plain (wp_mono (rttReadEntry_spec _ inv idle) (fun _ _ post => post.1) fun _ _ => id) id fun _ => id
  | rttMapUnprotected rd ipa level host =>
    exact wp_plain (wp_mono (rttMapUnprotected_spec rd ipa level inv idle rfl rfl) (fun _ _ post => post.1)
      fun _ _ => id) id fun _ => id
  | rttUnmapUnprotected rd ipa level =>
    exact wp_plain (wp_mono (rttUnmapUnprotected_spec _ inv idle) (fun _ _ post => post.1) fun _ _ => id) id fun _ => id
  | isletRealmSetMetadata rd mdg ptr =>
    exact wp_mono (isletRealmSetMetadata_spec rd mdg ptr idle rfl rfl rfl rfl)
      (fun _ _ post => ⟨post.1, post.2.1, fun _ => id⟩) fun _ _ post => post.1
  | unregistered => exact ⟨.of_eq rfl rfl rfl, id, fun _ => id⟩

/-- The outcomes of a command from which the host continues. -/
theorem Machine.exec_eq_some : s.exec cmd = some t ↔
    s.Succeeds cmd t ∨ ∃ e u, s.handle cmd = (.error (.error e), u) ∧
      t = { u with ret := Function.update u.ret 0 e.code } := by
  unfold Machine.exec Machine.Succeeds
  rcases s.handle cmd with ⟨halt | ⟨⟩, u⟩
  · cases halt with
    | error e => simp [eq_comm]
    | panic => simp
    | deadlock => simp
    | diverge => simp
  · simp

theorem Machine.Succeeds.exec (done : s.Succeeds cmd t) : s.exec cmd = some t := Machine.exec_eq_some.mpr (.inl done)

/-- What a postcondition of the handler says of a command that succeeds. -/
theorem Machine.Succeeds.post {ok : Unit → Machine → Prop} {err' : Halt → Machine → Prop}
    (done : s.Succeeds cmd t) (spec : wp cmd.handler ok err' s.start) : ok () t :=
  wp_ok spec done

theorem Machine.Succeeds.returns (done : s.Succeeds cmd t) (inv : s.core.Inv) : Returns cmd s t := by
  obtain ⟨kept, unlocked, clean⟩ := done.post (cmd.handler_spec (s := s.start) inv rfl)
  exact ⟨⟨kept.moves, kept.legal, kept.pageTable⟩, unlocked, clean⟩

/-- A command from which the host continues has either done its work or left a pointer mapped. -/
theorem Machine.exec_kept (inv : s.core.Inv) (returned : s.exec cmd = some t) :
    Kept s.core cmd s t ∧ (∀ p, ¬LeavesMapped s.core cmd p) ∨
      ∃ p, LeavesMapped s.core cmd p ∧ LeftMapped s t p := by
  rcases Machine.exec_eq_some.mp returned with done | ⟨e, u, failed, rfl⟩
  · obtain ⟨kept, _, clean⟩ := done.returns inv
    exact .inl ⟨kept, clean⟩
  · obtain ⟨_, _, kept | ⟨p, leaves, left⟩⟩ := wp_error (cmd.handler_spec (s := s.start) inv rfl) failed
    · exact .inl ⟨⟨kept.1.moves, kept.1.legal, kept.1.pageTable⟩, kept.2⟩
    · exact .inr ⟨p, leaves, left.core, left.trace, left.pageTable⟩

theorem Machine.exec_moves (inv : s.core.Inv) (returned : s.exec cmd = some t) :
    Moves s.core cmd s.core t.core := by
  rcases Machine.exec_kept inv returned with ⟨kept, _⟩ | ⟨p, _, left⟩
  · exact kept.moves
  · rw [left.core]

theorem Machine.exec_legal (inv : s.core.Inv) (returned : s.exec cmd = some t) : LegalSince s t := by
  rcases Machine.exec_kept inv returned with ⟨kept, _⟩ | ⟨p, _, left⟩
  · exact kept.legal
  · exact .of_eq left.trace

/-- Every change of state that a handler makes is legal, also if it never returns. -/
theorem Machine.handle_legal (inv : s.core.Inv) (cmd : Command) : LegalSince s (s.handle cmd).2 := by
  have spec := cmd.handler_spec (s := s.start) inv rfl
  cases last : s.handle cmd with
  | mk outcome u =>
    cases outcome with
    | ok => exact (wp_ok spec last).1.legal
    | error halt => exact (wp_error spec last).2.1

/-- A handler deadlocks exactly if it comes to a lock it holds. -/
theorem Machine.handle_deadlock (inv : s.core.Inv) :
    (s.handle cmd).1 = .error .deadlock ↔ SelfLocks s.core cmd := by
  have spec := cmd.handler_spec (s := s.start) inv rfl
  cases last : s.handle cmd with
  | mk outcome u =>
    cases outcome with
    | ok => exact iff_of_false nofun (wp_ok spec last).2.1
    | error halt =>
      refine Iff.trans ?_ (wp_error spec last).1
      simp

/-! ### Runs -/

/-- A write of the host is a move. -/
theorem Move.hostWrite {c : Core} {x : Nat} (inv : c.Inv) (valid : validateAddr x = true)
    (outside : c.gptOf x ≠ .realm) (page : Page) : Move c .unregistered c (c.setContent x (.raw page)) :=
  .write (.inr ((inv.gpt x valid).mpr outside))

theorem Machine.Step.inv (next : s.Step t) (inv : s.core.Inv) : t.core.Inv := by
  cases next with
  | command cmd returned => exact (Machine.exec_moves inv returned).inv inv
  | hostWrite addr page valid outside => exact (Move.hostWrite inv valid outside page).inv inv

namespace Machine.Initial

variable (start : s.Initial)

include start

theorem stateOf (a : Nat) : s.core.stateOf a = .undelegated := by
  unfold Core.stateOf Core.granule
  rw [start.granules]
  rfl

theorem realm? (a : Nat) : s.core.realm? a = none := by
  by_contra some
  obtain ⟨rd, realm⟩ := Option.ne_none_iff_exists'.mp some
  have state := (Core.realm?_eq_some.mp realm).2.1
  rw [start.stateOf] at state
  exact nomatch state

theorem numRecs (a : Nat) : s.core.numRecs a = 0 := by
  refine Finset.card_eq_zero.mpr (Finset.filter_eq_empty_iff.mpr fun i _ owned => ?_)
  rw [Core.OwnedBy, start.granules] at owned
  exact nomatch owned.1

theorem realmInv : s.core.RealmInv := by
  have none : ∀ {a rd}, ¬s.core.realm? a = some rd := by simp [start.realm?]
  refine ⟨fun realm => (none realm).elim, fun realm => (none realm).elim, fun realm => (none realm).elim, ?_,
    fun realm => (none realm).elim, fun realm => (none realm).elim⟩
  rw [start.vmidSet]
  exact nofun

theorem inv : s.core.Inv := by
  have noRealm : ∀ {a rd}, ¬s.core.realm? a = some rd := by simp [start.realm?]
  have noNode : ∀ {a l p b}, ¬s.core.forest.node a l p = some b := by
    intro a l p b found
    obtain ⟨rd, realm, _⟩ := start.realmInv.realm_of_node found
    exact noRealm realm
  have noPage : ∀ {a g v}, ¬s.core.Page a g v := fun page => by
    obtain ⟨rd, realm⟩ := page.realm
    exact noRealm realm
  refine ⟨start.realmInv, ⟨fun realm => (noRealm realm).elim, fun realm => (noRealm realm).elim⟩, ?_, ?_, ?_, ?_⟩
  · refine ⟨fun _ _ _ _ _ _ _ found => (noNode found).elim, fun found => (noNode found).elim, fun found => ?_,
      fun realm => (noRealm realm).elim, fun page => (noPage page).elim, fun page => (noPage page).elim⟩
    obtain ⟨b, place, _⟩ := Forest.node_of_entry found
    exact (noNode place).elim
  · intro a _ state
    rw [start.stateOf] at state
    exact nomatch state
  · exact fun a _ => iff_of_true (start.stateOf a) (start.gpt _)
  · have zero : ∀ a, s.core.refCount a = 0 := by
      intro a
      unfold Core.refCount Core.granule
      rw [start.granules]
      rfl
    exact ⟨fun _ _ => zero _, fun {a} _ => by rw [zero, start.numRecs]; rfl⟩

end Machine.Initial

theorem Machine.Reachable.inv (reached : s.Reachable) : s.core.Inv := by
  induction reached with
  | initial start => exact start.inv
  | step _ next ih => exact next.inv ih

/-- What every move keeps holds after all moves of a command. -/
theorem Moves.invariant {c₀ c : Core} {P : Core → Prop} (moves : Moves c₀ cmd c₀ c) (inv : c₀.Inv) (start : P c₀)
    (move : ∀ {c c' : Core}, c.Inv → P c → Move c₀ cmd c c' → P c') : P c := by
  suffices kept : c.Inv ∧ P c from kept.2
  induction moves with
  | refl => exact ⟨inv, start⟩
  | tail _ next before => exact ⟨next.inv before.1, move before.1 before.2 next⟩

/-- Runs in which every command meets a condition at the time it is issued. -/
inductive Machine.ReachableVia (cond : Machine → Command → Prop) : Machine → Prop where
  | initial {s : Machine} (start : s.Initial) : ReachableVia cond s
  | command {s t : Machine} (reached : ReachableVia cond s) (cmd : Command) (meets : cond s cmd)
    (returned : s.exec cmd = some t) : ReachableVia cond t
  | hostWrite {s : Machine} (reached : ReachableVia cond s) (addr : Nat) (page : Page) (valid : validateAddr addr)
    (outside : s.core.gptOf addr ≠ .realm) : ReachableVia cond (s.hostWrite addr page)

section Via

variable {cond : Machine → Command → Prop}

theorem Machine.ReachableVia.reachable (reached : s.ReachableVia cond) : s.Reachable := by
  induction reached with
  | initial start => exact .initial start
  | command _ cmd _ returned ih => exact .step ih (.command cmd returned)
  | hostWrite _ addr page valid outside ih => exact .step ih (.hostWrite addr page valid outside)

theorem Machine.ReachableVia.mono {cond' : Machine → Command → Prop} (reached : s.ReachableVia cond)
    (weaker : ∀ s cmd, cond s cmd → cond' s cmd) : s.ReachableVia cond' := by
  induction reached with
  | initial start => exact .initial start
  | command _ cmd meets returned ih => exact .command ih cmd (weaker _ _ meets) returned
  | hostWrite _ addr page valid outside ih => exact .hostWrite ih addr page valid outside

theorem Machine.Reachable.via (reached : s.Reachable) : s.ReachableVia fun _ _ => True := by
  induction reached with
  | initial start => exact .initial start
  | step _ next ih =>
    cases next with
    | command cmd returned => exact .command ih cmd trivial returned
    | hostWrite addr page valid outside => exact .hostWrite ih addr page valid outside

/-- What holds at first and is kept by every move of a command that meets the condition holds in every
state of such a run. -/
theorem Machine.ReachableVia.invariant {cond : Core → Command → Prop} {P : Core → Prop}
    (reached : s.ReachableVia fun s cmd => cond s.core cmd) (quiet : ∀ c, cond c .unregistered)
    (initially : ∀ {s : Machine}, s.Initial → P s.core)
    (move : ∀ {c₀ c c' : Core} {cmd : Command}, cond c₀ cmd → c₀.Inv → P c₀ → c.Inv → P c →
      Move c₀ cmd c c' → P c') : P s.core := by
  induction reached with
  | initial start => exact initially start
  | @command s t reached cmd meets returned ih =>
    have inv := reached.reachable.inv
    exact (Machine.exec_moves inv returned).invariant inv ih fun inv' before next => move meets inv ih inv' before next
  | @hostWrite s reached addr page valid outside ih =>
    have inv := reached.reachable.inv
    exact move (quiet _) inv ih inv ih (Move.hostWrite inv valid outside page)

/-- The same for runs of any commands. -/
theorem Machine.Reachable.invariant {P : Core → Prop} (reached : s.Reachable)
    (initially : ∀ {s : Machine}, s.Initial → P s.core)
    (move : ∀ {c₀ c c' : Core} {cmd : Command}, c₀.Inv → P c₀ → c.Inv → P c → Move c₀ cmd c c' → P c') : P s.core :=
  @Machine.ReachableVia.invariant _ s (fun _ _ => True) P reached.via (fun _ => trivial) initially fun _ => move

end Via

end Islet.Rmm
