import Islet.Rmm.Recs
import Islet.Rmm.Services

/-! What a REC waits for. A REC that leaves to the host asks for at most one thing, it
runs again only after it has been answered, and a request to start another REC stays
in its registers until PSCI_COMPLETE reads it there. -/

namespace Islet.Rmm

open Lib Prog Bits Rmi Stage2Translation

variable [Platform] {c₀ c c' : Core} {s t : Machine} {cmd : Command} {o r : Nat} {rd rd' : Rd} {rc rc' : Rec}

/-! ### Requests -/

/-- Which of its four requests a REC has made. -/
def Rec.requests (rc : Rec) : List Bool :=
  [rc.psciPending, rc.hostCallPending, 0 < rc.ripas.endAddr, rc.emulatableAbort = .emulatableAbort]

/-- No two requests at once. -/
structure Rec.OneRequest (rc : Rec) : Prop where
  psci : rc.psciPending = true → rc.hostCallPending = false ∧ rc.ripas.endAddr = 0 ∧
    rc.emulatableAbort = .notEmulatableAbort
  host : rc.hostCallPending = true → rc.ripas.endAddr = 0 ∧ rc.emulatableAbort = .notEmulatableAbort
  ripas : 0 < rc.ripas.endAddr → rc.emulatableAbort = .notEmulatableAbort

omit [Platform] in
theorem Rec.OneRequest.count (one : rc.OneRequest) : rc.requests.count true ≤ 1 := by
  unfold requests
  cases psci : rc.psciPending with
  | true =>
    obtain ⟨host, ripas, abort⟩ := one.psci psci
    simp [host, ripas, abort]
  | false =>
    cases host : rc.hostCallPending with
    | true =>
      obtain ⟨ripas, abort⟩ := one.host host
      simp [ripas, abort]
    | false =>
      by_cases ripas : 0 < rc.ripas.endAddr
      · simp [ripas, one.ripas ripas]
      · simp only [ripas]
        cases rc.emulatableAbort <;> simp

/-- The arguments of the last PSCI_CPU_ON of the REC at `r`, if it has not run since. -/
def lastCpuOn (r : Nat) : List Event → Option (Word × Word × Word)
  | [] => none
  | .cpuOn q mpidr entry contextId :: earlier => if q = r then some (mpidr, entry, contextId) else lastCpuOn r earlier
  | .recCreated q :: earlier => if q = r then none else lastCpuOn r earlier
  | .entered q _ :: earlier => if q = r then none else lastCpuOn r earlier
  | _ :: earlier => lastCpuOn r earlier

omit [Platform] in
theorem QuietFor.lastCpuOn {log log' : List Event} (quiet : QuietFor r log log') :
    lastCpuOn r log' = lastCpuOn r log := by
  obtain ⟨events, rfl, others⟩ := quiet
  induction events with
  | nil => rfl
  | cons event events ih =>
    have other := others event (List.mem_cons_self ..)
    have rest := ih fun event member => others event (List.mem_cons_of_mem _ member)
    cases event with
    | recCreated q => exact (if_neg fun same => other (congrArg some same)).trans rest
    | entered q _ => exact (if_neg fun same => other (congrArg some same)).trans rest
    | cpuOn q _ _ _ => exact (if_neg fun same => other (congrArg some same)).trans rest
    | _ => exact rest

/-- A REC of the realm `rd` is in order; `call` is its last PSCI_CPU_ON. -/
structure Rec.Orderly (rc : Rec) (call : Option (Word × Word × Word)) (rd : Rd) : Prop extends rc.OneRequest where
  runnable : rc.psciPending = true → rc.runnable = true
  ipa : rc.hostCallPending = true → HostCallIpa rd (rc.getReg 1).toNat
  cpuOn : rc.psciPending = true → (rc.getReg 0).toNat = Rsi.psciCpuOnCmd →
    call = some (rc.getReg 1, rc.getReg 2, rc.getReg 3) ∧ rd.addrInPar (rc.getReg 2).toNat = true

namespace Rec.Orderly

variable {call call' : Option (Word × Word × Word)}

omit [Platform]

theorem of_layout (orderly : rc.Orderly call rd) (same : rd'.layout = rd.layout) : rc.Orderly call rd' := by
  refine ⟨orderly.toOneRequest, orderly.runnable, fun host => ?_, fun psci on => ?_⟩
  · obtain ⟨aligned, inside, par⟩ := orderly.ipa host
    unfold HostCallIpa Rd.addrInPar
    rw [Rd.parSize_of_layout same]
    exact ⟨aligned, inside, par⟩
  · obtain ⟨args, par⟩ := orderly.cpuOn psci on
    unfold Rd.addrInPar
    rw [Rd.parSize_of_layout same]
    exact ⟨args, par⟩

theorem of_clear (clear : rc.Clear) : rc.Orderly call rd := by
  refine ⟨⟨?_, ?_, fun _ => clear.abort⟩, ?_, ?_, ?_⟩
  · rw [clear.psci]; exact nofun
  · rw [clear.host]; exact nofun
  · rw [clear.psci]; exact nofun
  · rw [clear.host]; exact nofun
  · rw [clear.psci]; exact nofun

end Rec.Orderly

/-- A step of a REC keeps it in order. -/
theorem RecStep.orderly {events : List Event} (step : RecStep c₀ c cmd r rc rc' events)
    (fresh : ¬StaleHostCall c₀ cmd) (owner : rc.owner = some o) (realm : c.realm? o = some rd)
    (orderly : rc.Orderly (lastCpuOn r c.log) rd) : rc'.Orderly (lastCpuOn r (events ++ c.log)) rd := by
  cases step with
  | stale _ stale => exact absurd stale fresh
  | work _ psci host ripas abort _ =>
    have settled : ∀ {P : Prop}, rc'.psciPending = true → P := by
      rw [psci.2]
      exact nofun
    have calm : rc.emulatableAbort = .notEmulatableAbort → rc'.emulatableAbort = .notEmulatableAbort := by
      intro before
      cases after : rc'.emulatableAbort with
      | emulatableAbort => exact nomatch before.symm.trans (abort after)
      | notEmulatableAbort => rfl
    refine ⟨⟨settled, fun waits => ?_, fun some => ?_⟩, settled, fun waits => ?_, settled⟩
    · obtain ⟨zero, quiet⟩ := orderly.host (host waits).1
      refine ⟨?_, calm quiet⟩
      rcases ripas with same | zero'
      · rw [same, zero]
      · exact zero'
    · rcases ripas with same | zero
      · exact calm (orderly.ripas (by rw [← same]; exact some))
      · omega
    · obtain ⟨before, same⟩ := host waits
      rw [same]
      exact orderly.ipa before
  | state _ => exact ⟨⟨orderly.psci, orderly.host, orderly.ripas⟩, orderly.runnable, orderly.ipa, orderly.cpuOn⟩
  | askHost _ clear owner' realm' ipa =>
    cases owner.symm.trans owner'
    cases realm.symm.trans realm'
    refine ⟨⟨?_, fun _ => ⟨clear.ripas, clear.abort⟩, fun _ => clear.abort⟩, ?_, fun _ => ipa, ?_⟩
    · intro psci
      exact nomatch clear.psci.symm.trans psci
    · intro psci
      exact nomatch clear.psci.symm.trans psci
    · intro psci
      exact nomatch clear.psci.symm.trans psci
  | askRipas _ clear _ =>
    refine ⟨⟨?_, ?_, fun _ => clear.abort⟩, ?_, ?_, ?_⟩
    · intro psci
      exact nomatch clear.psci.symm.trans psci
    · intro host
      exact nomatch clear.host.symm.trans host
    · intro psci
      exact nomatch clear.psci.symm.trans psci
    · intro host
      exact nomatch clear.host.symm.trans host
    · intro psci
      exact nomatch clear.psci.symm.trans psci
  | askCpuOn _ clear owner' realm' entry _ _ =>
    cases owner.symm.trans owner'
    cases realm.symm.trans realm'
    obtain ⟨clear, runnable⟩ := clear.resolve_left fresh
    refine ⟨⟨fun _ => ⟨clear.host, clear.ripas, clear.abort⟩, ?_, fun _ => clear.abort⟩, fun _ => runnable, ?_,
      fun _ _ => ⟨if_pos rfl, entry⟩⟩
    · intro host
      exact nomatch clear.host.symm.trans host
    · intro host
      exact nomatch clear.host.symm.trans host
  | askAffinityInfo _ clear runnable asks _ _ =>
    refine ⟨⟨fun _ => ⟨clear.host, clear.ripas, clear.abort⟩, ?_, fun _ => clear.abort⟩, fun _ => runnable, ?_,
      fun _ on => nomatch asks.symm.trans on⟩
    · intro host
      exact nomatch clear.host.symm.trans host
    · intro host
      exact nomatch clear.host.symm.trans host
  | abort _ clear =>
    refine ⟨⟨?_, ?_, ?_⟩, ?_, ?_, ?_⟩
    · intro psci
      exact nomatch clear.psci.symm.trans psci
    · intro host
      exact nomatch clear.host.symm.trans host
    · intro ripas
      exact absurd clear.ripas (Nat.pos_iff_ne_zero.mp ripas)
    · intro psci
      exact nomatch clear.psci.symm.trans psci
    · intro host
      exact nomatch clear.host.symm.trans host
    · intro psci
      exact nomatch clear.psci.symm.trans psci
  | progress _ _ _ _ => exact ⟨⟨orderly.psci, orderly.host, orderly.ripas⟩, orderly.runnable, orderly.ipa, orderly.cpuOn⟩
  | answered same completes =>
    obtain ⟨_, _, _, _, _, _, run⟩ := completes.completed
    have pending := completes.pending
    rw [same] at run pending
    obtain ⟨_, rfl⟩ := (completePsci?_spec run).answered
    obtain ⟨host, ripas, abort⟩ := orderly.psci pending
    exact .of_clear ⟨rfl, host, ripas, abort⟩
  | started same completes =>
    obtain ⟨_, _, _, _, _, _, run⟩ := completes.completed
    rw [same] at run
    rcases (completePsci?_spec run).started with rfl | ⟨_, idle, rfl⟩
    · exact orderly
    · -- a REC that is not runnable has not asked for anything itself
      have settled : ∀ {P : Prop}, (c.mem r).asRec.psciPending = true → P := by
        intro P psci
        exact nomatch idle.symm.trans (orderly.runnable psci)
      exact ⟨⟨settled, orderly.host, orderly.ripas⟩, settled, orderly.ipa, settled⟩

/-- Every REC is in order, and every REC that has run had nothing pending. -/
structure Core.InOrder (c : Core) : Prop extends c.RecsCounted where
  orderly : ∀ {r}, c.Has r .recCtx → ∃ o rd, (c.mem r).asRec.owner = some o ∧ c.realm? o = some rd ∧
    (c.mem r).asRec.Orderly (lastCpuOn r c.log) rd
  clear : ∀ {r rc}, Event.entered r rc ∈ c.log → rc.Clear

/-- A pending host call is one of the realm that the REC belongs to. -/
theorem Core.InOrder.fresh (inOrder : c.InOrder) (cmd : Command) : ¬StaleHostCall c cmd := by
  intro stale
  cases cmd with
  | recEnter recAddr _ _ =>
    obtain ⟨has, pending, o, rd, owner, realm, wrong⟩ := stale
    obtain ⟨o', rd', owner', realm', orderly⟩ := inOrder.orderly has
    cases owner.symm.trans owner'
    cases realm.symm.trans realm'
    exact wrong (orderly.ipa pending)
  | _ => exact stale

theorem Effect.inOrder (effect : Effect c₀ cmd c c') (inv : c.Inv) (few : FewRecs c₀ cmd)
    (fresh : ¬StaleHostCall c₀ cmd) (inOrder : c.InOrder) : c'.InOrder := by
  refine ⟨effect.counted inv few inOrder.toRecsCounted, fun {r} has => ?_, fun {r rc} member => ?_⟩
  · have stays : ∀ {rc : Rec}, c.stateOf r = .recCtx → rc.owner = (c.mem r).asRec.owner →
        (∀ {o rd}, (c.mem r).asRec.owner = some o → c.realm? o = some rd →
          (c.mem r).asRec.Orderly (lastCpuOn r c.log) rd → rc.Orderly (lastCpuOn r c'.log) rd) →
        ∃ o rd, rc.owner = some o ∧ c'.realm? o = some rd ∧ rc.Orderly (lastCpuOn r c'.log) rd := by
      intro rc before same keeps
      obtain ⟨o, rd, owner, realm, orderly⟩ := inOrder.orderly ⟨has.1, before⟩
      obtain ⟨rd', realm', layout⟩ := inOrder.stays inv effect ⟨has.1, before⟩ owner realm
      exact ⟨o, rd', same.trans owner, realm', (keeps owner realm orderly).of_layout layout⟩
    cases effect.recMove has.1 has.2 with
    | kept before same log =>
      rw [same]
      refine stays before rfl fun _ _ orderly => ?_
      rw [log.lastCpuOn]
      exact orderly
    | step before step fixed after log =>
      rw [after]
      refine stays before fixed.owner fun owner realm orderly => ?_
      rw [log]
      exact step.orderly fresh owner realm orderly
    | enter before _ clear same _ =>
      rw [same]
      exact stays before rfl fun _ _ _ => .of_clear (clear.resolve_left fresh)
    | created _ _ _ after owner clear _ realm _ =>
      obtain ⟨rd, realm⟩ := realm
      rw [after]
      exact ⟨_, rd, owner, realm, .of_clear clear⟩
  · rcases effect.entered member with old | stale | clear
    · exact inOrder.clear old
    · exact absurd stale fresh
    · exact clear

theorem Machine.ReachableFew.inOrder (reached : s.ReachableFew) : s.core.InOrder := by
  refine reached.invariant (P := Core.InOrder) ?_ ?_
  · intro s start
    refine ⟨start.counted, fun has => ?_, fun member => ?_⟩
    · exact nomatch (start.stateOf _).symm.trans has.2
    · rw [start.log] at member
      exact nomatch member
  · intro c₀ c c' cmd few _ before inv inOrder move
    exact (move.effect inv).inOrder inv few (before.fresh cmd) inOrder

/-! ### Waiting for PSCI_COMPLETE -/

/-- The command is a PSCI_COMPLETE for the REC. -/
def AnswersPsci (cmd : Command) (r : Nat) : Prop :=
  match cmd with
  | .psciComplete caller _ _ => caller.toNat = r
  | _ => False

/-- The REC at `r`, which waits in `c`, still does in `c'`: it has not run, and its registers are the same. -/
structure Core.Waits (c : Core) (r : Nat) (c' : Core) : Prop where
  pending : (c'.mem r).asRec.psciPending = true
  registers : ∀ i, (c'.mem r).asRec.getReg i = (c.mem r).asRec.getReg i
  quiet : QuietFor r c.log c'.log

omit [Platform] in
theorem QuietFor.trans {log log' log'' : List Event} (first : QuietFor r log log') (second : QuietFor r log' log'') :
    QuietFor r log log'' := by
  obtain ⟨events, rfl, others⟩ := first
  obtain ⟨events', rfl, others'⟩ := second
  refine ⟨events' ++ events, (List.append_assoc ..).symm, fun event member => ?_⟩
  rcases List.mem_append.mp member with new | old
  · exact others' event new
  · exact others event old

theorem Core.Waits.refl (pending : (c.mem r).asRec.psciPending = true) : c.Waits r c :=
  ⟨pending, fun _ => rfl, .of_eq rfl⟩

theorem Core.Waits.trans {c'' : Core} (first : c.Waits r c') (second : c'.Waits r c'') : c.Waits r c'' :=
  ⟨second.pending, fun i => (second.registers i).trans (first.registers i), first.quiet.trans second.quiet⟩

/-- Only PSCI_COMPLETE ends the wait of a REC. -/
theorem RecStep.waits {events : List Event} (step : RecStep c₀ c cmd r rc rc' events)
    (fresh : ¬StaleHostCall c₀ cmd) (unanswered : ¬AnswersPsci cmd r) (pending : rc.psciPending = true)
    (runnable : rc.runnable = true) :
    rc'.psciPending = true ∧ (∀ i, rc'.getReg i = rc.getReg i) ∧ events = [] := by
  have busy : ∀ {P : Prop}, rc.Clear → P := fun clear => nomatch clear.psci.symm.trans pending
  cases step with
  | stale _ stale => exact absurd stale fresh
  | work _ psci _ _ _ _ => exact nomatch psci.1.symm.trans pending
  | state _ => exact ⟨pending, fun _ => rfl, rfl⟩
  | askHost _ clear _ _ _ => exact busy clear
  | askRipas _ clear _ => exact busy clear
  | askCpuOn _ clear _ _ _ _ _ => exact busy (clear.resolve_left fresh).1
  | askAffinityInfo _ clear _ _ _ _ => exact busy clear
  | abort _ clear => exact busy clear
  | progress _ _ _ _ => exact ⟨pending, fun _ => rfl, rfl⟩
  | answered _ completes =>
    obtain ⟨_, _, _, rfl, caller, _⟩ := completes.completed
    exact absurd caller unanswered
  | started same completes =>
    obtain ⟨_, _, _, _, _, _, run⟩ := completes.completed
    rw [same] at run
    rcases (completePsci?_spec run).started with rfl | ⟨_, idle, _⟩
    · exact ⟨pending, fun _ => rfl, rfl⟩
    · exact nomatch idle.symm.trans runnable

theorem Moves.waits (moves : Moves c₀ cmd c₀ c) (inv : c₀.Inv) (few : FewRecs c₀ cmd) (inOrder : c₀.InOrder)
    (unanswered : ¬AnswersPsci cmd r) (has : c₀.Has r .recCtx) (pending : (c₀.mem r).asRec.psciPending = true)
    (after : c.stateOf r = .recCtx) : c₀.Waits r c := by
  have fresh := inOrder.fresh cmd
  refine (moves.invariant (P := fun c => c.InOrder ∧ (c.stateOf r = .recCtx → c₀.Waits r c)) inv
    ⟨inOrder, fun _ => .refl pending⟩ ?_).2 after
  rintro c c' inv' ⟨order, waits⟩ move
  have effect := move.effect inv'
  refine ⟨effect.inOrder inv' few fresh order, fun after => ?_⟩
  cases effect.recMove has.1 after with
  | kept before same log =>
    refine (waits before).trans ⟨?_, fun i => ?_, log⟩ <;> rw [same]
    exact (waits before).pending
  | step before step _ after log =>
    obtain ⟨o, rd, _, _, orderly⟩ := order.orderly ⟨has.1, before⟩
    have pending := (waits before).pending
    obtain ⟨still, registers, rfl⟩ := step.waits fresh unanswered pending (orderly.runnable pending)
    refine (waits before).trans ⟨?_, fun i => ?_, .of_eq log⟩ <;> rw [after]
    · exact still
    · exact registers i
  | enter before _ clear _ _ =>
    exact nomatch (clear.resolve_left fresh).psci.symm.trans (waits before).pending
  | created start _ before _ _ _ _ _ _ =>
    rw [start] at before
    exact nomatch before.symm.trans has.2

/-- Runs from `s` in which the REC at `r` is there all the time and PSCI_COMPLETE never succeeds for it. -/
inductive Machine.Unanswered (r : Nat) (s : Machine) : Machine → Prop where
  | refl : Unanswered r s s
  | command {t u : Machine} (run : Unanswered r s t) (cmd : Command) (few : CreatesFew t cmd)
    (returned : t.exec cmd = some u) (unanswered : AnswersPsci cmd r → ¬t.Succeeds cmd u)
    (stays : u.core.Has r .recCtx) : Unanswered r s u
  | hostWrite {t : Machine} (run : Unanswered r s t) (addr : Nat) (page : Page) (valid : validateAddr addr)
    (outside : t.core.gptOf addr ≠ .realm) : Unanswered r s (t.hostWrite addr page)

/-- PSCI_COMPLETE that fails leaves both RECs as they were. -/
theorem Machine.psciComplete_error {caller target status : Word} {e : Error} (inv : s.core.Inv)
    (failed : s.handle (.psciComplete caller target status) = (.error (.error e), t)) : t.core = s.core :=
  (wp_error (psciComplete_spec (s := s.start) caller target inv rfl rfl rfl
    rfl) failed).2.1 e rfl

theorem Machine.ReachableVia.step_waits (reached : s.ReachableVia CreatesFew) (few : CreatesFew s cmd)
    (returned : s.exec cmd = some t) (unanswered : AnswersPsci cmd r → ¬s.Succeeds cmd t) (has : s.core.Has r .recCtx)
    (pending : (s.core.mem r).asRec.psciPending = true) (stays : t.core.Has r .recCtx) : s.core.Waits r t.core := by
  have inv := reached.reachable.inv
  have same : t.core = s.core → s.core.Waits r t.core := by
    intro same
    rw [same]
    exact .refl pending
  by_cases answers : AnswersPsci cmd r
  · -- then PSCI_COMPLETE has failed
    rcases Machine.exec_eq_some.mp returned with done | ⟨e, u, failed, rfl⟩
    · exact absurd done (unanswered answers)
    · cases cmd with
      | psciComplete _ _ _ => exact same (Machine.psciComplete_error (t := u) inv failed)
      | _ => exact answers.elim
  · rcases Machine.few_or_same inv returned (few.few inv fun realm => reached.few.indexed realm) with few | unchanged
    · exact (Machine.exec_moves inv returned).waits inv few reached.few.inOrder answers has pending stays.2
    · exact same unchanged

theorem Machine.Unanswered.waits (run : s.Unanswered r t) (reached : s.ReachableVia CreatesFew)
    (has : s.core.Has r .recCtx) (pending : (s.core.mem r).asRec.psciPending = true) :
    t.ReachableVia CreatesFew ∧ t.core.Has r .recCtx ∧ s.core.Waits r t.core := by
  induction run with
  | refl => exact ⟨reached, has, .refl pending⟩
  | command _ cmd few returned unanswered stays ih =>
    obtain ⟨before, has, waits⟩ := ih
    exact ⟨.command before cmd few returned, stays,
      waits.trans (before.step_waits few returned unanswered has waits.pending stays)⟩
  | @hostWrite t _ addr page valid outside ih =>
    obtain ⟨before, has, waits⟩ := ih
    have inv := before.reachable.inv
    have moves : Moves t.core .unregistered t.core (t.hostWrite addr page).core :=
      .single (Move.hostWrite inv valid outside page)
    exact ⟨.hostWrite before addr page valid outside, has,
      waits.trans (moves.waits inv (fun _ => False.elim) before.few.inOrder id has waits.pending has.2)⟩

/-- In every run in which at most 255 RECs are created per realm, a REC has made at most one request, it has run
only with nothing pending, and while it waits for PSCI_COMPLETE it is not run and its registers do not change. -/
theorem Machine.ReachableVia.one_request (reached : s.ReachableVia CreatesFew) :
    (∀ {r}, s.core.Has r .recCtx → (s.core.mem r).asRec.requests.count true ≤ 1) ∧
    (∀ {r rc}, Event.entered r rc ∈ s.core.log →
      rc.psciPending = false ∧ rc.hostCallPending = false ∧ rc.ripas.endAddr = 0) ∧
    ∀ {r t}, s.core.Has r .recCtx → (s.core.mem r).asRec.psciPending = true → s.Unanswered r t →
      s.core.Waits r t.core := by
  have inOrder := reached.few.inOrder
  refine ⟨fun has => ?_, fun entered => ?_, fun has pending run => (run.waits reached has pending).2.2⟩
  · obtain ⟨_, _, _, _, orderly⟩ := inOrder.orderly has
    exact orderly.count
  · have clear := inOrder.clear entered
    exact ⟨clear.psci, clear.host, clear.ripas⟩

/-- A REC is entered after all preparations. -/
theorem Machine.ReachableVia.enters {recW runW : Word} {script : List RealmStep} (prepared : s.ReachableVia Prepares)
    (returned : s.exec (.recEnter recW runW script) = some t) : t.ReachableVia CreatesFew := by
  obtain ⟨reached, few⟩ := prepared.prepared
  refine .command reached _ (fun _ returned _ _ realm => ?_) returned
  exact Machine.exec_fewCreated reached.reachable.inv returned (fun before => few before) (fun creates => creates.elim) realm

theorem Sample.calling_via {registers : Nat → Word} (returns : (Sample.staffed.exec (.recEnter (BitVec.ofNat 64 (bankAt 5))
    (BitVec.ofNat 64 hostPage) [.call registers])).isSome = true) : (Sample.calling registers).ReachableVia CreatesFew :=
  Sample.staffed_via.enters (Machine.exec_next returns)

open Sample in
omit [Platform] in
/-- A REC that has called PSCI_CPU_ON waits. -/
theorem one_request_waiting : ∃ _ : Platform, ∃ (s : Machine) (r : Nat), s.ReachableVia CreatesFew ∧
    s.core.Has r .recCtx ∧ (s.core.mem r).asRec.psciPending = true ∧ (s.core.mem r).asRec.requests.count true ≤ 1 ∧
      s.core.Waits r s.core := by
  let s := calling (registers (BitVec.ofNat 64 Rsi.psciCpuOnCmd) 1)
  have reached : s.ReachableVia CreatesFew := calling_via (by decide +kernel)
  have has : s.core.Has (bankAt 5) .recCtx := by decide +kernel
  have pending : (s.core.mem (bankAt 5)).asRec.psciPending = true := by decide +kernel
  obtain ⟨one, _, waits⟩ := reached.one_request
  exact ⟨platform, s, bankAt 5, reached, has, pending, one has, waits has pending .refl⟩

/-! ### Starting a REC -/

/-- No command but PSCI_COMPLETE makes a REC runnable. -/
theorem RecStep.idle {events : List Event} (step : RecStep c₀ c cmd r rc rc' events) (fresh : ¬StaleHostCall c₀ cmd)
    (other : ∀ caller target status, cmd ≠ .psciComplete caller target status) (idle : rc.runnable = false) :
    rc'.runnable = false := by
  cases step with
  | stale _ stale => exact absurd stale fresh
  | work _ _ _ _ _ runnable =>
    refine Bool.eq_false_iff.mpr fun after => ?_
    exact nomatch idle.symm.trans (runnable after)
  | answered _ completes =>
    obtain ⟨_, _, _, command, _⟩ := completes.completed
    exact absurd command (other _ _ _)
  | started _ completes =>
    obtain ⟨_, _, _, command, _⟩ := completes.completed
    exact absurd command (other _ _ _)
  | _ => exact idle

theorem Moves.idle (moves : Moves c₀ cmd c₀ c) (inv : c₀.Inv) (fresh : ¬StaleHostCall c₀ cmd)
    (other : ∀ caller target status, cmd ≠ .psciComplete caller target status) (has : c₀.Has r .recCtx)
    (idle : (c₀.mem r).asRec.runnable = false) (after : c.stateOf r = .recCtx) : (c.mem r).asRec.runnable = false := by
  refine moves.invariant (P := fun c => c.stateOf r = .recCtx → (c.mem r).asRec.runnable = false) inv (fun _ => idle)
    ?_ after
  intro c c' inv' before move after
  cases (move.effect inv').recMove has.1 after with
  | kept state same _ =>
    rw [same]
    exact before state
  | step state step _ after _ =>
    rw [after]
    exact step.idle fresh other (before state)
  | enter state _ _ same _ =>
    rw [same]
    exact before state
  | created start _ state _ _ _ _ _ _ =>
    rw [start] at state
    exact nomatch state.symm.trans has.2

/-- The REC at `caller` has asked for the REC at `target`, of the same realm, to be started, with what is passed on
to it. -/
structure Core.AskedFor (c : Core) (caller target : Nat) (entry contextId : Word) : Prop where
  other : caller ≠ target
  has : c.Has caller .recCtx
  sibling : ∃ o rd, (c.mem caller).asRec.owner = some o ∧ (c.mem target).asRec.owner = some o ∧
    c.realm? o = some rd ∧ rd.addrInPar entry.toNat = true
  asked : ∃ mpidr, lastCpuOn caller c.log = some (mpidr, entry, contextId) ∧
    Mpidr.index mpidr = (c.mem target).asRec.vcpuid

theorem Completes.askedFor {caller target : Nat} {done done' : Rec} (completes : Completes c cmd caller target done done')
    (inv : c.Inv) (inOrder : c.InOrder) (idle : (c.mem target).asRec.runnable = false) (runnable : done'.runnable = true) :
    c.AskedFor caller target done'.context.elr (done'.getReg 0) := by
  obtain ⟨_, _, _, _, _, _, run⟩ := completes.completed
  obtain ⟨index, _, started⟩ := completePsci?_spec run
  rcases started with rfl | ⟨on, _, rfl⟩
  · exact nomatch idle.symm.trans runnable
  have has : c.Has caller .recCtx := ⟨completes.valid.1, completes.states.1⟩
  obtain ⟨o, rd, owner, realm, orderly⟩ := inOrder.orderly has
  obtain ⟨o', rd', owner', realm', _⟩ := inOrder.orderly ⟨completes.valid.2, completes.states.2⟩
  obtain ⟨call, entry⟩ := orderly.cpuOn completes.pending on
  -- realms with the same VMID are the same
  obtain ⟨q, q', ownerQ, ownerQ', vmid⟩ := completes.owners
  cases owner.symm.trans ownerQ
  cases owner'.symm.trans ownerQ'
  obtain ⟨_, _, desc⟩ := Core.realm?_eq_some.mp realm
  obtain ⟨_, _, desc'⟩ := Core.realm?_eq_some.mp realm'
  rw [desc, desc'] at vmid
  cases inv.realms.vmid_inj realm realm' vmid
  exact ⟨completes.other, has, ⟨o, rd, owner, owner', realm, entry⟩, _, call, index⟩

/-- In every run in which at most 255 RECs are created per realm, a REC becomes runnable only by a PSCI_COMPLETE of
another REC of its realm that asked for it with PSCI_CPU_ON, and it starts where and with what that REC asked for.
PSCI_COMPLETE that fails changes nothing. -/
theorem Machine.ReachableVia.started_by_sibling (reached : s.ReachableVia CreatesFew) :
    (∀ {cmd t r}, s.exec cmd = some t → s.core.Has r .recCtx → t.core.Has r .recCtx →
      (s.core.mem r).asRec.runnable = false → (t.core.mem r).asRec.runnable = true →
      ∃ caller target status, cmd = .psciComplete caller target status ∧ target.toNat = r ∧
        s.core.AskedFor caller.toNat r (t.core.mem r).asRec.context.elr ((t.core.mem r).asRec.getReg 0)) ∧
    ∀ {caller target status e t}, s.handle (.psciComplete caller target status) = (.error (.error e), t) →
      t.core = s.core := by
  have inv := reached.reachable.inv
  have inOrder := reached.few.inOrder
  refine ⟨fun {cmd t r} returned has stays idle runnable => ?_, Machine.psciComplete_error inv⟩
  by_cases other : ∀ caller target status, cmd ≠ .psciComplete caller target status
  · exact nomatch ((Machine.exec_moves inv returned).idle inv (inOrder.fresh cmd) other has idle stays.2).symm.trans
      runnable
  push Not at other
  obtain ⟨caller, target, status, rfl⟩ := other
  refine ⟨caller, target, status, rfl, ?_⟩
  rcases Machine.exec_eq_some.mp returned with done | ⟨e, u, failed, rfl⟩
  · obtain ⟨_, done, done', completes, core⟩ := done.post
      (psciComplete_spec (s := s.start) caller target inv rfl rfl rfl rfl)
    change t.core = (s.core.setContent caller.toNat (.recCtx done)).setContent target.toNat (.recCtx done') at core
    by_cases isTarget : r = target.toNat
    · subst isTarget
      rw [core, Core.mem_setContent_same] at runnable ⊢
      exact ⟨rfl, completes.askedFor inv inOrder idle runnable⟩
    · exfalso
      rw [core, Core.mem_setContent_of_ne _ isTarget] at runnable
      by_cases isCaller : r = caller.toNat
      · subst isCaller
        obtain ⟨_, _, _, _, _, _, run⟩ := completes.completed
        obtain ⟨_, rfl⟩ := (completePsci?_spec run).answered
        rw [Core.mem_setContent_same] at runnable
        exact nomatch idle.symm.trans runnable
      · rw [Core.mem_setContent_of_ne _ isCaller] at runnable
        exact nomatch idle.symm.trans runnable
  · rw [show _ = s.core from Machine.psciComplete_error (t := u) inv failed] at runnable
    exact nomatch idle.symm.trans runnable

theorem Machine.completes (inv : s.core.Inv) {caller target status : Word}
    (can : s.core.CanComplete caller.toNat target.toNat status) :
    ∃ t done done', s.Succeeds (.psciComplete caller target status) t ∧
      completePsci? (s.core.mem caller.toNat).asRec (s.core.mem target.toNat).asRec status = some (done, done') ∧
      t.core = (s.core.setContent caller.toNat (.recCtx done)).setContent target.toNat (.recCtx done') := by
  obtain ⟨t, succeeds, _, done, done', completes, core⟩ := Machine.succeeds_of_wp s (.psciComplete caller target status)
    (psciComplete_spec (s := s.start) caller target inv rfl rfl rfl rfl) fun _ _ stopped => stopped.2.2 can
  obtain ⟨_, _, _, command, _, _, run⟩ := completes.completed
  cases command
  exact ⟨t, done, done', succeeds, run, core⟩

open Sample in
omit [Platform] in
/-- The second REC of a realm is started by the first. -/
theorem started_by_first : ∃ _ : Platform, ∃ (s t : Machine) (caller target : Word), s.ReachableVia CreatesFew ∧
    s.Succeeds (.psciComplete caller target Rsi.psciSuccess) t ∧ (s.core.mem target.toNat).asRec.runnable = false ∧
    (t.core.mem target.toNat).asRec.runnable = true ∧
    s.core.AskedFor caller.toNat target.toNat (t.core.mem target.toNat).asRec.context.elr
      ((t.core.mem target.toNat).asRec.getReg 0) := by
  let s := calling (registers (BitVec.ofNat 64 Rsi.psciCpuOnCmd) 1)
  have reached : s.ReachableVia CreatesFew := calling_via (by decide +kernel)
  have done : s.Succeeds (.psciComplete (BitVec.ofNat 64 (bankAt 5)) (BitVec.ofNat 64 (bankAt 22)) Rsi.psciSuccess) _ :=
    Machine.succeeds_of_result (by decide +kernel)
  have target : s.core.Has (BitVec.ofNat 64 (bankAt 22)).toNat .recCtx := by decide +kernel
  have off : (s.core.mem (BitVec.ofNat 64 (bankAt 22)).toNat).asRec.runnable = false := by decide +kernel
  obtain ⟨t, same⟩ : ∃ t, (s.handle (.psciComplete (BitVec.ofNat 64 (bankAt 5)) (BitVec.ofNat 64 (bankAt 22))
    Rsi.psciSuccess)).2 = t := ⟨_, rfl⟩
  have stays : t.core.Has (BitVec.ofNat 64 (bankAt 22)).toNat .recCtx := same ▸ by decide +kernel
  have on : (t.core.mem (BitVec.ofNat 64 (bankAt 22)).toNat).asRec.runnable = true := same ▸ by decide +kernel
  rw [same] at done
  obtain ⟨_, _, _, command, _, asked⟩ := reached.started_by_sibling.1 done.exec target stays off on
  cases command
  exact ⟨platform, s, t, _, _, reached, done, off, on, asked⟩

/-! ### Naming the target -/

/-- Every PSCI_AFFINITY_INFO of the realm that REC_ENTER runs names a REC that has been created. -/
def AsksKnown (c : Core) (cmd : Command) : Prop :=
  match cmd with
  | .recEnter recW _ script => ∀ step ∈ script, step.IsRsi → (step.context.gpRegs 0).toNat = Rsi.psciAffinityInfoCmd →
    ∀ {o rd}, (c.mem recW.toNat).asRec.owner = some o → c.realm? o = some rd →
      Mpidr.index (step.context.gpRegs 1) < rd.recIndex
  | _ => True

/-- A REC of the realm `rd` that waits for PSCI_COMPLETE has named another REC that has been created. -/
def Rec.Named (rc : Rec) (rd : Rd) : Prop :=
  rc.psciPending = true → Mpidr.index (rc.getReg 1) < rd.recIndex ∧ Mpidr.index (rc.getReg 1) ≠ rc.vcpuid

theorem RecStep.named {events : List Event} (step : RecStep c₀ c cmd r rc rc' events) (fresh : ¬StaleHostCall c₀ cmd)
    (known : EntersRec cmd r → (rc.getReg 0).toNat = Rsi.psciAffinityInfoCmd → cmd.Calls rc.getReg →
      Mpidr.index (rc.getReg 1) < rd.recIndex)
    (runnable : rc.psciPending = true → rc.runnable = true) (owner : rc.owner = some o) (realm : c.realm? o = some rd)
    (named : rc.Named rd) : rc'.Named rd := by
  have settled : ∀ {rc : Rec}, rc.psciPending = false → rc.Named rd := fun none some => nomatch none.symm.trans some
  cases step with
  | stale _ stale => exact absurd stale fresh
  | work _ psci _ _ _ _ => exact settled psci.2
  | state _ => exact named
  | askHost _ clear _ _ _ => exact settled clear.psci
  | askRipas _ clear _ => exact settled clear.psci
  | askCpuOn _ _ owner' realm' _ index other =>
    cases owner.symm.trans owner'
    cases realm.symm.trans realm'
    exact fun _ => ⟨index, other⟩
  | askAffinityInfo enters _ _ asks calls other => exact fun _ => ⟨known enters asks calls, other⟩
  | abort _ clear => exact settled clear.psci
  | progress _ _ _ _ => exact named
  | answered same completes =>
    obtain ⟨_, _, _, _, _, _, run⟩ := completes.completed
    rw [same] at run
    obtain ⟨_, rfl⟩ := (completePsci?_spec run).answered
    exact settled rfl
  | started same completes =>
    obtain ⟨_, _, _, _, _, _, run⟩ := completes.completed
    rw [same] at run
    rcases (completePsci?_spec run).started with rfl | ⟨_, off, rfl⟩
    · exact named
    · -- a REC that is not runnable does not wait
      intro pending
      exact nomatch off.symm.trans (runnable pending)

/-- The count of a realm's RECs only grows, and only by REC_CREATE. -/
theorem Effect.recIndex (effect : Effect c₀ cmd c c') (inv : c.Inv) (before : c.realm? o = some rd)
    (after : c'.realm? o = some rd') :
    rd.recIndex ≤ rd'.recIndex ∧ (¬CreatesRec cmd o → rd'.recIndex = rd.recIndex) := by
  cases effect.realm inv o with
  | kept same _ =>
    cases before.symm.trans (same.symm.trans after)
    exact ⟨Nat.le_refl _, fun _ => rfl⟩
  | step before' after' step _ =>
    cases before.symm.trans before'
    cases after.symm.trans after'
    exact ⟨step.recIndex.ge, fun _ => step.recIndex⟩
  | addRec before' _ creates after' _ =>
    cases before.symm.trans before'
    cases after.symm.trans after'
    exact ⟨Nat.le_succ _, fun no => absurd creates no⟩
  | metadata before' _ _ after' _ _ _ =>
    cases before.symm.trans before'
    cases after.symm.trans after'
    exact ⟨Nat.le_refl _, fun _ => rfl⟩
  | created _ _ none _ _ _ => exact nomatch none.symm.trans before
  | ended _ none _ _ => exact nomatch none.symm.trans after

/-- Every REC that waits has named another one, and realms number their RECs from 0 on. -/
structure Core.TargetsNamed (c : Core) : Prop where
  named : ∀ {r o rd}, c.Has r .recCtx → (c.mem r).asRec.owner = some o → c.realm? o = some rd →
    (c.mem r).asRec.Named rd
  numbered : ∀ {a rd}, c.realm? a = some rd → rd.vcpuIndex = rd.recIndex

/-- The REC that is entered belongs to the realm that it belonged to, and that realm has created the same RECs. -/
def Core.SameCrew (c₀ c : Core) (r : Nat) : Prop :=
  ∀ o rd, c.stateOf r = .recCtx → (c.mem r).asRec.owner = some o → c.realm? o = some rd →
    ∃ rd₀, (c₀.mem r).asRec.owner = some o ∧ c₀.realm? o = some rd₀ ∧ rd.recIndex = rd₀.recIndex

theorem Effect.sameCrew (effect : Effect c₀ cmd c c') (inv : c.Inv) (counted : c.RecsCounted) (enters : EntersRec cmd r)
    (valid : validateAddr r = true) (same : c₀.SameCrew c r) : c₀.SameCrew c' r := by
  have never : ∀ a, ¬CreatesRec cmd a := by
    intro a creates
    cases cmd with
    | recEnter _ _ _ => exact creates
    | _ => exact enters
  intro o rd' state
  have stays : c.stateOf r = .recCtx → (c'.mem r).asRec.owner = (c.mem r).asRec.owner →
      (c'.mem r).asRec.owner = some o → c'.realm? o = some rd' →
      ∃ rd₀, (c₀.mem r).asRec.owner = some o ∧ c₀.realm? o = some rd₀ ∧ rd'.recIndex = rd₀.recIndex := by
    intro before sameOwner owner' realm'
    obtain ⟨_, rd, owner, realm⟩ := counted.owned ⟨valid, before⟩
    cases owner'.symm.trans (sameOwner.trans owner)
    obtain ⟨rd₀, owner₀, realm₀, index⟩ := same _ _ before owner realm
    exact ⟨rd₀, owner₀, realm₀, ((effect.recIndex inv realm realm').2 (never _)).trans index⟩
  cases effect.recMove valid state with
  | kept before same _ => exact stays before (by rw [same])
  | step before _ fixed after _ => exact stays before (by rw [after]; exact fixed.owner)
  | enter before _ _ same _ => exact stays before (by rw [same])
  | created _ creates _ _ _ _ _ _ _ => exact absurd creates (never _)

omit [Platform] in
theorem Rec.Named.mono (named : rc.Named rd) (grows : rd.recIndex ≤ rd'.recIndex) : rc.Named rd' :=
  fun pending => ⟨(named pending).1.trans_le grows, (named pending).2⟩

theorem Effect.numbered (effect : Effect c₀ cmd c c') (inv : c.Inv)
    (numbered : ∀ {a rd}, c.realm? a = some rd → rd.vcpuIndex = rd.recIndex) {a : Nat}
    (realm : c'.realm? a = some rd) : rd.vcpuIndex = rd.recIndex := by
  cases effect.realm inv a with
  | kept same _ => exact numbered (same.symm.trans realm)
  | step before after step _ =>
    cases after.symm.trans realm
    have same := numbered before
    cases step <;> exact same
  | addRec before _ _ after _ =>
    cases after.symm.trans realm
    exact congrArg (· + 1) (numbered before)
  | metadata before _ _ after _ _ _ =>
    cases after.symm.trans realm
    exact (numbered before :)
  | created _ _ _ fresh after _ =>
    cases after.symm.trans realm
    rw [fresh.vcpuIndex, fresh.recIndex]
  | ended _ none _ _ => exact nomatch none.symm.trans realm

theorem Effect.targetsNamed (effect : Effect c₀ cmd c c') (inv : c.Inv) (inOrder : c.InOrder)
    (fresh : ¬StaleHostCall c₀ cmd) (known : AsksKnown c₀ cmd) 
    (crew : ∀ {r}, validateAddr r = true → EntersRec cmd r → c₀.SameCrew c r)
    (targets : c.TargetsNamed) : c'.TargetsNamed := by
  refine ⟨fun {r o rd'} has owner' realm' => ?_, fun realm => effect.numbered inv targets.numbered realm⟩
  have stays : c.stateOf r = .recCtx → (c'.mem r).asRec.owner = (c.mem r).asRec.owner →
      (∀ {rd}, (c.mem r).asRec.owner = some o → c.realm? o = some rd → (c.mem r).asRec.Named rd →
        (c'.mem r).asRec.Named rd) → (c'.mem r).asRec.Named rd' := by
    intro before same keeps
    obtain ⟨_, rd, owner, realm, _⟩ := inOrder.orderly ⟨has.1, before⟩
    cases owner'.symm.trans (same.trans owner)
    exact (keeps owner realm (targets.named ⟨has.1, before⟩ owner realm)).mono (effect.recIndex inv realm realm').1
  cases effect.recMove has.1 has.2 with
  | kept before same _ => exact stays before (by rw [same]) fun _ _ named => by rw [same]; exact named
  | step before step fixed after _ =>
    refine stays before (by rw [after]; exact fixed.owner) fun {rd} owner realm named => ?_
    obtain ⟨_, _, _, _, orderly⟩ := inOrder.orderly ⟨has.1, before⟩
    rw [after]
    refine step.named fresh (fun enters asks calls => ?_) orderly.runnable owner realm named
    -- the realm had created the same RECs when the command was issued
    obtain ⟨rd₀, owner₀, realm₀, index⟩ := crew has.1 enters _ _ before owner realm
    rw [index]
    cases cmd with
    | recEnter _ _ _ =>
      cases enters
      obtain ⟨step, member, isRsi, registers⟩ := calls
      rw [← registers] at asks ⊢
      exact known step member isRsi asks owner₀ realm₀
    | _ => exact enters.elim
  | enter before _ _ same _ => exact stays before (by rw [same]) fun _ _ named => by rw [same]; exact named
  | created _ _ _ after _ clear _ _ _ =>
    rw [after]
    exact fun pending => nomatch clear.psci.symm.trans pending

theorem Moves.targetsNamed (moves : Moves c₀ cmd c₀ c) (inv : c₀.Inv) (few : FewRecs c₀ cmd) (known : AsksKnown c₀ cmd)
    (inOrder : c₀.InOrder) (targets : c₀.TargetsNamed) : c.TargetsNamed := by
  have fresh := inOrder.fresh cmd
  refine (moves.invariant (P := fun c => c.InOrder ∧ c.TargetsNamed ∧
    ∀ {r}, validateAddr r = true → EntersRec cmd r → c₀.SameCrew c r) inv ⟨inOrder, targets, ?_⟩ ?_).2.1
  · exact fun _ _ o rd _ owner realm => ⟨rd, owner, realm, rfl⟩
  · rintro c c' inv' ⟨order, named, crew⟩ move
    have effect := move.effect inv'
    exact ⟨effect.inOrder inv' few fresh order, effect.targetsNamed inv' order fresh known crew named,
      fun valid enters => effect.sameCrew inv' order.toRecsCounted enters valid (crew valid enters)⟩

/-- Runs in which no realm has more than 255 RECs and PSCI_AFFINITY_INFO only asks for RECs that have been created. -/
abbrev Machine.ReachableKnown (s : Machine) : Prop :=
  s.ReachableVia fun s cmd => FewRecs s.core cmd ∧ AsksKnown s.core cmd

theorem Machine.ReachableKnown.inOrder (reached : s.ReachableKnown) : s.core.InOrder :=
  Machine.ReachableFew.inOrder (reached.mono fun _ _ meets _ _ => meets.1)

theorem Machine.ReachableKnown.targetsNamed (reached : s.ReachableKnown) : s.core.TargetsNamed := by
  induction reached with
  | initial start =>
    refine ⟨fun has => (nomatch (start.stateOf _).symm.trans has.2), fun {a rd} realm => ?_⟩
    rw [start.realm?] at realm
    exact nomatch realm
  | command before cmd meets returned ih =>
    have inv := before.reachable.inv
    exact (Machine.exec_moves inv returned).targetsNamed inv meets.1 meets.2
      (Machine.ReachableKnown.inOrder before) ih
  | hostWrite before addr page valid outside ih =>
    have inv := before.reachable.inv
    exact (Moves.targetsNamed (.single (Move.hostWrite inv valid outside page)) inv (fun _ => False.elim) trivial
      (Machine.ReachableKnown.inOrder before) ih :)

omit [Platform] in
/-- Any answer of the host is accepted that does not deny it. -/
theorem completePsci?_accepts {caller target : Rec} (index : Mpidr.index (caller.getReg 1) = target.vcpuid) :
    completePsci? caller target Rsi.psciSuccess ≠ none := by
  unfold completePsci?
  dsimp only
  rw [if_neg (not_not.mpr index), if_neg (fun wrong => wrong.2.1 rfl), if_neg (fun wrong => wrong.2 rfl),
    if_neg (fun wrong => nomatch wrong.2.2)]
  exact nofun

/-- In every run in which no realm gets more than 255 RECs and PSCI_AFFINITY_INFO only asks for RECs that have been
created, a REC that waits for PSCI_COMPLETE has named another REC that its realm has created, and PSCI_COMPLETE with
that REC ends the wait. -/
theorem Machine.ReachableKnown.target_named (reached : s.ReachableKnown) {callerW : Word}
    (has : s.core.Has callerW.toNat .recCtx) (pending : (s.core.mem callerW.toNat).asRec.psciPending = true) :
    ∃ o rd, (s.core.mem callerW.toNat).asRec.owner = some o ∧ s.core.realm? o = some rd ∧
      rd.vcpuIndex = rd.recIndex ∧
      Mpidr.index ((s.core.mem callerW.toNat).asRec.getReg 1) < rd.recIndex ∧
      Mpidr.index ((s.core.mem callerW.toNat).asRec.getReg 1) ≠ (s.core.mem callerW.toNat).asRec.vcpuid ∧
      ∀ targetW : Word, s.core.Has targetW.toNat .recCtx → (s.core.mem targetW.toNat).asRec.owner = some o →
        (s.core.mem targetW.toNat).asRec.vcpuid = Mpidr.index ((s.core.mem callerW.toNat).asRec.getReg 1) →
        ∃ t, s.Succeeds (.psciComplete callerW targetW Rsi.psciSuccess) t ∧
          (t.core.mem callerW.toNat).asRec.psciPending = false := by
  have targets := reached.targetsNamed
  obtain ⟨o, rd, owner, realm, _⟩ := reached.inOrder.orderly has
  obtain ⟨index, other⟩ := targets.named has owner realm pending
  refine ⟨o, rd, owner, realm, targets.numbered realm, index, other, fun targetW hasTarget sibling number => ?_⟩
  have apart : callerW.toNat ≠ targetW.toNat := by
    intro same
    rw [← same] at number
    exact other number.symm
  obtain ⟨t, done, done', succeeds, run, core⟩ := Machine.completes reached.reachable.inv
    ⟨apart, has, hasTarget, pending, sibling.trans owner.symm, completePsci?_accepts number.symm⟩
  obtain ⟨_, rfl⟩ := (completePsci?_spec run).answered
  refine ⟨t, succeeds, ?_⟩
  rw [core, Core.mem_setContent_of_ne _ apart, Core.mem_setContent_same]
  rfl

theorem Machine.ReachableVia.known (prepared : s.ReachableVia Prepares) : s.ReachableKnown := by
  induction prepared with
  | initial start => exact .initial start
  | @command s t before cmd meets returned ih =>
    refine .command ih cmd ⟨fun a creates => ?_, ?_⟩ returned
    · have few := before.prepared.1.few
      cases realm : s.core.realm? a with
      | none =>
        rw [few.counted.numRecs_eq_zero realm]
        omega
      | some rd => exact (few.indexed realm).trans_lt (meets.2 creates realm)
    · cases cmd with
      | recEnter recW _ _ => exact absurd rfl (meets.1 recW.toNat)
      | _ => trivial
  | hostWrite _ addr page valid outside ih => exact .hostWrite ih addr page valid outside

open Sample in
omit [Platform] in
/-- The first REC of a realm that asks for the second has named it. -/
theorem target_named_second : ∃ _ : Platform, ∃ (s : Machine) (callerW : Word) (o : Nat) (rd : Rd), s.ReachableKnown ∧
    s.core.Has callerW.toNat .recCtx ∧ (s.core.mem callerW.toNat).asRec.psciPending = true ∧
    s.core.realm? o = some rd ∧ Mpidr.index ((s.core.mem callerW.toNat).asRec.getReg 1) < rd.recIndex := by
  let cmd := Command.recEnter (BitVec.ofNat 64 (bankAt 5)) (BitVec.ofNat 64 hostPage)
    [.call (registers (BitVec.ofNat 64 Rsi.psciCpuOnCmd) 1)]
  have known : AsksKnown staffed.core cmd := by
    intro step member _ asks
    cases List.mem_singleton.mp member
    exact nomatch asks
  have reached : (staffed.next cmd).ReachableKnown :=
    .command staffed_via.known cmd ⟨fun _ => False.elim, known⟩ (Machine.exec_next (by decide +kernel))
  have has : (staffed.next cmd).core.Has (BitVec.ofNat 64 (bankAt 5)).toNat .recCtx := by decide +kernel
  have pending : ((staffed.next cmd).core.mem (BitVec.ofNat 64 (bankAt 5)).toNat).asRec.psciPending = true := by
    decide +kernel
  obtain ⟨o, rd, _, realm, _, index, _⟩ := reached.target_named has pending
  exact ⟨platform, _, _, o, rd, reached, has, pending, realm, index⟩

open Sample in
omit [Platform] in
/-- PSCI_AFFINITY_INFO for a REC that does not exist leaves the REC waiting for it. -/
theorem target_unknown : ∃ _ : Platform, ∃ (s : Machine) (r o : Nat) (rd : Rd), s.Reachable ∧ s.core.Has r .recCtx ∧
    (s.core.mem r).asRec.psciPending = true ∧ (s.core.mem r).asRec.owner = some o ∧ s.core.realm? o = some rd ∧
    ¬Mpidr.index ((s.core.mem r).asRec.getReg 1) < rd.recIndex := by
  let s := calling (registers (BitVec.ofNat 64 Rsi.psciAffinityInfoCmd) 5)
  have reached : s.Reachable := (calling_via (by decide +kernel)).reachable
  obtain ⟨rd, realm, few⟩ := (Option.any_eq_true (fun rd => !decide (Mpidr.index ((s.core.mem (bankAt 5)).asRec.getReg 1) <
    rd.recIndex)) (s.core.realm? (bankAt 0))).mp (by decide +kernel)
  exact ⟨platform, s, bankAt 5, bankAt 0, rd, reached, by decide +kernel, by decide +kernel, by decide +kernel, realm,
    by simpa using few⟩

end Islet.Rmm
