import Islet.Rmm.Aborts

/-! A change of RIPAS that a realm asks for. The host works through the requested range
with RTT_SET_RIPAS, the REC keeps the address that it has come to, and the next entry of
the REC tells the realm. A REC_ENTER that fails has not come as far as that: the only
errors after the first entry of the realm concern the page of the host, which nobody can
take away from it meanwhile. -/

namespace Islet.Rmm

open Lib Prog Bits Rmi Stage2Translation Vmsa

variable [Platform] {c₀ c c' : Core} {cmd : Command} {s t u v x : Machine} {r p o : Nat} {rd : Rd} {rc rc' : Rec}
  {step : RealmStep} {err' : Halt → Machine → Prop}

/-! ### Pages of the host -/

/-- Only delegation changes the world of a granule. -/
theorem Move.gptOf (move : Move c₀ cmd c c') (keeps : ¬cmd.HandsOver) (x : Nat) : c'.gptOf x = c.gptOf x := by
  cases move with
  | aux => exact Core.gptOf_setStateCore _
  | handOver hands => exact absurd hands keeps
  | addData => exact Core.gptOf_setStateCore _
  | dropData => exact Core.gptOf_setStateCore _
  | dropTable => exact Core.gptOf_setStateCore _
  | split => exact Core.gptOf_setStateCore _
  | newRealm _ new => exact new.gpt x
  | endRealm ended => exact ended.gpt x
  | newRec _ new => exact new.gpt x
  | endRec => exact Core.gptOf_setStateCore _
  | metadata => exact Core.gptOf_setStateCore _
  | _ => rfl

theorem Moves.gptOf (moves : Moves c₀ cmd c c') (keeps : ¬cmd.HandsOver) (x : Nat) : c'.gptOf x = c.gptOf x := by
  induction moves with
  | refl => rfl
  | tail _ move ih => exact (move.gptOf keeps x).trans ih

/-- A page of the host stays one while REC_ENTER works. -/
theorem Left.host (left : Left cmd s r t) (inv : s.core.Inv) (has : s.core.Has p .undelegated) :
    t.core.Has p .undelegated := by
  have keeps : ¬cmd.HandsOver := by
    have enters := left.enters
    cases cmd with
    | recEnter => exact id
    | _ => exact enters.elim
  refine ⟨has.1, ((left.kept.moves.inv inv).gpt p has.1).mpr ?_⟩
  rw [left.kept.moves.gptOf keeps]
  exact (inv.gpt p has.1).mp has.2

/-! ### Errors after an entry -/

/-- The errors of services go to the realm, and a data abort is always reported. -/
theorem Serving.noError (serving : Serving t r o rd) (step : RealmStep) :
    wp (Rmi.handleRealmExit (granuleAddrToIndex r) step) (fun _ _ => True) (fun halt _ => ∀ e, halt ≠ .error e) t := by
  by_cases isRsi : step.IsRsi
  · cases found : Rsi.handler? (step.context.gpRegs 0).toNat (granuleAddrToIndex r) with
    | none =>
      unfold Rmi.handleRealmExit
      dsimp only
      refine wp_if (fun _ => ?_) fun other => absurd isRsi other
      unfold Rsi.handleRsi
      rw [found, wp_bind, wp_bind, wp_modifyRec serving.has.1, wp_pure]
      trivial
    | some handler =>
      refine wp_callsHandler isRsi found (wp_of_forall (fun _ _ => trivial) fun halt u => ?_)
      cases halt with
      | error e => trivial
      | _ => exact fun _ => nofun
  by_cases abort : step.IsAbort
  · exact serving.wp_abort abort (fun _ _ _ => nofun) (fun _ => trivial) fun _ => trivial
  · unfold Rmi.handleRealmExit
    dsimp only
    exact wp_if (fun call => absurd call isRsi) fun _ => wp_if (fun fault => absurd fault abort) fun _ =>
      wp_if (fun _ => trivial) fun _ => wp_if (fun _ => trivial) fun _ => trivial

section Late

variable (inv : s.core.Inv) (valid : validateAddr r = true)
include inv valid

theorem recEnterRound_noError (work : InRec cmd s r o Rec.Idle t) (held : t.held = [granuleAddrToIndex r])
    (calls : step.IsRsi → cmd.Calls step.context.gpRegs) :
    wp (recEnterRound (granuleAddrToIndex r) step)
      (fun ret u => Left cmd s r u ∧ u.held = t.held ∧ (ret.1 = false → InRec cmd s r o Rec.Idle u))
      (fun halt _ => ∀ e, halt ≠ .error e) t := by
  have runs : wp (recEnterRun (granuleAddrToIndex r) step) (fun _ _ => True) (fun halt _ => ∀ e, halt ≠ .error e) t := by
    obtain ⟨rd, realm, _⟩ := work.realm
    exact wp_recEnterRun (work.inv inv) ⟨valid, work.state⟩ work.owner realm held (fun _ _ _ => nofun) fun _ => trivial
  have ends : wp (recEnterRound (granuleAddrToIndex r) step) (fun _ _ => True) (fun halt _ => ∀ e, halt ≠ .error e) t := by
    rw [recEnterRound_eq, wp_bind]
    refine wp_mono (wp_and (recEnterRun_spec inv valid work held) runs) (fun _ u both => ?_) fun _ _ both => both.2
    obtain ⟨⟨work, same, _⟩, _⟩ := both
    obtain ⟨rd, realm, active⟩ := work.realm
    have serving : Serving u r o rd :=
      ⟨work.inv inv, ⟨valid, work.state⟩, work.owner, realm, active, same.trans held⟩
    rw [wp_bind]
    refine wp_mono (serving.noError step) (fun ret v _ => ?_) fun _ _ => id
    rw [wp_bind, wp_modifyRec valid, wp_pure]
    trivial
  exact wp_mono (wp_and (recEnterRound_spec inv valid work held calls) ends) (fun _ _ both => both.1) fun _ _ both => both.2

theorem recEnterLoop_noError (script : List RealmStep) (work : InRec cmd s r o Rec.Idle t)
    (held : t.held = [granuleAddrToIndex r]) (calls : ∀ step ∈ script, step.IsRsi → cmd.Calls step.context.gpRegs) :
    wp (recEnterLoop (granuleAddrToIndex r) script) (fun _ u => Left cmd s r u ∧ u.held = t.held)
      (fun halt _ => ∀ e, halt ≠ .error e) t := by
  induction script generalizing t with
  | nil =>
    unfold recEnterLoop
    rw [wp_bind, wp_contentRec, wp_bind]
    exact wp_mono (recEnterRound_noError inv valid work held fun isRsi => by cases isRsi.1)
      (fun _ u post => ⟨post.1, post.2.1⟩) fun _ _ => id
  | cons step rest ih =>
    unfold recEnterLoop
    rw [wp_bind]
    refine wp_mono (recEnterRound_noError inv valid work held (calls step List.mem_cons_self)) ?_ fun _ _ => id
    rintro ⟨returnToNs, ret⟩ u ⟨left, same, stays⟩
    cases returnToNs with
    | true => exact ⟨left, same⟩
    | false =>
      exact wp_mono (ih (stays rfl) (same.trans held) fun step member => calls step (List.mem_cons_of_mem _ member))
        (fun _ v post => ⟨post.1, post.2.trans same⟩) fun _ _ => id

end Late

section Enter

variable {recW runW : Word} {script : List RealmStep}

/-- REC_ENTER that fails has not come to run the realm. -/
theorem Machine.recEnter_error {e : Error} (inv : s.core.Inv)
    (failed : s.handle (.recEnter recW runW script) = (.error (.error e), t)) :
    (recEnterBegins recW.toNat runW.toNat).run s.start = (.error (.error e), t) := by
  have spec := recEnterBegins_spec (s := s.start) recW runW script inv rfl rfl rfl rfl
  change (recEnter _ _ _).run s.start = _ at failed
  rw [recEnter_eq_begins] at failed
  rcases begins : (recEnterBegins recW.toNat runW.toNat).run s.start with ⟨halt | g, u⟩
  · rw [bind_run_of_error begins] at failed
    cases failed
    rfl
  · obtain ⟨rfl, o, rd, begun, work⟩ := wp_ok spec begins
    have can := begun.can
    rw [bind_run_of_ok begins] at failed
    have late : wp (do
        let ret ← recEnterLoop (granuleAddrToIndex recW.toNat) script
        recEnterReturns (granuleAddrToIndex recW.toNat) runW.toNat ret : RmmM Unit) (fun _ _ => True)
        (fun halt _ => ∀ e, halt ≠ .error e) u := by
      rw [wp_bind]
      refine wp_mono (recEnterLoop_noError (s := s.start) inv can.has.1 script work begun.held
        fun step member isRsi => ⟨step, member, isRsi, rfl⟩) (fun ret v ⟨left, same⟩ => ?_) fun _ _ => id
      refine wp_recEnterReturns can.has.1 can.host.1 can.other (same.trans begun.held) (fun gone => ?_)
        fun _ _ _ => trivial
      exact absurd (left.host (s := s.start) inv can.host) gone
    exact absurd rfl (wp_error late failed e)

/-- REC_ENTER that succeeds has run the realm. -/
theorem Machine.Succeeds.exits (done : s.Succeeds (.recEnter recW runW script) t) (inv : s.core.Inv) :
    ∃ step u, s.Exits recW runW [] step u := by
  have spec := recEnterBegins_spec (s := s.start) recW runW script inv rfl rfl rfl rfl
  unfold Machine.Succeeds at done
  change (recEnter _ _ _).run s.start = _ at done
  rw [recEnter_eq_begins] at done
  rcases begins : (recEnterBegins recW.toNat runW.toNat).run s.start with ⟨halt | g, u⟩
  · rw [bind_run_of_error begins] at done
    exact nomatch done
  · obtain ⟨rfl, o, rd, begun, work⟩ := wp_ok spec begins
    rcases begun.runs (s := s.start) inv work script with runs | ⟨w, panics⟩
    · obtain ⟨w, ran⟩ := runs (.irq (u.core.mem recW.toNat).asRec.context)
      exact ⟨_, w, .first begins ran⟩
    · rw [bind_run_of_ok begins, bind_run_of_error panics] at done
      exact nomatch done

end Enter

/-! ### The cursor -/

/-- The address that the change of RIPAS for the REC at `r` has come to. -/
def Core.ripasAddr (c : Core) (r : Nat) : Nat := (c.mem r).asRec.ripas.addr

omit [Platform] in
theorem Rec.unentered_setReg (rc : Rec) (i : Nat) (value : Word) : rc.Unentered (rc.setReg i value) := by
  unfold Rec.setReg
  split_ifs <;> exact .of_eq rfl rfl rfl

/-- What is settled before an entry is no part of the request. -/
theorem Settles.unentered {page : Page} (settles : Settles c r rd page c') :
    (c.mem r).asRec.Unentered (c'.mem r).asRec := by
  cases settles with
  | idle =>
    rw [Core.mem_setContent_same]
    exact .of_eq rfl rfl rfl
  | refused =>
    rw [Core.mem_setContent_same]
    exact ((c.mem r).asRec.unentered_setReg 0 Rsi.errorInput).trans (.of_eq rfl rfl rfl)
  | answered =>
    rw [Core.mem_setContent_same]
    exact ((c.mem r).asRec.unentered_setReg 0 Rsi.success).trans (.of_eq rfl rfl rfl)

theorem Settles.ripas {page : Page} (settles : Settles c r rd page c') :
    (c'.mem r).asRec.ripas = (c.mem r).asRec.ripas := by
  cases settles with
  | idle =>
    rw [Core.mem_setContent_same]
    rfl
  | refused =>
    rw [Core.mem_setContent_same]
    exact (Rec.SameBesidesRegs.setReg _ _ _).besidesContext.sameFlags.ripas
  | answered =>
    rw [Core.mem_setContent_same]
    exact (Rec.SameBesidesRegs.setReg _ _ _).besidesContext.sameFlags.ripas

/-- Runs from `s` in which the REC at `r` is there all the time and no REC_ENTER of it succeeds. -/
inductive Machine.Unresumed (r : Nat) (s : Machine) : Machine → Prop where
  | refl : Unresumed r s s
  | command {t u : Machine} (run : Unresumed r s t) (cmd : Command) (returned : t.exec cmd = some u)
    (fails : EntersRec cmd r → ¬t.Succeeds cmd u) (stays : u.core.Has r .recCtx) : Unresumed r s u
  | hostWrite {t : Machine} (run : Unresumed r s t) (addr : Nat) (page : Page) (valid : validateAddr addr)
    (outside : t.core.gptOf addr ≠ .realm) : Unresumed r s (t.hostWrite addr page)

/-- REC_ENTER that fails leaves the request alone. -/
theorem Machine.recEnter_unentered {recW runW : Word} {script : List RealmStep} {e : Error} (inv : s.core.Inv)
    (failed : s.handle (.recEnter recW runW script) = (.error (.error e), t)) :
    (s.core.mem recW.toNat).asRec.Unentered (t.core.mem recW.toNat).asRec := by
  have spec := recEnterBegins_spec (s := s.start) recW runW script inv rfl rfl rfl rfl
  rcases wp_error spec (Machine.recEnter_error inv failed) with ⟨panic, _⟩ | ⟨same, _⟩ | ⟨_, _, _, _, _, settles⟩
  · exact nomatch panic
  · rw [same]
    exact .of_eq rfl rfl rfl
  · exact settles.unentered

theorem Machine.exec_unresumed (inv : s.core.Inv) (has : s.core.Has r .recCtx) (returned : s.exec cmd = some t)
    (fails : EntersRec cmd r → ¬s.Succeeds cmd t) (stays : t.core.Has r .recCtx) :
    (s.core.mem r).asRec.Unentered (t.core.mem r).asRec := by
  by_cases enters : EntersRec cmd r
  · rcases Machine.exec_eq_some.mp returned with done | ⟨e, u, failed, rfl⟩
    · exact absurd done (fails enters)
    · cases cmd with
      | recEnter recW runW script =>
        cases enters
        exact (Machine.recEnter_unentered inv failed :)
      | _ => exact enters.elim
  · exact (Machine.exec_moves inv returned).unentered inv enters has stays.2

theorem Machine.Unresumed.same (run : s.Unresumed r t) (inv : s.core.Inv) (has : s.core.Has r .recCtx) :
    t.core.Inv ∧ t.core.Has r .recCtx ∧ (s.core.mem r).asRec.Unentered (t.core.mem r).asRec := by
  induction run with
  | refl => exact ⟨inv, has, .of_eq rfl rfl rfl⟩
  | command _ cmd returned fails stays ih =>
    obtain ⟨inv, has, same⟩ := ih
    exact ⟨Machine.Step.inv (.command cmd returned) inv, stays,
      same.trans (Machine.exec_unresumed inv has returned fails stays)⟩
  | @hostWrite t _ addr page valid outside ih =>
    obtain ⟨inv, has, same⟩ := ih
    have moves : Moves t.core .unregistered t.core (t.hostWrite addr page).core :=
      .single (Move.hostWrite inv valid outside page)
    exact ⟨Machine.Step.inv (.hostWrite addr page valid outside) inv, has, same.trans (moves.unentered inv id has has.2)⟩

/-! ### The request and the answer -/

/-- What RSI_IPA_STATE_SET asks of its arguments. -/
def Rd.AcceptsRipas (rd : Rd) (registers : Nat → Word) : Prop :=
  (registers 1).toNat < (registers 2).toNat ∧ isGranuleAligned (registers 1).toNat = true ∧
    isGranuleAligned (registers 2).toNat = true ∧ Rsi.isRipasValid ((registers 3).toNat % 256) = true ∧
    rd.addrInPar (registers 1).toNat = true ∧ rd.addrInPar ((registers 2).toNat - 1) = true

/-- The REC has asked for a change of RIPAS. -/
def Machine.asked (t : Machine) (r : Nat) (registers : Nat → Word) : Machine :=
  { t with
    core := t.core.setContent r (.recCtx ((t.core.mem r).asRec.setRipas (registers 1).toNat (registers 2).toNat
      ((registers 3).toNat % 256) (registers 4)))
    run := Run.setRipas (Run.setExitReason t.run Rsi.exitRipasChange) (registers 1) (registers 2)
      (BitVec.ofNat 64 ((registers 3).toNat % 256)) }

theorem Serving.wp_asksRipas {ok : Bool × Nat → Machine → Prop} (serving : Serving t r o rd) (isRsi : step.IsRsi)
    (number : (step.context.gpRegs 0).toNat = Rsi.ipaStateSetCmd)
    (registers : (t.core.mem r).asRec.getReg = step.context.gpRegs)
    (refused : ¬rd.AcceptsRipas step.context.gpRegs → ∀ v, ok (false, Rsi.rmiSuccessRecEnter) v)
    (accepted : rd.AcceptsRipas step.context.gpRegs → ok (true, Rsi.rmiSuccess) (t.asked r step.context.gpRegs)) :
    wp (Rmi.handleRealmExit (granuleAddrToIndex r) step) ok err' t := by
  have valid := serving.has.1
  refine wp_callsHandler isRsi (by rw [number]; rfl) ?_
  unfold Rsi.setRipasState
  rw [wp_bind, wp_contentRec, indexToAddr_granuleAddrToIndex valid, registers]
  refine wp_if (fun empty => ?_) fun ordered => serving.wp_ownerRd (wp_if (fun bad => ?_) fun good => ?_)
  · unfold Rsi.answer
    rw [wp_bind, wp_modifyRec valid, wp_pure]
    exact refused (fun accepts => absurd accepts.1 (Nat.not_lt.mpr empty)) _
  · unfold Rsi.answer
    rw [wp_bind, wp_modifyRec valid, wp_pure]
    refine refused (fun ⟨ordered, low, high, state, lower, upper⟩ => ?_) _
    simp only [low, high, state, lower, upper, Bool.not_true, Bool.false_eq_true, false_or, or_false] at bad
    exact absurd ordered (Nat.not_lt.mpr bad)
  · simp only [not_or, Bool.not_eq_true', Bool.not_eq_false, Nat.not_le] at good ordered
    obtain ⟨low, high, state, _, lower, upper⟩ := good
    rw [wp_bind, wp_modifyRun, wp_bind, wp_modifyRec valid, wp_pure]
    exact accepted ⟨ordered, low, high, state, lower, upper⟩

/-- REC_ENTER runs the realm, which reads that its request has come to `addr`. -/
def Machine.TellsRipas (s : Machine) (recW runW : Word) (addr : Nat) : Prop :=
  (∃ step u, s.Exits recW runW [] step u) ∧ ∀ {step u}, s.Exits recW runW [] step u → ∃ rc,
    u.core.log = .entered recW.toNat rc :: s.core.log ∧ rc.getReg 0 = 0 ∧ rc.getReg 1 = BitVec.ofNat 64 addr

omit [Platform] in
theorem Rec.ripas_emulated (rc : Rec) (run : Page) : (rc.emulated run).ripas = rc.ripas := by
  unfold Rec.emulated Rec.loaded
  dsimp only
  split_ifs
  · rfl
  · exact (Rec.SameBesidesRegs.setReg _ _ _).besidesContext.sameFlags.ripas
  · rfl

omit [Platform] in
theorem Rec.getReg_ripasChanged (rc : Rec) (run : Page) (asked : 0 < rc.ripas.endAddr) :
    (rc.ripasChanged run).getReg 0 = 0 ∧ (rc.ripasChanged run).getReg 1 = BitVec.ofNat 64 rc.ripas.addr := by
  unfold Rec.ripasChanged
  rw [if_pos asked]
  constructor
  · change (Rec.setReg _ 2 _).getReg 0 = _
    rw [Rec.getReg_setReg_of_ne _ (by omega) _ (by omega), Rec.getReg_setReg_of_ne _ (by omega) _ (by omega),
      Rec.getReg_setReg_same _ (by omega)]
  · change (Rec.setReg _ 2 _).getReg 1 = _
    rw [Rec.getReg_setReg_of_ne _ (by omega) _ (by omega), Rec.getReg_setReg_same _ (by omega)]

theorem Settles.log {page : Page} (settles : Settles c r rd page c') : c'.log = c.log := by
  cases settles <;> rfl

/-- The realm is entered with the registers that it reads then. -/
theorem Machine.Exits.entered {recW runW : Word} (exits : s.Exits recW runW [] step u) (inv : s.core.Inv) :
    ∃ o rd t, Begun s.start recW.toNat runW.toNat o rd t ∧
      u.core.log = .entered recW.toNat (t.core.mem recW.toNat).asRec.running :: t.core.log := by
  rcases exits.cases with ⟨t, _, begins, runs⟩ | ⟨_, _, _, _, _, wrong, _⟩
  · obtain ⟨_, o, rd, begun, work⟩ := wp_ok (recEnterBegins_spec (s := s.start) recW runW [] inv rfl rfl rfl rfl) begins
    obtain ⟨rd', serving, runs'⟩ := recEnterRun_vary (s := s.start) work inv begun.can.has.1 begun.held runs
    cases runs.symm.trans (runs' step)
    refine ⟨o, rd, t, begun, ?_⟩
    have notRd : t.core.stateOf recW.toNat ≠ .rd := by
      rw [serving.has.2]
      exact nofun
    have running : (t.core.setContent recW.toNat (.recCtx (t.core.mem recW.toNat).asRec.running)).Inv :=
      (Calm.setRec (r := (t.core.mem recW.toNat).asRec.running) serving.has.2 rfl rfl id).inv serving.inv
    exact (StoresOnly.of_stores (((Calm.refl _).emits
      [.entered recW.toNat (t.core.mem recW.toNat).asRec.running]).inv running)
      ((realm?_setContent notRd o).trans serving.realm) step.stores).log
  · exact absurd wrong.symm (List.append_ne_nil_of_right_ne_nil _ (List.cons_ne_nil _ _))

theorem Machine.tellsRipas {recW runW : Word} {script : List RealmStep} (inv : s.core.Inv)
    (asked : 0 < (s.core.mem recW.toNat).asRec.ripas.endAddr) (done : s.Succeeds (.recEnter recW runW script) t) :
    s.TellsRipas recW runW (s.core.ripasAddr recW.toNat) := by
  refine ⟨done.exits inv, fun {step u} exits => ?_⟩
  obtain ⟨o, rd, t, begun, log⟩ := exits.entered inv
  obtain ⟨c, settles, core⟩ := begun.core
  have ripas : (((c.mem recW.toNat).asRec).emulated (s.core.mem runW.toNat).words).ripas =
      (s.core.mem recW.toNat).asRec.ripas := (Rec.ripas_emulated _ _).trans settles.ripas
  have told := Rec.getReg_ripasChanged (((c.mem recW.toNat).asRec).emulated (s.core.mem runW.toNat).words)
    (s.core.mem runW.toNat).words (by rw [ripas]; exact asked)
  rw [ripas] at told
  refine ⟨_, log.trans (congrArg _ ?_), ?_⟩
  · rw [core]
    exact settles.log
  · rw [core, Core.mem_setContent_same]
    exact told

/-- A realm asks for its first page to be empty. -/
def RealmStep.emptiesFirst : RealmStep :=
  .call fun i => if i = 0 then BitVec.ofNat 64 Rsi.ipaStateSetCmd else if i = 2 then 0x1000 else 0

end Islet.Rmm
