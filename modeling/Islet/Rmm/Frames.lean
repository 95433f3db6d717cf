import Islet.Rmm.Calls
import Islet.Rmm.Image

/-! What the calls of a realm leave alone. A field of a REC that is neither one of its
registers nor a request to the host is kept by all calls but those that are about it,
and by REC_ENTER before the first run and after the last exit. -/

namespace Islet.Rmm

open Lib Prog Bits Rmi Stage2Translation

variable [Platform] {cmd : Command} {s t u v w : Machine} {r o : Nat} {rd : Rd} {rc rc' : Rec} {step : RealmStep}
  {err' : Halt → Machine → Prop} {β : Type} {f : Rec → β} {x : β}

/-! ### Calls -/

/-- The granule is a REC, and `x` is what `f` reads of it. -/
def RecIs (f : Rec → β) (r : Nat) (x : β) (s : Machine) : Prop :=
  s.core.stateOf r = .recCtx ∧ f (s.core.mem r).asRec = x

/-- What `f` reads of a REC is not changed with its registers and requests. -/
structure Rec.Apart (f : Rec → β) : Prop where
  context : ∀ (rc : Rec) (context : Context), f { rc with context := context } = f rc
  runnable : ∀ (rc : Rec) (value : Bool), f { rc with runnable := value } = f rc
  psciPending : ∀ (rc : Rec) (value : Bool), f { rc with psciPending := value } = f rc
  hostCallPending : ∀ (rc : Rec) (value : Bool), f { rc with hostCallPending := value } = f rc
  ripas : ∀ (rc : Rec) (value : Ripas), f { rc with ripas := value } = f rc
  state : ∀ (rc : Rec) (value : RecState), f { rc with state := value } = f rc

namespace Rec.Apart

omit [Platform]

variable (apart : Rec.Apart f)
include apart

theorem besidesContext (same : rc.SameBesidesContext rc') : f rc' = f rc := by
  obtain ⟨context, rfl⟩ := same
  exact apart.context rc context

theorem setReg (rc : Rec) (i : Nat) (value : Word) : f (rc.setReg i value) = f rc :=
  apart.besidesContext (Rec.SameBesidesRegs.setReg rc i value).besidesContext

theorem foldl_setReg {α : Type} {register : α → Nat} {value : α → Word} (list : List α) (rc : Rec) :
    f (list.foldl (fun rc x => rc.setReg (register x) (value x)) rc) = f rc :=
  apart.besidesContext (Rec.SameBesidesRegs.foldl_setReg register value list rc).besidesContext

end Rec.Apart

namespace RecIs

variable {α : Type}

theorem of_eq (held : RecIs f r x s) (core : t.core = s.core) : RecIs f r x t := by
  unfold RecIs
  rwa [core]

theorem of_core {m : RmmM α} (same : ∀ s, wp m (fun _ t => t.core = s.core) (fun _ t => t.core = s.core) s) :
    Keeps (RecIs f r x) m :=
  fun s held => wp_mono (same s) (fun _ _ core => held.of_eq core) fun _ _ core => held.of_eq core

theorem getGranuleIf (addr : Nat) (state : GranuleState) : Keeps (RecIs f r x) (getGranuleIf addr state) :=
  of_core fun _ => wp_getGranuleIf (fun _ _ => rfl) (fun _ _ => rfl) fun _ _ _ => rfl

theorem recOwner (rc : Rec) : Keeps (RecIs f r x) (recOwner rc) := by
  refine of_core fun s => ?_
  unfold Rmi.recOwner
  split <;> rfl

theorem ownerRd (g : Nat) : Keeps (RecIs f r x) (Rsi.ownerRd g) :=
  .bind (fun _ => id) fun _ => .bind (recOwner _) fun _ => .bind (getGranuleIf _ _) fun _ => .bind (fun _ => id) fun _ =>
    .pure _

theorem of_quiet {m : RmmM α} (quiet : Quiet m) : Keeps (RecIs f r x) m :=
  fun _ held => quiet.wp (fun _ => held) fun _ _ => held

theorem modifyRun (change : Page → Page) : Keeps (RecIs f r x) (modifyRun change) := fun _ => id

theorem emit (event : Event) : Keeps (RecIs f r x) (Rmi.emit event) := fun _ => id

theorem exitToHost (cmd : Nat) (arg : Option Word) : Keeps (RecIs f r x) (Rsi.exitToHost cmd arg) := fun _ => id

section Rec

variable (valid : validateAddr r = true)
include valid

theorem modifyRec {g : Rec → Rec} (same : ∀ rc : Rec, f (g rc) = f rc) :
    Keeps (RecIs f r x) (modifyRec (granuleAddrToIndex r) g) := by
  intro s held
  refine (wp_modifyRec valid).mpr ⟨held.1, ?_⟩
  rw [Core.mem_setContent_same, Content.asRec_recCtx, same]
  exact held.2

variable (apart : Rec.Apart f)
include apart

theorem answer (code : Word) : Keeps (RecIs f r x) (Rsi.answer (granuleAddrToIndex r) code) :=
  .bind (modifyRec valid fun rc => apart.setReg rc _ _) fun _ => .pure _

theorem features : Keeps (RecIs f r x) (Rsi.features (granuleAddrToIndex r)) :=
  .bind (modifyRec valid fun rc => by rw [apart.setReg, apart.setReg]) fun _ => .pure _

theorem abiVersion : Keeps (RecIs f r x) (Rsi.abiVersion (granuleAddrToIndex r)) :=
  .bind (fun _ => id) fun _ => .ite (answer valid apart _) <|
    .bind (modifyRec valid fun rc => by rw [apart.setReg, apart.setReg, apart.setReg]) fun _ => .pure _

theorem measurementRead : Keeps (RecIs f r x) (Rsi.measurementRead (granuleAddrToIndex r)) :=
  .bind (ownerRd _) fun _ => .bind (fun _ => id) fun _ => .ite (answer valid apart _) <|
    .bind (modifyRec valid fun rc => by rw [apart.foldl_setReg, apart.setReg]) fun _ => .pure _

theorem setRipasState : Keeps (RecIs f r x) (Rsi.setRipasState (granuleAddrToIndex r)) :=
  .bind (fun _ => id) fun _ => .ite (answer valid apart _) <| .bind (ownerRd _) fun _ => .ite (answer valid apart _) <|
    .bind (modifyRun _) fun _ => .bind (modifyRec valid fun rc => apart.ripas rc _) fun _ => .pure _

theorem getRipasState : Keeps (RecIs f r x) (Rsi.getRipasState (granuleAddrToIndex r)) :=
  .bind (ownerRd _) fun _ => .bind (fun _ => id) fun _ => .ite (answer valid apart _) <| .bind (of_quiet (.getRipas _ _ _)) fun _ =>
    .bind (modifyRec valid fun rc => by rw [apart.setReg, apart.setReg]) fun _ => .pure _

omit valid apart in
theorem realmSealingKey (rd : Rd) (flags svn : Word) : Keeps (RecIs f r x) (Rsi.realmSealingKey rd flags svn) := by
  have input : ∀ value : Option (Nat → Word), Keeps (RecIs f r x) (orInput value) := fun value =>
    of_core fun _ => wp_orInput (fun _ => rfl) fun _ _ => rfl
  refine .bracket (fun _ _ => id) ?_
  dsimp only
  split
  · refine .bind (.bracket (fun _ _ => id) (.bind (getGranuleIf _ _) fun _ => .bind (fun _ => id) fun _ => ?_)) fun _ =>
      input _
    exact .bind (of_quiet (.errIf _ _)) fun _ => .pure _
  · exact .bind (.pure _) fun _ => input _

theorem isletRealmSealingKey : Keeps (RecIs f r x) (Rsi.isletRealmSealingKey (granuleAddrToIndex r)) := by
  refine .bind (fun _ => id) fun _ => .bind (ownerRd _) fun _ => .bind (.attempt (realmSealingKey _ _ _)) fun key => ?_
  cases key with
  | error _ => exact answer valid apart _
  | ok key => exact .bind (modifyRec valid fun rc => apart.foldl_setReg _ rc) fun _ => answer valid apart _

theorem psciCpuOn : Keeps (RecIs f r x) (Rsi.psciCpuOn (granuleAddrToIndex r)) :=
  .bind (ownerRd _) fun _ => .bind (fun _ => id) fun _ => .ite (answer valid apart _) <| .ite (answer valid apart _) <|
    .ite (answer valid apart _) <| .bind (modifyRec valid fun rc => apart.psciPending rc _) fun _ => .bind (emit _) fun _ => exitToHost _ _

theorem psciCpuOff : Keeps (RecIs f r x) (Rsi.psciCpuOff (granuleAddrToIndex r)) :=
  .bind (modifyRec valid fun rc => apart.runnable rc _) fun _ => exitToHost _ _

theorem psciAffinityInfo : Keeps (RecIs f r x) (Rsi.psciAffinityInfo (granuleAddrToIndex r)) :=
  .bind (fun _ => id) fun _ => .ite (answer valid apart _) <| .ite (answer valid apart _) <|
    .bind (modifyRec valid fun rc => apart.psciPending rc _) fun _ => exitToHost _ _

omit apart in
theorem handleDataAbort (aborts : ∀ (rc : Rec) value, f { rc with emulatableAbort := value } = f rc) :
    Keeps (RecIs f r x) (Rmi.handleDataAbort (granuleAddrToIndex r) step) := by
  refine .bracket (fun _ _ => id) (.bind (ownerRd _) fun _ => .bind (modifyRun _) fun _ =>
    .bind (of_quiet (.isNonEmulatableDataAbort _ _ _)) fun hidden => ?_)
  refine .ite ?_ ?_
  · exact .bind (modifyRec valid fun rc => aborts rc _) fun _ => .bind (modifyRun _) fun _ => .pure _
  · refine .bind (fun _ => id) fun _ => .ite ?_ ?_
    · exact .bind (modifyRun _) fun _ => .bind (modifyRec valid fun rc => aborts rc _) fun _ => .bind (modifyRun _) fun _ => .pure _
    · exact .bind (modifyRec valid fun rc => aborts rc _) fun _ => .bind (modifyRun _) fun _ => .pure _

end Rec
end RecIs

section Others

variable (serving : Serving t r o rd) (held : RecIs f r x t)
include held

/-- Another granule is written. -/
theorem RecIs.setContent {y : Nat} (other : y ≠ r) (content : Content) (locks : List Nat) :
    RecIs f r x { t with core := t.core.setContent y content, held := locks } := by
  refine ⟨held.1, ?_⟩
  rw [Core.mem_setContent_of_ne _ (Ne.symm other)]
  exact held.2

variable (apart : Rec.Apart f)
include serving apart

theorem Serving.measurementExtend_keeps : wp (Rsi.measurementExtend (granuleAddrToIndex r)) (fun _ => RecIs f r x)
    (fun _ => RecIs f r x) t := by
  have valid := serving.has.1
  unfold Rsi.measurementExtend
  refine serving.wp_ownerRd ?_
  dsimp only
  rw [wp_bind, wp_contentRec]
  refine wp_if (fun _ => RecIs.answer valid apart _ _ held) fun _ => ?_
  rw [wp_bind]
  refine wp_ofExcept (fun _ _ => held) fun measured _ => ?_
  rw [wp_bind, wp_setRd, indexToAddr_granuleAddrToIndex (Core.realm?_eq_some.mp serving.realm).1, wp_bind, wp_emit]
  exact RecIs.answer valid apart _ _ (held.setContent serving.owner_ne (.rd measured) [granuleAddrToIndex o, granuleAddrToIndex r])

omit apart in
theorem Serving.psciSystemOff_keeps (command : Nat) : wp (Rsi.psciSystemOff command (granuleAddrToIndex r))
    (fun _ => RecIs f r x) (fun _ => RecIs f r x) t := by
  unfold Rsi.psciSystemOff
  refine serving.wp_ownerRd ?_
  dsimp only
  rw [wp_bind, wp_setRd, indexToAddr_granuleAddrToIndex (Core.realm?_eq_some.mp serving.realm).1]
  exact RecIs.exitToHost _ _ _ (held.setContent serving.owner_ne _ _)

theorem Serving.realmConfig_keeps : wp (Rsi.realmConfig (granuleAddrToIndex r)) (fun _ => RecIs f r x)
    (fun _ => RecIs f r x) t := by
  have valid := serving.has.1
  unfold Rsi.realmConfig
  rw [wp_bind, wp_contentRec, wp_bind, indexToAddr_granuleAddrToIndex valid]
  refine wp_recOwner serving.owner ?_
  rw [wp_bind, wp_getCore]
  refine serving.wp_ownerRd ?_
  dsimp only
  refine wp_if (fun _ => RecIs.answer valid apart _ _ held) fun accepted => ?_
  have inPar : rd.addrInPar ((t.core.mem r).asRec.getReg 1).toNat = true := by
    simp only [validateIpa, Bool.not_eq_true', Bool.not_eq_false, Bool.and_eq_true] at accepted
    exact accepted.1.2
  rw [wp_bind]
  refine wp_ipaToPa (a := o) serving.realm serving.inv inPar (fun _ => ?_) fun pa _ isData => ?_
  · rw [wp_bind]
    exact held
  rw [wp_bind, orInput, wp_pure, wp_bind, wp_contentPage, wp_bind, wp_setPage]
  refine RecIs.answer valid apart _ _ (held.setContent ?_ _ _)
  rintro rfl
  cases isData.symm.trans held.1

theorem Serving.doHostCall_keeps : wp (Rsi.doHostCall (granuleAddrToIndex r)) (fun _ => RecIs f r x)
    (fun _ => RecIs f r x) t := by
  have reply : ∀ code, f ((t.core.mem r).asRec.setReg 0 code) = x := fun code => (apart.setReg _ _ _).trans held.2
  refine wp_doHostCall serving.inRec serving.inv serving.has.1 serving.held (fun _ _ _ => ⟨held.1, ?_⟩) (fun _ _ _ _ => held)
    (fun _ _ _ _ _ _ _ => ⟨held.1, ?_⟩) fun _ _ _ _ _ _ => ⟨held.1, ?_⟩
  · rw [Core.mem_setContent_same]
    exact reply _
  · rw [Core.mem_setContent_same]
    exact (apart.hostCallPending _ _).trans (reply Rsi.success)
  · rw [Core.mem_setContent_same]
    exact (apart.hostCallPending _ _).trans held.2

/-- Numbers of the calls for a token. -/
abbrev Rsi.attestTokenInitCmd : Nat := 0xc4000194

/-- All calls but those for a token. -/
theorem Serving.handler_keeps {command : Nat} {handler : RmmM Nat} (init : command ≠ Rsi.attestTokenInitCmd)
    (other : command ≠ Rsi.attestTokenContinueCmd)
    (found : Rsi.handler? command (granuleAddrToIndex r) = some handler) :
    wp handler (fun _ => RecIs f r x) (fun _ => RecIs f r x) t := by
  have valid := serving.has.1
  unfold Rsi.handler? at found
  obtain ⟨rfl, rfl⟩ | found := some_of_ite found
  · exact RecIs.abiVersion valid apart t held
  obtain ⟨rfl, rfl⟩ | found := some_of_ite found
  · exact RecIs.features valid apart t held
  obtain ⟨rfl, rfl⟩ | found := some_of_ite found
  · exact RecIs.measurementRead valid apart t held
  obtain ⟨rfl, rfl⟩ | found := some_of_ite found
  · exact serving.measurementExtend_keeps held apart
  obtain ⟨rfl, rfl⟩ | found := some_of_ite found
  · exact absurd rfl init
  obtain ⟨rfl, rfl⟩ | found := some_of_ite found
  · exact absurd rfl other
  obtain ⟨rfl, rfl⟩ | found := some_of_ite found
  · exact serving.realmConfig_keeps held apart
  obtain ⟨rfl, rfl⟩ | found := some_of_ite found
  · exact RecIs.setRipasState valid apart t held
  obtain ⟨rfl, rfl⟩ | found := some_of_ite found
  · exact RecIs.getRipasState valid apart t held
  obtain ⟨rfl, rfl⟩ | found := some_of_ite found
  · exact serving.doHostCall_keeps held apart
  obtain ⟨rfl, rfl⟩ | found := some_of_ite found
  · exact RecIs.isletRealmSealingKey valid apart t held
  obtain ⟨rfl, rfl⟩ | found := some_of_ite found
  · exact RecIs.answer valid apart _ t held
  obtain ⟨rfl, rfl⟩ | found := some_of_ite found
  · exact RecIs.exitToHost _ _ t held
  obtain ⟨rfl, rfl⟩ | found := some_of_ite found
  · exact RecIs.psciCpuOff valid apart t held
  obtain ⟨rfl, rfl⟩ | found := some_of_ite found
  · exact RecIs.psciCpuOn valid apart t held
  obtain ⟨rfl, rfl⟩ | found := some_of_ite found
  · exact RecIs.psciAffinityInfo valid apart t held
  obtain ⟨rfl, rfl⟩ | found := some_of_ite found
  · exact serving.psciSystemOff_keeps held _
  obtain ⟨rfl, rfl⟩ | found := some_of_ite found
  · exact serving.psciSystemOff_keeps held _
  obtain ⟨rfl, rfl⟩ | found := some_of_ite found
  · exact Keeps.bind (fun _ => id) (fun _ => RecIs.answer valid apart _) t held
  obtain ⟨rfl, rfl⟩ | found := some_of_ite found
  · exact RecIs.answer valid apart _ t held
  exact nomatch found

/-- The realm asks for a token or for a part of one. -/
def RealmStep.AsksToken (step : RealmStep) : Prop :=
  step.IsRsi ∧ ((step.context.gpRegs 0).toNat = Rsi.attestTokenInitCmd ∨
    (step.context.gpRegs 0).toNat = Rsi.attestTokenContinueCmd)

theorem Serving.handleRealmExit_keeps (other : ¬step.AsksToken)
    (aborts : step.IsAbort → ∀ (rc : Rec) value, f { rc with emulatableAbort := value } = f rc) : wp (Rmi.handleRealmExit (granuleAddrToIndex r) step)
    (fun _ => RecIs f r x) (fun _ => RecIs f r x) t := by
  have valid := serving.has.1
  by_cases isRsi : step.IsRsi
  · cases found : Rsi.handler? (step.context.gpRegs 0).toNat (granuleAddrToIndex r) with
    | none =>
      unfold Rmi.handleRealmExit
      dsimp only
      refine wp_if (fun _ => ?_) fun other => absurd isRsi other
      unfold Rsi.handleRsi
      rw [found, wp_bind, wp_bind]
      exact RecIs.modifyRec valid (fun rc => apart.setReg rc _ _) t held
    | some handler =>
      refine wp_callsHandler isRsi found (wp_mono (serving.handler_keeps held apart (fun same => other ⟨isRsi, .inl same⟩)
        (fun same => other ⟨isRsi, .inr same⟩) found) (fun _ _ => id) fun halt u held => ?_)
      cases halt <;> exact held
  · unfold Rmi.handleRealmExit
    dsimp only
    refine wp_if (fun here => absurd here isRsi) fun _ => wp_if (fun isAbort => ?_) fun _ => wp_if (fun _ => held) fun _ =>
      wp_if (fun _ => held) fun _ => held
    exact Keeps.bind (RecIs.handleDataAbort valid (aborts isAbort)) (fun _ => .pure _) t held

end Others

/-! ### REC_ENTER -/

theorem Settles.stateOf {c c' : Core} {page : Page} (settles : Settles c r rd page c') (y : Nat) :
    c'.stateOf y = c.stateOf y := by
  cases settles <;> rfl

/-- Without a pending host call only the interrupts of the host are taken over. -/
theorem Settles.of_quiet {c c' : Core} {page : Page} (settles : Settles c r rd page c')
    (quiet : (c.mem r).asRec.hostCallPending = false) :
    c' = c.setContent r (.recCtx (Gic.receiveStateFromHost (c.mem r).asRec page)) := by
  cases settles with
  | idle => rfl
  | refused pending => exact nomatch quiet.symm.trans pending
  | answered pending => exact nomatch quiet.symm.trans pending

section Entry

variable (apart : Rec.Apart f)
include apart

omit [Platform] in
theorem Rec.Apart.completed (rc : Rec) (run : Page) : f ((rc.emulated run).ripasChanged run) = f rc := by
  have emulated : f (rc.emulated run) = f rc := by
    unfold Rec.emulated Rec.loaded Rec.stepOver
    split
    · rfl
    · refine (apart.context _ _).trans ?_
      dsimp only
      split
      · exact apart.setReg _ _ _
      · rfl
  rw [← emulated, Rec.ripasChanged]
  split
  · refine (apart.ripas _ _).trans ?_
    rw [apart.setReg, apart.setReg, apart.setReg]
  · rfl

theorem Settles.reads {c c' : Core} {page : Page} (settles : Settles c r rd page c') :
    f (c'.mem r).asRec = f (c.mem r).asRec := by
  have received : ∀ rc : Rec, f (Gic.receiveStateFromHost rc page) = f rc := fun rc => apart.context rc _
  cases settles with
  | idle => rw [Core.mem_setContent_same, Content.asRec_recCtx, received]
  | refused => rw [Core.mem_setContent_same, Content.asRec_recCtx, received, apart.setReg]
  | answered =>
    rw [Core.mem_setContent_same, Content.asRec_recCtx, received]
    exact (apart.hostCallPending _ _).trans (apart.setReg _ _ _)

theorem Begun.recIs {p : Nat} (begun : Begun s r p o rd t) (held : RecIs f r x s) : RecIs f r x t := by
  obtain ⟨c, settles, core⟩ := begun.core
  refine ⟨?_, ?_⟩
  · rw [core]
    exact (settles.stateOf r).trans held.1
  · rw [core, Core.mem_setContent_same, Content.asRec_recCtx, apart.completed, settles.reads apart]
    exact held.2

end Entry

theorem recEnterRun_rec (work : InRec cmd s r o Rec.Idle t) (inv : s.core.Inv) (valid : validateAddr r = true)
    (locked : t.held = [granuleAddrToIndex r]) (runs : (recEnterRun (granuleAddrToIndex r) step).run t = (.ok (), u)) :
    u.core.stateOf r = .recCtx ∧ (u.core.mem r).asRec = (t.core.mem r).asRec.exited step := by
  obtain ⟨free, _, _⟩ := wp_ok (recEnterRun_spec inv valid work locked) runs
  obtain ⟨rd, _, stops⟩ := recEnterRun_vary work inv valid locked runs
  have eq : u = t.stopped r rd step := congrArg Prod.snd (runs.symm.trans (stops step))
  refine ⟨free.state, ?_⟩
  rw [eq]
  change ((Core.setContent _ r _).mem r).asRec = _
  rw [Core.mem_setContent_same, Content.asRec_recCtx]

theorem Machine.exec_core (returned : s.exec cmd = some t) :
    ∃ result u, s.handle cmd = (result, u) ∧ (∀ halt, result = .error halt → ∃ e, halt = .error e) ∧ t.core = u.core := by
  rcases Machine.exec_eq_some.mp returned with done | ⟨e, u, stopped, rfl⟩
  · exact ⟨_, t, done, nofun, rfl⟩
  · refine ⟨_, u, stopped, ?_, rfl⟩
    rintro halt same
    cases same
    exact ⟨e, rfl⟩

/-- A REC that is not entered after all: nothing has changed, or the host has answered an abort that is not its to
emulate. -/
theorem Machine.rejected_core {recW runW : Word} {script : List RealmStep} (inv : s.core.Inv)
    (never : ∀ step u, ¬s.Exits recW runW [] step u) (returned : s.exec (.recEnter recW runW script) = some t) :
    t.core = s.core ∨ ∃ o rd, s.core.Enterable recW.toNat runW.toNat o rd ∧
      (s.core.mem recW.toNat).asRec.MmioRejected (s.core.mem runW.toNat).words ∧
      Settles s.core recW.toNat rd (s.core.mem runW.toNat).words t.core := by
  obtain ⟨result, u, handle, noPanic, core⟩ := Machine.exec_core returned
  rw [core]
  have spec := recEnterBegins_spec (s := s.start) recW runW script inv rfl rfl rfl rfl
  change (recEnter _ _ _).run s.start = _ at handle
  rw [recEnter_eq_begins] at handle
  cases last : (recEnterBegins recW.toNat runW.toNat).run s.start with
  | mk outcome w =>
    cases outcome with
    | ok g =>
      obtain ⟨rfl, o, rd, begun, work⟩ := wp_ok spec last
      rcases begun.runs inv work script with runs | ⟨w', panics⟩
      · obtain ⟨u, runs⟩ := runs (.irq (s.core.mem 0).asRec.context)
        exact absurd (.first last runs) (never _ u)
      · rw [bind_run_of_ok last, bind_run_of_error panics] at handle
        cases handle
        obtain ⟨_, wrong⟩ := noPanic _ rfl
        exact nomatch wrong
    | error halt =>
      rw [bind_run_of_error last] at handle
      cases handle
      rcases wp_error spec last with ⟨rfl, _⟩ | ⟨same, _⟩ | ⟨_, o, rd, can, rejected, settles⟩
      · obtain ⟨_, wrong⟩ := noPanic _ rfl
        exact nomatch wrong
      · exact .inl same
      · exact .inr ⟨o, rd, can, rejected, settles⟩

theorem Machine.rejected_recIs {recW runW : Word} {script : List RealmStep} (apart : Rec.Apart f) (inv : s.core.Inv)
    (held : RecIs f recW.toNat x s) (never : ∀ step u, ¬s.Exits recW runW [] step u)
    (returned : s.exec (.recEnter recW runW script) = some t) : RecIs f recW.toNat x t := by
  rcases Machine.rejected_core inv never returned with same | ⟨_, _, _, _, settles⟩
  · exact held.of_eq same
  · exact ⟨(settles.stateOf _).trans held.1, (settles.reads apart).trans held.2⟩

section Exits

variable {recW runW : Word} {before : List RealmStep} {result : Except Halt (Bool × Nat)} (inv : s.core.Inv)
  (exits : s.Exits recW runW before step u)
  (handled : (handleRealmExit (granuleAddrToIndex recW.toNat) step).run u = (result, v))
include inv exits handled

/-- The realm is resumed, and comes to its next exit. -/
theorem Machine.Exits.resumes_rec {step' : RealmStep} {ret : Nat} (resumed : result = .ok (false, ret))
    (resumes : (recEnterResumes (granuleAddrToIndex recW.toNat) step').run v = (.ok (), w)) :
    w.core.stateOf recW.toNat = .recCtx ∧ (w.core.mem recW.toNat).asRec =
      ({ (v.core.mem recW.toNat).asRec with state := .ready } : Rec).exited step' := by
  subst resumed
  replace inv : s.start.core.Inv := inv
  obtain ⟨o, atExit⟩ : ∃ o, AtExit (.recEnter recW runW (before ++ [step])) s.start recW.toNat o step u :=
    exits.atExit inv fun _ => List.mem_append_left _
  have valid := atExit.valid
  obtain ⟨_, locked, stays⟩ := wp_ok (handleRealmExit_spec atExit.toInRec inv valid atExit.held atExit.registers
    fun isRsi => ⟨step, List.mem_append_right _ (List.mem_singleton.mpr rfl), isRsi, rfl⟩) handled
  have work := (stays rfl).setReady valid
  have ready : (modifyRec (granuleAddrToIndex recW.toNat) fun r => { r with state := .ready }).run v = (.ok (), { v with
      core := v.core.setContent recW.toNat (.recCtx { (v.core.mem recW.toNat).asRec with state := .ready }) }) :=
    run_of_wp ((wp_modifyRec valid).mpr ⟨rfl, rfl⟩)
  rw [recEnterResumes, bind_run_of_ok ready] at resumes
  obtain ⟨state, content⟩ := recEnterRun_rec work inv valid (locked.trans atExit.held) resumes
  rw [Core.mem_setContent_same, Content.asRec_recCtx] at content
  exact ⟨state, content⟩

omit inv in
/-- A command that has returned has not panicked. -/
theorem Machine.Exits.noPanic (returned : s.exec (.recEnter recW runW (before ++ [step])) = some t) :
    result ≠ .error .panic := by
  rintro rfl
  obtain ⟨_, _, handle, noPanic, _⟩ := Machine.exec_core returned
  rw [exits.handle, recEnterRest, bind_run_of_error handled] at handle
  cases handle
  obtain ⟨_, wrong⟩ := noPanic _ rfl
  cases wrong

/-- REC_ENTER goes back to the host, which changes the state of the REC at most. -/
theorem Machine.Exits.left_recIs (state : ∀ (rc : Rec) value, f { rc with state := value } = f rc)
    (held : RecIs f recW.toNat x v) (leaves : ∀ ret, result ≠ .ok (false, ret))
    (returned : s.exec (.recEnter recW runW (before ++ [step])) = some t) : RecIs f recW.toNat x t := by
  obtain ⟨final, y, handle, noPanic, core⟩ := Machine.exec_core returned
  refine RecIs.of_eq ?_ core
  rcases result with halt | ⟨leave, ret⟩
  · rw [exits.handle, recEnterRest, bind_run_of_error handled] at handle
    cases handle
    exact held
  cases leave with
  | false => exact absurd rfl (leaves ret)
  | true =>
    obtain ⟨_, _, can⟩ := exits.enterable inv
    obtain ⟨o, atExit⟩ : ∃ o, AtExit (.recEnter recW runW (before ++ [step])) s.start recW.toNat o step u :=
      exits.atExit inv fun _ => List.mem_append_left _
    obtain ⟨_, locked, _⟩ := wp_ok (handleRealmExit_spec atExit.toInRec inv atExit.valid atExit.held atExit.registers
      fun isRsi => ⟨step, List.mem_append_right _ (List.mem_singleton.mpr rfl), isRsi, rfl⟩) handled
    rw [exits.ends handled] at handle
    have ready : RecIs f recW.toNat x { v with
        core := v.core.setContent recW.toNat (.recCtx { (v.core.mem recW.toNat).asRec with state := .ready }) } := by
      refine ⟨held.1, ?_⟩
      rw [Core.mem_setContent_same, Content.asRec_recCtx, state]
      exact held.2
    have spec : wp (do
        modifyRec (granuleAddrToIndex recW.toNat) fun r => { r with state := .ready }
        recEnterReturns (granuleAddrToIndex recW.toNat) runW.toNat ret : RmmM Unit)
        (fun _ => RecIs f recW.toNat x) (fun _ => RecIs f recW.toNat x) v := by
      rw [wp_bind, wp_modifyRec can.has.1]
      refine wp_recEnterReturns can.has.1 can.host.1 can.other (locked.trans atExit.held)
        (fun _ _ _ same _ _ => ready.of_eq same) fun _ pt _ => ⟨held.1, ?_⟩
      change f ((Core.setContent _ runW.toNat _).mem recW.toNat).asRec = x
      rw [Core.mem_setContent_of_ne _ (Ne.symm can.other)]
      exact ready.2
    unfold Prog.wp at spec
    rw [handle] at spec
    cases final <;> exact spec

end Exits

end Islet.Rmm
