import Islet.Rmm.Attestation

/-! Accesses that the host emulates. The abort of an access that the host may emulate is
remembered until the REC runs again; REC_ENTER completes the access before that, once,
and refuses the answer to any other exit. -/

namespace Islet.Rmm

open Lib Prog Bits Rmi Stage2Translation

variable [Platform] {c₀ c : Core} {cmd : Command} {s t u v : Machine} {r p o : Nat} {rd : Rd} {rc : Rec}
  {step : RealmStep} {h : Option RealmStep} {err' : Halt → Machine → Prop}

/-! ### What a load leaves in its register -/

namespace EsrEl2

/-- The access is a load into a register. -/
def Loads (esr : Word) : Prop := getMaskedValue esr wnr = 0 ∧ (getMaskedValue esr srt).toNat ≠ 31

instance (esr : Word) : Decidable (Loads esr) := by
  unfold Loads
  infer_instance

def accessBits (esr : Word) : Nat := 8 * 2 ^ (getMaskedValue esr sas).toNat

def registerBits (esr : Word) : Nat := if getMaskedValue esr sf = 0 then 32 else 64

/-- The value of a load: as much of it as is accessed, extended to the size of the register. -/
def extended (esr value : Word) : Word :=
  let data := value.setWidth (accessBits esr)
  (if getMaskedValue esr sse = 0 then data.setWidth (registerBits esr)
    else data.signExtend (registerBits esr)).setWidth 64

/-- The accesses that `emulate_mmio` completes as it should: the sign is not to be extended, and the value fits into
the register. -/
def Supported (esr value : Word) : Prop :=
  Loads esr → getMaskedValue esr sse = 0 ∧
    ((getMaskedValue esr sas).toNat = 3 → getMaskedValue esr sf = 0 → value.toNat < 2 ^ 32)

omit [Platform]

theorem sas_lt (esr : Word) : (getMaskedValue esr sas).toNat < 4 := by
  rw [sas, toNat_getMaskedValue_defineMask _ (by omega) (by omega)]
  exact Nat.mod_lt _ (by decide)

theorem sas_cases (esr : Word) : (getMaskedValue esr sas).toNat = 0 ∨ (getMaskedValue esr sas).toNat = 1 ∨
    (getMaskedValue esr sas).toNat = 2 ∨ (getMaskedValue esr sas).toNat = 3 := by
  have := sas_lt esr
  omega

theorem toNat_and_accessSizeMask (esr value : Word) :
    (value &&& accessSizeMask esr).toNat = value.toNat % 2 ^ accessBits esr := by
  unfold accessSizeMask accessBits
  rw [BitVec.toNat_and]
  rcases sas_cases esr with size | size | size | size
  all_goals rw [size]
  · exact Nat.and_two_pow_sub_one_eq_mod value.toNat 8
  · exact Nat.and_two_pow_sub_one_eq_mod value.toNat 16
  · exact Nat.and_two_pow_sub_one_eq_mod value.toNat 32
  · exact Nat.and_two_pow_sub_one_eq_mod value.toNat 64

/-- Without extension of the sign, the masked value is right if it fits. -/
theorem and_accessSizeMask_iff {esr : Word} (plain : getMaskedValue esr sse = 0) (value : Word) :
    value &&& accessSizeMask esr = extended esr value ↔
      ((getMaskedValue esr sas).toNat = 3 → getMaskedValue esr sf = 0 → value.toNat < 2 ^ 32) := by
  have fits := value.isLt
  rw [← BitVec.toNat_inj, toNat_and_accessSizeMask]
  unfold extended
  dsimp only
  rw [if_pos plain, BitVec.toNat_setWidth, BitVec.toNat_setWidth, BitVec.toNat_setWidth]
  unfold accessBits registerBits
  by_cases narrow : getMaskedValue esr sf = 0
  all_goals
    rcases sas_cases esr with size | size | size | size
    all_goals
      simp only [size, narrow, if_true, if_false, Nat.reduceMul, Nat.reducePow, true_implies, false_implies, iff_true]
      omega

end EsrEl2

/-! ### The abort that is to be answered -/

/-- The registers of the realm, without those of EL2 and of its interrupts. -/
def Context.own (context : Context) : Context :=
  { context with vmpidr := 0, vttbr := 0, sveEn := false, gicState := Context.new.gicState }

/-- What an abort leaves for the next entry. -/
def Rec.paused (rc : Rec) : RecEmulatableAbort × Bool × Context := (rc.emulatableAbort, rc.runnable, rc.context.own)

/-- The exit is an abort of an access that the host may emulate. -/
def Machine.LetsEmulate (u : Machine) (r : Nat) (step : RealmStep) : Prop :=
  step.IsAbort ∧ ∃ o rd, (u.core.mem r).asRec.owner = some o ∧ u.core.realm? o = some rd ∧ u.core.Emulatable rd step

/-- REC_ENTER goes back to the host, in `t`, with the exit `step` that the REC has come to in `u`. -/
def Machine.LeavesWith (s : Machine) (recW runW : Word) (step : RealmStep) (u t : Machine) : Prop :=
  ∃ before result v, s.Exits recW runW before step u ∧
    (handleRealmExit (granuleAddrToIndex recW.toNat) step).run u = (result, v) ∧ (∀ ret, result ≠ .ok (false, ret)) ∧
    s.exec (.recEnter recW runW (before ++ [step])) = some t

/-- All runs in which RECs are few, with the last exit of the REC at `r` if it is an abort that the host may emulate
and the REC has not run since. -/
inductive Machine.Awaits (r : Nat) : Machine → Option RealmStep → Prop where
  | initial {s : Machine} (start : s.Initial) : Awaits r s none
  | command {s t : Machine} {h} (awaits : Awaits r s h) (cmd : Command)
    (few : ∀ u, s.Succeeds cmd u → FewRecs s.core cmd) (returned : s.exec cmd = some t) (other : ¬EntersRec cmd r)
    (stays : s.core.Has r .recCtx ∧ t.core.Has r .recCtx) : Awaits r t h
  /-- There was no REC before the command, or there is none any more. -/
  | absent {s t : Machine} {h} (awaits : Awaits r s h) (cmd : Command)
    (few : ∀ u, s.Succeeds cmd u → FewRecs s.core cmd) (returned : s.exec cmd = some t) (other : ¬EntersRec cmd r)
    (changes : ¬(s.core.Has r .recCtx ∧ t.core.Has r .recCtx)) : Awaits r t none
  | hostWrite {s : Machine} {h} (awaits : Awaits r s h) (addr : Nat) (page : Page) (valid : validateAddr addr)
    (outside : s.core.gptOf addr ≠ .realm) : Awaits r (s.hostWrite addr page) h
  | refused {s t : Machine} {h recW runW script} (awaits : Awaits r s h) (isRec : recW.toNat = r)
    (never : ∀ step u, ¬s.Exits recW runW [] step u) (returned : s.exec (.recEnter recW runW script) = some t) :
    Awaits r t h
  | shown {s u t : Machine} {h recW runW step} (awaits : Awaits r s h) (isRec : recW.toNat = r)
    (leaves : s.LeavesWith recW runW step u t) (lets : u.LetsEmulate r step) : Awaits r t (some step)
  | left {s u t : Machine} {h recW runW step} (awaits : Awaits r s h) (isRec : recW.toNat = r)
    (leaves : s.LeavesWith recW runW step u t) (hides : ¬u.LetsEmulate r step) : Awaits r t none

/-! #### A REC that is not entered -/

/-- A REC that waits for the host to emulate an access is not changed by any other command. -/
theorem Moves.paused (moves : Moves c₀ cmd c₀ c) (inv : c₀.Inv) (other : ¬EntersRec cmd r) (has : c₀.Has r .recCtx)
    (one : (c₀.mem r).asRec.OneRequest) (abort : (c₀.mem r).asRec.emulatableAbort = .emulatableAbort)
    (runnable : (c₀.mem r).asRec.runnable = true) (after : c.stateOf r = .recCtx) :
    (c.mem r).asRec = (c₀.mem r).asRec := by
  refine moves.invariant (P := fun c => c.stateOf r = .recCtx → (c.mem r).asRec = (c₀.mem r).asRec) inv (fun _ => rfl)
    ?_ after
  intro c c' inv' before move after
  cases (move.effect inv').recMove has.1 after with
  | kept state same _ =>
    rw [same]
    exact before state
  | step state step _ after _ =>
    rw [after, Content.asRec_recCtx, ← before state]
    have same := before state
    rw [← same] at one abort runnable
    cases step with
    | progress addr _ low high =>
      have zero : ¬0 < (c.mem r).asRec.ripas.endAddr := fun asked => nomatch (one.ripas asked).symm.trans abort
      omega
    | answered _ completes =>
      have pending := completes.pending
      rw [← same] at pending
      exact nomatch (one.psci pending).2.2.symm.trans abort
    | started _ completes =>
      obtain ⟨_, _, _, _, _, _, run⟩ := completes.completed
      rw [← same] at run
      rcases (completePsci?_spec run).started with rfl | ⟨_, idle, _⟩
      · rfl
      · exact nomatch idle.symm.trans runnable
    | _ enters => exact absurd enters other
  | enter _ enters _ _ _ => exact absurd enters other
  | created start _ state _ _ _ _ _ _ =>
    rw [start] at state
    exact nomatch state.symm.trans has.2

/-- A REC that has been created by the command has not aborted. -/
theorem Moves.createdFresh (moves : Moves c₀ cmd c₀ c) (inv : c₀.Inv) (other : ¬EntersRec cmd r)
    (none : ¬c₀.Has r .recCtx) (has : c.Has r .recCtx) :
    (c.mem r).asRec.emulatableAbort = .notEmulatableAbort := by
  refine moves.invariant (P := fun c => c.stateOf r = .recCtx → (c.mem r).asRec.emulatableAbort = .notEmulatableAbort)
    inv (fun state => absurd ⟨has.1, state⟩ none) ?_ has.2
  intro c c' inv' before move after
  cases (move.effect inv').recMove has.1 after with
  | kept state same _ =>
    rw [same]
    exact before state
  | step state step _ after _ =>
    rw [after]
    exact (step.unentered other).abort.trans (before state)
  | enter _ enters _ _ _ => exact absurd enters other
  | created _ _ _ after _ clear _ _ _ =>
    rw [after]
    exact clear.abort

/-! #### The exit -/

omit [Platform] in
theorem Rec.apart_emulatableAbort : Rec.Apart Rec.emulatableAbort :=
  ⟨fun _ _ => rfl, fun _ _ => rfl, fun _ _ => rfl, fun _ _ => rfl, fun _ _ => rfl, fun _ _ => rfl⟩

section Exit

variable {recW runW : Word} {before : List RealmStep} {result : Except Halt (Bool × Nat)} (inv : s.core.Inv)
  (exits : s.Exits recW runW before step u)
include inv exits

theorem Machine.Exits.exited : ∃ rc : Rec, (u.core.mem recW.toNat).asRec = rc.exited step := by
  obtain ⟨t, _, rd, _, varies⟩ := exits.vary inv
  cases exits.unique (varies step)
  refine ⟨(t.core.mem recW.toNat).asRec, ?_⟩
  change ((Core.setContent _ recW.toNat _).mem recW.toNat).asRec = _
  rw [Core.mem_setContent_same, Content.asRec_recCtx]

variable (handled : (handleRealmExit (granuleAddrToIndex recW.toNat) step).run u = (result, v))
include handled

/-- An abort that the host may emulate is remembered. -/
theorem Machine.Exits.shown_paused (lets : u.LetsEmulate recW.toNat step) (fresh : ¬StaleHostCall s.core
    (.recEnter recW runW (before ++ [step]))) :
    RecIs Rec.paused recW.toNat (.emulatableAbort, true, step.context.own) v := by
  obtain ⟨o, atExit⟩ : ∃ o, AtExit (.recEnter recW runW (before ++ [step])) s.start recW.toNat o step u :=
    exits.atExit inv fun _ => List.mem_append_left _
  obtain ⟨rd, serving⟩ := atExit.serving inv
  obtain ⟨abort, o', rd', owner, realm, slot, level, walked, shows⟩ := lets
  cases serving.owner.symm.trans owner
  cases serving.realm.symm.trans realm
  obtain ⟨rc, content⟩ := exits.exited inv
  have free : (u.core.mem recW.toNat).asRec.Free := atExit.flags.resolve_left fresh
  have spec : wp (handleRealmExit (granuleAddrToIndex recW.toNat) step)
      (fun _ v => RecIs Rec.paused recW.toNat (.emulatableAbort, true, step.context.own) v) (fun _ _ => False) u := by
    refine serving.wp_reports abort (fun none _ => ?_) (fun slot' last walked' hides => ?_) fun _ _ _ _ => ⟨serving.has.2, ?_⟩
    · exact absurd none (rootSlot?_of_walk walked)
    · cases walked.symm.trans walked'
      exact nomatch shows.symm.trans hides
    · unfold Machine.noted
      dsimp only
      rw [Core.mem_setContent_same, Content.asRec_recCtx, Rec.paused]
      dsimp only
      rw [free.runnable, content]
      rfl
  unfold Prog.wp at spec
  rw [handled] at spec
  cases result with
  | ok _ => exact spec
  | error _ => exact spec.elim

/-- After any other exit there is nothing to remember. -/
theorem Machine.Exits.left_calm (hides : ¬u.LetsEmulate recW.toNat step) (leaves : ∀ ret, result ≠ .ok (false, ret))
    (returned : s.exec (.recEnter recW runW (before ++ [step])) = some t) :
    RecIs Rec.emulatableAbort recW.toNat .notEmulatableAbort v := by
  obtain ⟨o, atExit⟩ := exits.atExit inv fun _ => id
  obtain ⟨rd, serving⟩ := atExit.serving inv
  obtain ⟨rc, content⟩ := exits.exited inv
  have calm : RecIs Rec.emulatableAbort recW.toNat .notEmulatableAbort u := by
    refine ⟨serving.has.2, ?_⟩
    rw [content]
    rfl
  have noPanic := exits.noPanic handled returned
  have post : ∀ {P : Machine → Prop}, wp (handleRealmExit (granuleAddrToIndex recW.toNat) step)
      (fun ret v => ret.1 = true → P v) (fun halt v => halt ≠ .panic → P v) u → P v := by
    intro P spec
    unfold Prog.wp at spec
    rw [handled] at spec
    rcases result with halt | ⟨_ | _, ret⟩
    · exact spec fun panic => noPanic (congrArg _ panic)
    · exact absurd rfl (leaves ret)
    · exact spec rfl
  refine post ?_
  by_cases abort : step.IsAbort
  · refine serving.wp_reports abort (fun _ _ panics => absurd rfl panics) (fun _ _ _ _ _ => ⟨serving.has.2, ?_⟩)
      fun slot level walked shows => ?_
    · unfold Machine.noted
      dsimp only
      rw [Core.mem_setContent_same, Content.asRec_recCtx]
    · exact absurd ⟨abort, o, rd, serving.owner, serving.realm, slot, level, walked, shows⟩ hides
  by_cases token : step.AsksToken
  · obtain ⟨isRsi, init | more⟩ := token
    · exact serving.wp_tokenInit isRsi atExit.registers init fun _ _ _ => nofun
    · have spec : wp _ (fun (ret : Bool × Nat) (v : Machine) => ret.1 = true →
          RecIs Rec.emulatableAbort recW.toNat .notEmulatableAbort v) _ _ :=
        serving.wp_tokenContinue isRsi atExit.registers more (fun _ _ _ => nofun) (fun _ _ => calm)
          fun _ _ _ _ _ _ _ _ _ _ _ => nofun
      exact wp_mono spec (fun _ _ => id) fun _ _ panics other => absurd panics.1 other
  · exact wp_mono (serving.handleRealmExit_keeps calm Rec.apart_emulatableAbort token fun isAbort => absurd isAbort abort)
      (fun _ _ kept _ => kept) fun _ _ kept _ => kept

end Exit

/-- What the machine keeps of the abort. -/
def Machine.Remembers (r : Nat) (s : Machine) : Option RealmStep → Prop
  | none => s.core.Has r .recCtx → (s.core.mem r).asRec.emulatableAbort = .notEmulatableAbort
  | some step => validateAddr r = true ∧ RecIs Rec.paused r (.emulatableAbort, true, step.context.own) s

/-- A REC that waits for the host has asked for nothing else. -/
theorem Machine.ReachableFew.oneRequest (reached : s.ReachableFew) (has : s.core.Has r .recCtx) :
    (s.core.mem r).asRec.OneRequest := by
  obtain ⟨_, _, _, _, orderly⟩ := reached.inOrder.orderly has
  exact orderly.toOneRequest

theorem Machine.Remembers.moves (reached : s.ReachableFew) (remembers : s.Remembers r h)
    (moves : Moves s.core cmd s.core t.core) (other : ¬EntersRec cmd r) (has : s.core.Has r .recCtx)
    (stays : t.core.Has r .recCtx) : t.Remembers r h := by
  have inv := reached.reachable.inv
  cases h with
  | none => exact fun _ => (moves.unentered inv other has stays.2).abort.trans (remembers has)
  | some step =>
    obtain ⟨valid, state, paused⟩ := remembers
    refine ⟨valid, stays.2, ?_⟩
    rw [moves.paused inv other has (reached.oneRequest has) (congrArg Prod.fst paused) (congrArg (·.2.1) paused) stays.2]
    exact paused

theorem Machine.Awaits.remembers (awaits : s.Awaits r h) : s.ReachableFew ∧ s.Remembers r h := by
  induction awaits with
  | initial start => exact ⟨.initial start, fun has => nomatch (start.stateOf _).symm.trans has.2⟩
  | command _ cmd few returned other stays ih =>
    obtain ⟨reached, remembers⟩ := ih
    exact ⟨.command reached cmd few returned, remembers.moves reached (Machine.exec_moves reached.reachable.inv returned)
      other stays.1 stays.2⟩
  | absent _ cmd few returned other changes ih =>
    obtain ⟨reached, _⟩ := ih
    have inv := reached.reachable.inv
    refine ⟨.command reached cmd few returned, fun has => ?_⟩
    exact (Machine.exec_moves inv returned).createdFresh inv other (fun before => changes ⟨before, has⟩) has
  | @hostWrite s _ _ addr page valid outside ih =>
    obtain ⟨reached, remembers⟩ := ih
    have inv := reached.reachable.inv
    refine ⟨.hostWrite reached addr page valid outside, ?_⟩
    have moves : Moves s.core .unregistered s.core (s.hostWrite addr page).core :=
      .single (Move.hostWrite inv valid outside page)
    by_cases has : s.core.Has r .recCtx
    · exact remembers.moves reached moves id has has
    · rename_i h _
      cases h with
      | none => exact fun after => absurd after has
      | some step => exact absurd ⟨remembers.1, remembers.2.1⟩ has
  | @refused s t h recW runW script _ isRec never returned ih =>
    obtain ⟨reached, remembers⟩ := ih
    have inv := reached.reachable.inv
    subst isRec
    refine ⟨.command reached _ (fun _ _ _ => False.elim) returned, ?_⟩
    cases h with
    | none =>
      intro has
      by_cases before : s.core.Has recW.toNat .recCtx
      · exact (Machine.rejected_recIs Rec.apart_emulatableAbort inv ⟨before.2, remembers before⟩ never returned).2
      · rcases Machine.rejected_core inv never returned with same | ⟨_, _, can, _⟩
        · rw [same] at has
          exact absurd has before
        · exact absurd can.has before
    | some step =>
      obtain ⟨valid, state, paused⟩ := remembers
      refine ⟨valid, ?_⟩
      rcases Machine.rejected_core inv never returned with same | ⟨_, _, _, _, settles⟩
      · exact RecIs.of_eq ⟨state, paused⟩ same
      · -- it has not called the host
        have one := reached.oneRequest ⟨valid, state⟩
        have quiet : (s.core.mem recW.toNat).asRec.hostCallPending = false := Bool.eq_false_iff.mpr fun pending =>
          nomatch (one.host pending).2.symm.trans (congrArg Prod.fst paused)
        refine ⟨(settles.stateOf _).trans state, ?_⟩
        rw [settles.of_quiet quiet, Core.mem_setContent_same]
        exact paused
  | @shown s u t h recW runW step _ isRec leaves lets ih =>
    obtain ⟨reached, _⟩ := ih
    have inv := reached.reachable.inv
    subst isRec
    obtain ⟨before, result, v, exits, handled, back, returned⟩ := leaves
    obtain ⟨_, _, can⟩ := exits.enterable inv
    refine ⟨.command reached _ (fun _ _ _ => False.elim) returned, can.has.1, ?_⟩
    exact exits.left_recIs inv handled (fun _ _ => rfl)
      (exits.shown_paused inv handled lets (reached.inOrder.fresh _)) back returned
  | @left s u t h recW runW step _ isRec leaves hides ih =>
    obtain ⟨reached, _⟩ := ih
    have inv := reached.reachable.inv
    subst isRec
    obtain ⟨before, result, v, exits, handled, back, returned⟩ := leaves
    refine ⟨.command reached _ (fun _ _ _ => False.elim) returned, fun _ => ?_⟩
    exact (exits.left_recIs inv handled (fun _ _ => rfl) (exits.left_calm inv handled hides back returned) back returned).2

/-! ### The next entry -/

/-- The registers of the realm after the access at which it has stopped. -/
def RealmStep.resumed (step : RealmStep) (value : Word) : Context :=
  { step.context.own with
    gpRegs := if EsrEl2.Loads step.context.esrEl2 then
        Function.update step.context.gpRegs (getMaskedValue step.context.esrEl2 EsrEl2.srt).toNat
          (EsrEl2.extended step.context.esrEl2 value)
      else step.context.gpRegs
    elr := step.context.elr + 4 }

/-- REC_ENTER comes to run the realm, with the registers it has after the access. -/
def Machine.ResumesAfter (s : Machine) (recW runW : Word) (step : RealmStep) (value : Word) : Prop :=
  ∃ t, (recEnterBegins recW.toNat runW.toNat).run s.start = (.ok (granuleAddrToIndex recW.toNat), t) ∧
    (t.core.mem recW.toNat).asRec.context.own = step.resumed value

/-- REC_ENTER fails before the realm runs. -/
def Machine.RefusesEntry (s : Machine) (recW runW : Word) : Prop :=
  ∃ e t, (recEnterBegins recW.toNat runW.toNat).run s.start = (.error (.error e), t)

omit [Platform] in
/-- What `emulate_mmio` leaves, with the masked value for the extended one. -/
theorem Rec.own_emulated {run : Page} (flag : Run.entryFlags run &&& 1 ≠ 0) (same : rc.context.own = step.context.own) :
    (rc.emulated run).context.own = { step.context.own with
      gpRegs := if EsrEl2.Loads step.context.esrEl2 then
          Function.update step.context.gpRegs (getMaskedValue step.context.esrEl2 EsrEl2.srt).toNat
            (Run.entryGpr run 0 &&& EsrEl2.accessSizeMask step.context.esrEl2)
        else step.context.gpRegs
      elr := step.context.elr + 4 } := by
  have esr : rc.context.esrEl2 = step.context.esrEl2 := (congrArg Context.esrEl2 same :)
  have registers : rc.context.gpRegs = step.context.gpRegs := (congrArg Context.gpRegs same :)
  have elr : rc.context.elr = step.context.elr := (congrArg Context.elr same :)
  rw [Rec.emulated, if_neg flag, ← same, ← esr, ← registers, ← elr]
  by_cases loads : EsrEl2.Loads rc.context.esrEl2
  · have general : (getMaskedValue rc.context.esrEl2 EsrEl2.srt).toNat ≤ 30 := by
      have small : (getMaskedValue rc.context.esrEl2 EsrEl2.srt).toNat < 32 := by
        rw [EsrEl2.srt, toNat_getMaskedValue_defineMask _ (by omega) (by omega)]
        exact Nat.mod_lt _ (by decide)
      have := loads.2
      omega
    have loaded : rc.loaded run = _ := if_pos loads
    rw [loaded, if_pos loads, Rec.setReg, if_pos general]
    rfl
  · have stored : rc.loaded run = rc := if_neg loads
    rw [stored, if_neg loads]
    rfl

section Entry

variable {recW runW : Word} (can : s.core.Enterable recW.toNat runW.toNat o rd) (inv : s.core.Inv)
  (flag : Run.entryFlags (s.core.mem runW.toNat).words &&& 1 ≠ 0)
include can inv

theorem Core.Enterable.wp_begins {ok : Nat → Machine → Prop}
    (next : ∀ t : Machine, t.core = s.core → t.held = [granuleAddrToIndex recW.toNat] →
      t.run = (s.core.mem runW.toNat).words → Kept s.core (.recEnter recW runW []) s.start t →
      wp (recEnterCompletes (granuleAddrToIndex recW.toNat) (s.core.mem recW.toNat).asRec (s.core.mem runW.toNat).words)
        (fun _ => ok (granuleAddrToIndex recW.toNat)) err' t) :
    wp (recEnterBegins recW.toNat runW.toNat) ok err' s.start := by
  unfold recEnterBegins
  rw [wp_bind]
  refine wp_mono (recEnterChecks_spec (s := s.start) recW runW [] inv rfl rfl rfl rfl) ?_
    fun _ _ failed => absurd can (failed.1 o rd)
  rintro _ _ ⟨_, rfl, pt, safe, rfl⟩
  dsimp only
  rw [wp_bind]
  exact next _ rfl rfl rfl ⟨.refl, .of_eq rfl, safe⟩

include flag

/-- An answer that the REC does not wait for. -/
theorem Core.Enterable.refusesEntry (calm : (s.core.mem recW.toNat).asRec.emulatableAbort = .notEmulatableAbort) :
    s.RefusesEntry recW runW := by
  have rejected : (s.core.mem recW.toNat).asRec.MmioRejected (s.core.mem runW.toNat).words :=
    ⟨flag, .inr (by rw [calm]; exact nofun)⟩
  have spec : wp (recEnterBegins recW.toNat runW.toNat) (fun _ _ => False) (fun halt _ => ∃ e, halt = .error e) s.start := by
    refine can.wp_begins inv fun t core held run kept => ?_
    have enters : EntersRec (.recEnter recW runW []) recW.toNat := rfl
    exact wp_recEnterCompletes (s := s.start) inv enters can kept core held run (fun _ _ _ => ⟨_, rfl⟩)
      (fun _ _ _ _ => ⟨_, rfl⟩) (fun _ accepted => absurd rejected accepted) fun _ _ _ accepted => absurd rejected accepted
  obtain ⟨_, t, failed, e, rfl⟩ := stops_of_wp spec
  exact ⟨e, t, failed⟩

/-- REC_ENTER with an emulated access. -/
theorem Core.Enterable.wp_emulates (abort : (s.core.mem recW.toNat).asRec.emulatableAbort = .emulatableAbort)
    (data : getMaskedValue (s.core.mem recW.toNat).asRec.context.esrEl2 EsrEl2.ec = EsrEl2.ecDataAbort)
    (quiet : (s.core.mem recW.toNat).asRec.hostCallPending = false)
    (unasked : (s.core.mem recW.toNat).asRec.ripas.endAddr = 0) :
    wp (recEnterBegins recW.toNat runW.toNat) (fun g t => g = granuleAddrToIndex recW.toNat ∧
      ¬EsrEl2.SignExtends (s.core.mem recW.toNat).asRec.context.esrEl2 ∧ (t.core.mem recW.toNat).asRec =
        (Gic.receiveStateFromHost (s.core.mem recW.toNat).asRec (s.core.mem runW.toNat).words).emulated
          (s.core.mem runW.toNat).words)
      (fun _ _ => EsrEl2.SignExtends (s.core.mem recW.toNat).asRec.context.esrEl2) s.start := by
  have accepted : ¬(s.core.mem recW.toNat).asRec.MmioRejected (s.core.mem runW.toNat).words := by
    rintro ⟨_, other | other⟩
    · exact other data
    · exact other abort
  refine can.wp_begins inv fun t core held run kept => ?_
  have enters : EntersRec (.recEnter recW runW []) recW.toNat := rfl
  refine wp_recEnterCompletes (s := s.start) inv enters can kept core held run (fun pending _ _ => ?_)
    (fun _ _ _ rejected => absurd rejected accepted) (fun _ _ signs _ => signs) fun c ret settles _ plain => ⟨rfl, plain flag, ?_⟩
  · exact nomatch quiet.symm.trans pending
  · dsimp only
    rw [Core.mem_setContent_same, Content.asRec_recCtx, settles.of_quiet quiet, Core.mem_setContent_same,
      Content.asRec_recCtx]
    refine if_neg ?_
    rw [Rec.ripas_emulated]
    exact Nat.not_lt.mpr (Nat.le_of_eq unasked)

end Entry

/-- A REC that awaits the emulation of a data abort is resumed after it, if the access is supported. -/
theorem Machine.Awaits.resumesAfter_iff {recW runW : Word} (awaits : s.Awaits recW.toNat (some step))
    (can : s.core.Enterable recW.toNat runW.toNat o rd)
    (flag : Run.entryFlags (s.core.mem runW.toNat).words &&& 1 ≠ 0)
    (data : getMaskedValue step.context.esrEl2 EsrEl2.ec = EsrEl2.ecDataAbort) :
    s.ResumesAfter recW runW step (Run.entryGpr (s.core.mem runW.toNat).words 0) ↔
      EsrEl2.Supported step.context.esrEl2 (Run.entryGpr (s.core.mem runW.toNat).words 0) := by
  obtain ⟨reached, _, _, paused⟩ := awaits.remembers
  have inv := reached.reachable.inv
  have abort : (s.core.mem recW.toNat).asRec.emulatableAbort = .emulatableAbort := congrArg Prod.fst paused
  have own : (s.core.mem recW.toNat).asRec.context.own = step.context.own := congrArg (·.2.2) paused
  have esr : (s.core.mem recW.toNat).asRec.context.esrEl2 = step.context.esrEl2 := (congrArg Context.esrEl2 own :)
  have one := reached.oneRequest can.has
  have quiet : (s.core.mem recW.toNat).asRec.hostCallPending = false := Bool.eq_false_iff.mpr fun pending =>
    nomatch (one.host pending).2.symm.trans abort
  have unasked : (s.core.mem recW.toNat).asRec.ripas.endAddr = 0 := Nat.eq_zero_of_not_pos fun asked =>
    nomatch (one.ripas asked).symm.trans abort
  have received : (Gic.receiveStateFromHost (s.core.mem recW.toNat).asRec
      (s.core.mem runW.toNat).words).context.own = step.context.own := own
  have spec := can.wp_emulates inv flag abort (by rw [esr]; exact data) quiet unasked
  rw [esr] at spec
  constructor
  · rintro ⟨t, begins, resumed⟩ loads
    obtain ⟨_, plain, content⟩ := wp_ok spec begins
    rw [content, Rec.own_emulated flag received] at resumed
    have unsigned : getMaskedValue step.context.esrEl2 EsrEl2.sse = 0 := by
      by_contra signed
      exact plain ⟨loads, signed⟩
    refine ⟨unsigned, (EsrEl2.and_accessSizeMask_iff unsigned _).mp ?_⟩
    have registers := congrFun (congrArg Context.gpRegs resumed) (getMaskedValue step.context.esrEl2 EsrEl2.srt).toNat
    unfold RealmStep.resumed at registers
    dsimp only at registers
    rw [if_pos loads, if_pos loads, Function.update_self, Function.update_self] at registers
    exact registers
  · intro supported
    have plain : ¬EsrEl2.SignExtends step.context.esrEl2 := fun signs => signs.2 (supported signs.1).1
    obtain ⟨_, t, begins, rfl, _, content⟩ := returns_of_wp (wp_mono spec (fun _ _ => id) fun _ _ => plain)
    refine ⟨t, begins, ?_⟩
    rw [content, Rec.own_emulated flag received, RealmStep.resumed]
    by_cases loads : EsrEl2.Loads step.context.esrEl2
    · obtain ⟨unsigned, fits⟩ := supported loads
      rw [if_pos loads, if_pos loads, (EsrEl2.and_accessSizeMask_iff unsigned _).mpr fits]
    · rw [if_neg loads, if_neg loads]

/-- In every run in which RECs are few: if a REC awaits the emulation of a data abort, REC_ENTER that says that it is
done resumes the realm after the access, with its registers as the access leaves them, exactly if the access is
supported. If it does not await one, REC_ENTER is refused. -/
theorem Machine.Awaits.mmio_emulated {recW runW : Word} (awaits : s.Awaits recW.toNat h)
    (can : s.core.Enterable recW.toNat runW.toNat o rd)
    (flag : Run.entryFlags (s.core.mem runW.toNat).words &&& 1 ≠ 0) :
    (h = none → s.RefusesEntry recW runW) ∧
    ∀ step, h = some step → getMaskedValue step.context.esrEl2 EsrEl2.ec = EsrEl2.ecDataAbort →
      (s.ResumesAfter recW runW step (Run.entryGpr (s.core.mem runW.toNat).words 0) ↔
        EsrEl2.Supported step.context.esrEl2 (Run.entryGpr (s.core.mem runW.toNat).words 0)) := by
  refine ⟨?_, ?_⟩
  · rintro rfl
    obtain ⟨reached, calm⟩ := awaits.remembers
    exact can.refusesEntry reached.reachable.inv flag (calm can.has)
  · rintro step rfl data
    exact awaits.resumesAfter_iff can flag data

/-! ### A load -/

theorem Machine.ReachableVia.awaitsNone (reached : s.ReachableVia Prepares) : s.Awaits r none := by
  induction reached with
  | initial start => exact .initial start
  | @command s t before cmd meets returned ih =>
    have inv := before.reachable.inv
    obtain ⟨created, few⟩ := before.prepared
    have creates : CreatesFew s cmd := fun _ returned _ _ realm =>
      Machine.exec_fewCreated inv returned (fun before => few before) meets.2 realm
    have few := creates.few inv fun realm => created.few.indexed realm
    by_cases stays : s.core.Has r .recCtx ∧ t.core.Has r .recCtx
    · exact .command ih cmd few returned (meets.1 r) stays
    · exact .absent ih cmd few returned (meets.1 r) stays
  | hostWrite _ addr page valid outside ih => exact .hostWrite ih addr page valid outside

/-- The realm reads at the IPA 0, with this syndrome. -/
def RealmStep.reads (esr : Word) : RealmStep := ⟨[], { Context.new with esrEl2 := esr }, 0x20, esr, 0, 0⟩

/-- The host has read the value. -/
def Run.answers (value : Word) : Page := Run.set (Run.set .zero 0 1) 64 value

/-- The test of it. -/
def Core.emulates (c : Core) (rd : Rd) (step : RealmStep) : Bool :=
  match rd.tables.walk c step.faultIpa 3 false with
  | .found slot _ => !rd.hidesEntry step.faultIpa step.esr (pte c slot)
  | _ => false

theorem Core.emulatable_of_emulates {c : Core} (emulates : c.emulates rd step = true) : c.Emulatable rd step := by
  unfold Core.emulates at emulates
  split at emulates
  · rename_i slot last walked
    exact ⟨slot, last, walked, by simpa using emulates⟩
  · exact nomatch emulates

/-- A realm has read at the IPA 0, where it has a page. -/
def Sample.reads (esr : Word) : Command :=
  .recEnter (BitVec.ofNat 64 (bankAt 5)) (BitVec.ofNat 64 hostPage) [.reads esr]

/-- The host has answered. -/
def Sample.answered (esr : Word) : Machine := (staffed.next (Sample.reads esr)).hostWrite hostPage (Run.answers 5)

theorem Sample.answered_awaits (esr : Word)
    (out : staffed.getsOut (BitVec.ofNat 64 (bankAt 5)) (BitVec.ofNat 64 hostPage) (.reads esr) = true)
    (shown : let u := staffed.firstExit (BitVec.ofNat 64 (bankAt 5)) (BitVec.ofNat 64 hostPage) (.reads esr)
      ((handleRealmExit (granuleAddrToIndex (BitVec.ofNat 64 (bankAt 5)).toNat) (.reads esr)).run u).1 =
        .ok (true, Rsi.rmiSuccess) ∧
      (u.core.mem (BitVec.ofNat 64 (bankAt 5)).toNat).asRec.owner = some (bankAt 0) ∧
      (u.core.realm? (bankAt 0)).any (fun rd => u.core.emulates rd (.reads esr)) = true)
    (returns : (staffed.exec (Sample.reads esr)).isSome = true)
    (outside : (staffed.next (Sample.reads esr)).core.gptOf hostPage ≠ .realm) :
    (Sample.answered esr).Awaits (BitVec.ofNat 64 (bankAt 5)).toNat (some (.reads esr)) := by
  obtain ⟨known, owner, emulates⟩ := shown
  obtain ⟨rd, realm, emulates⟩ := (Option.any_eq_true _ _).mp emulates
  have abort : (RealmStep.reads esr).IsAbort := by
    change (0x20 : Word).toNat % 16 = 0 ∧ (0x20 : Word).toNat / 16 % 16 = 2
    decide
  refine .hostWrite (.shown staffed_via.awaitsNone rfl ⟨[], _, _, Machine.exits_firstExit out, run_of_result known, ?_,
    Machine.exec_next returns⟩ ⟨abort, bankAt 0, rd, owner, realm, Core.emulatable_of_emulates emulates⟩) hostPage
    (Run.answers 5) (by decide) outside
  exact fun _ same => nomatch congrArg Prod.fst (Except.ok.inj same)

/-- What REC_ENTER reads of it. -/
def Core.enters (c : Core) (r p o : Nat) : Bool :=
  c.Has r .recCtx ∧ c.Has p .undelegated ∧ Run.verifyCompliance (c.mem p).words ∧ (c.mem r).asRec.owner = some o ∧
    (c.mem r).asRec.runnable ∧ (c.mem r).asRec.state ≠ .running ∧ (c.mem r).asRec.psciPending = false ∧
    Gic.validateState (c.mem p).words ∧ (c.realm? o).any (·.state = .active)

theorem Core.exists_enterable {c : Core} {r p o : Nat} (enters : c.enters r p o = true) : ∃ rd, c.Enterable r p o rd := by
  obtain ⟨has, host, compliant, owner, runnable, ready, psci, gic, active⟩ := of_decide_eq_true enters
  obtain ⟨rd, realm, active⟩ := (Option.any_eq_true _ _).mp active
  exact ⟨rd, has, host, compliant, owner, realm, of_decide_eq_true active, runnable, ready, psci, gic⟩

omit [Platform] in
/-- A data abort of a load of a word into the register 0. -/
def EsrEl2.loadsWord : Word := 0x92000000 ||| EsrEl2.isv ||| (2#64 <<< 22)

open Sample in
omit [Platform] in
/-- The host has read 5 for the realm. -/
theorem mmio_emulated_word : ∃ _ : Platform, ∃ (s : Machine) (recW runW : Word) (step : RealmStep),
    s.Awaits recW.toNat (some step) ∧ s.ResumesAfter recW runW step 5 := by
  let s := answered EsrEl2.loadsWord
  have awaits := answered_awaits EsrEl2.loadsWord (by decide +kernel) (by decide +kernel) (by decide +kernel)
    (by decide +kernel)
  obtain ⟨rd, can⟩ := Core.exists_enterable (c := s.core) (r := (BitVec.ofNat 64 (bankAt 5)).toNat)
    (p := (BitVec.ofNat 64 hostPage).toNat) (o := bankAt 0) (by decide +kernel)
  have both := awaits.mmio_emulated can (by decide +kernel)
  rw [show Run.entryGpr (s.core.mem (BitVec.ofNat 64 hostPage).toNat).words 0 = 5 by decide +kernel] at both
  exact ⟨platform, s, _, _, _, awaits, (both.2 _ rfl (by decide)).mpr fun _ => ⟨by decide, by decide⟩⟩

open Sample in
omit [Platform] in
/-- A load that extends the sign cannot be completed: the monitor panics. -/
theorem mmio_unemulated : ∃ _ : Platform, ∃ (s : Machine) (recW runW : Word) (step : RealmStep) (o : Nat) (rd : Rd),
    s.Awaits recW.toNat (some step) ∧ getMaskedValue step.context.esrEl2 EsrEl2.ec = EsrEl2.ecDataAbort ∧
    s.core.Enterable recW.toNat runW.toNat o rd ∧ Run.entryFlags (s.core.mem runW.toNat).words &&& 1 ≠ 0 ∧
    ¬s.ResumesAfter recW runW step (Run.entryGpr (s.core.mem runW.toNat).words 0) := by
  let s := answered (EsrEl2.loadsWord ||| EsrEl2.sse)
  have awaits := answered_awaits (EsrEl2.loadsWord ||| EsrEl2.sse) (by decide +kernel) (by decide +kernel)
    (by decide +kernel) (by decide +kernel)
  obtain ⟨rd, can⟩ := Core.exists_enterable (c := s.core) (r := (BitVec.ofNat 64 (bankAt 5)).toNat)
    (p := (BitVec.ofNat 64 hostPage).toNat) (o := bankAt 0) (by decide +kernel)
  have flag : Run.entryFlags (s.core.mem (BitVec.ofNat 64 hostPage).toNat).words &&& 1 ≠ 0 := by decide +kernel
  refine ⟨platform, s, _, _, _, _, rd, awaits, by decide, can, flag, fun resumes => ?_⟩
  have supported := (awaits.resumesAfter_iff can flag (by decide)).mp resumes
  exact absurd (supported (by decide)).1 (by decide)

end Islet.Rmm
