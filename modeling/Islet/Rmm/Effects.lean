import Islet.Rmm.Moves

/-! Moves as realm descriptors and RECs see them. Most moves are elsewhere: they
touch neither, and record nothing. What is left is told apart here once, and then
from the side of one realm and of one REC. -/

namespace Islet.Rmm

open Lib Bits Rmi Stage2Translation

variable [Platform] {c₀ c c' c'' : Core} {cmd : Command} {a r x : Nat}

/-! ### Elsewhere -/

/-- States of granules that are neither descriptors nor RECs nor metadata. -/
def Passive (state : GranuleState) : Prop := state ≠ .rd ∧ state ≠ .recCtx ∧ state ≠ .metadata

instance (state : GranuleState) : Decidable (Passive state) := inferInstanceAs (Decidable (_ ∧ _))

/-- Descriptors, RECs, metadata and the log are the same in both states. -/
structure Elsewhere (c c' : Core) : Prop where
  realms : ∀ b, c'.realm? b = c.realm? b
  states : ∀ b, validateAddr b = true → (c'.stateOf b = .recCtx ↔ c.stateOf b = .recCtx)
  recs : ∀ b, validateAddr b = true → c.stateOf b = .recCtx → c'.mem b = c.mem b
  metadata : ∀ b, validateAddr b = true → c.stateOf b = .metadata → c'.stateOf b = .metadata ∧ c'.mem b = c.mem b
  log : c'.log = c.log

namespace Elsewhere

theorem trans (first : Elsewhere c c') (second : Elsewhere c' c'') : Elsewhere c c'' := by
  refine ⟨fun b => (second.realms b).trans (first.realms b),
    fun b valid => (second.states b valid).trans (first.states b valid), fun b valid state => ?_,
    fun b valid state => ?_, second.log.trans first.log⟩
  · rw [second.recs b valid ((first.states b valid).mpr state), first.recs b valid state]
  · obtain ⟨same, mem⟩ := first.metadata b valid state
    obtain ⟨same', mem'⟩ := second.metadata b valid same
    exact ⟨same', mem'.trans mem⟩

theorem setContent {content : Content} (passive : Passive (c.stateOf x)) : Elsewhere c (c.setContent x content) := by
  refine ⟨realm?_setContent passive.1, fun _ _ => Iff.rfl, fun b _ state => ?_, fun b _ state => ⟨state, ?_⟩, rfl⟩
  · refine Core.mem_setContent_of_ne _ ?_
    rintro rfl
    exact passive.2.1 state
  · refine Core.mem_setContent_of_ne _ ?_
    rintro rfl
    exact passive.2.2 state

theorem setState {state : GranuleState} (valid : validateAddr x = true) (old : Passive (c.stateOf x))
    (new : Passive state) : Elsewhere c (setStateCore (granuleAddrToIndex x) state c) := by
  have other : ∀ {b}, c.stateOf b = .recCtx ∨ c.stateOf b = .metadata → b ≠ x := by
    rintro b used rfl
    rcases used with used | used
    · exact old.2.1 used
    · exact old.2.2 used
  refine ⟨realm?_setState valid old.1 new.1, fun b validB => ?_, fun b _ used => ?_, fun b validB used => ⟨?_, ?_⟩,
    Core.log_setStateCore _⟩
  · rw [stateOf_setState valid validB]
    split
    · rename_i same
      subst same
      exact iff_of_false new.2.1 old.2.1
    · exact Iff.rfl
  · exact Core.mem_setStateCore_of_ne _ valid (other (.inl used))
  · rw [stateOf_setState valid validB, if_neg (other (.inr used)), used]
  · exact Core.mem_setStateCore_of_ne _ valid (other (.inr used))

theorem setGpt {world : GranuleGpt} : Elsewhere c (c.setGpt x world) :=
  ⟨fun _ => rfl, fun _ _ => Iff.rfl, fun _ _ _ => rfl, fun _ _ state => ⟨state, rfl⟩, rfl⟩

end Elsewhere

/-! ### Everything else -/

/-- A move, with those that are elsewhere taken as one. -/
inductive Effect (c₀ : Core) (cmd : Command) (c c' : Core) : Prop where
  | elsewhere (same : Elsewhere c c')
  | setRd {a : Nat} {rd rd' : Rd} {events : List Event} (realm : c.realm? a = some rd) (step : RdStep c cmd a rd rd' events)
    (eq : c' = (c.setContent a (.rd rd')).emits events)
  | setRec {r : Nat} {rc' : Rec} {events : List Event} (valid : validateAddr r = true) (state : c.stateOf r = .recCtx)
    (step : RecStep c₀ c cmd r (c.mem r).asRec rc' events) (fixed : (c.mem r).asRec.Fixed rc')
    (eq : c' = (c.setContent r (.recCtx rc')).emits events)
  | enter {r : Nat} (enters : EntersRec cmd r) (valid : validateAddr r = true) (state : c.stateOf r = .recCtx)
    (clear : StaleHostCall c₀ cmd ∨ (c.mem r).asRec.Clear) (eq : c' = c.emits [.entered r (c.mem r).asRec])
  | newRealm {a : Nat} {rd : Rd} (start : c = c₀) (measures : cmd.Measures) (new : NewRealm c c' a rd)
  | endRealm {a : Nat} {rd : Rd} (ended : EndRealm c c' a rd)
  | newRec {a r : Nat} {rd : Rd} {rc : Rec} (start : c = c₀) (creates : CreatesRec cmd a) (new : NewRec c c' a r rd rc)
  | endRec {r o : Nat} (ended : EndRec c r o) (eq : c' = endRecCore c r o)
  | metadata {a m : Nat} {rd : Rd} {page : Page} (realm : c.realm? a = some rd) (isNew : rd.state = .new)
    (unset : rd.metadata = none)
    (valid : validateAddr m = true) (state : c.stateOf m = .delegated)
    (signed : Platform.verifySignature page = true) (accepted : (RealmMetadata.mk page).validate = true)
    (eq : c' = metadataCore c a m rd page)

theorem Move.effect (move : Move c₀ cmd c c') (inv : c.Inv) : Effect c₀ cmd c c' := by
  cases move with
  | write free =>
    refine .elsewhere (.setContent ?_)
    rcases free with state | state <;> rw [state] <;> decide
  | setRd realm step => exact .setRd realm step rfl
  | setRec valid state step fixed => exact .setRec valid state step fixed rfl
  | enter enters valid state clear => exact .enter enters valid state clear rfl
  | aux valid old new =>
    refine .elsewhere (.setState valid ?_ ?_)
    · rcases old with state | state <;> rw [state] <;> decide
    · rcases new with rfl | rfl <;> decide
  | handOver _ valid old new =>
    refine .elsewhere (Elsewhere.setGpt.trans (.setState valid ?_ ?_))
    · rcases old with state | state <;> exact state ▸ (by decide)
    · rcases new with ⟨rfl, _⟩ | ⟨rfl, _⟩ <;> decide
  | entry here _ _ _ _ _ =>
    refine .elsewhere (.setContent ?_)
    rw [(inv.tables.tables here.place).2]
    decide
  | addData here valid state _ _ _ _ _ =>
    refine .elsewhere (((Elsewhere.setContent ?_).trans (.setContent ?_)).trans (.setState valid ?_ (by decide)))
    · rw [state]
      decide
    · rw [Core.stateOf_setContent, (inv.tables.tables here.place).2]
      decide
    · exact state ▸ (by decide)
  | dropData here names _ _ _ _ =>
    obtain ⟨_, valid, state⟩ := here.backed inv names
    refine .elsewhere ((Elsewhere.setContent ?_).trans (.setState valid ?_ (by decide)))
    · rw [(inv.tables.tables here.place).2]
      decide
    · exact state ▸ (by decide)
  | dropTable place _ child _ _ _ _ _ =>
    obtain ⟨valid, state⟩ := inv.tables.tables child
    refine .elsewhere ((Elsewhere.setContent ?_).trans (.setState valid ?_ (by decide)))
    · rw [(inv.tables.tables place).2]
      decide
    · exact state ▸ (by decide)
  | split split =>
    refine .elsewhere (((Elsewhere.setContent ?_).trans (.setContent ?_)).trans (.setState split.valid ?_ (by decide)))
    · rw [split.state]
      decide
    · rw [Core.stateOf_setContent, (inv.tables.tables split.here.place).2]
      decide
    · exact split.state ▸ (by decide)
  | newRealm measures new => exact .newRealm rfl measures new
  | endRealm ended => exact .endRealm ended
  | newRec creates new => exact .newRec rfl creates new
  | endRec ended => exact .endRec ended rfl
  | metadata realm isNew unset valid state signed accepted =>
    exact .metadata realm isNew unset valid state signed accepted rfl
  | leaveData _ state _ =>
    refine .elsewhere (.setContent ?_)
    rw [state]
    decide

section

variable {m : Nat} {rd : Rd} {page : Page} (realm : c.realm? a = some rd) (valid : validateAddr m = true)
  (state : c.stateOf m = .delegated)

include realm state

theorem mem_metadataCore : (metadataCore c a m rd page).mem m = .raw page := by
  have other : m ≠ a := by
    rintro rfl
    exact nomatch state.symm.trans (Core.realm?_eq_some.mp realm).2.1
  rw [metadataCore, Core.mem_setContent_of_ne _ other, Core.mem_setStateCore_of_not_wipes]
  · exact Core.mem_setContent_same _
  · rw [show ((c.setContent m (.raw page)).granules (granuleAddrToIndex m)).state = .delegated from state]
    rfl

include valid

theorem realm?_metadataCore (b : Nat) :
    (metadataCore c a m rd page).realm? b = if b = a then some { rd with metadata := some m } else c.realm? b := by
  have notRd : c.stateOf m ≠ .rd := by
    rw [state]
    exact nofun
  have others : ∀ b, (setStateCore (granuleAddrToIndex m) .metadata (c.setContent m (.raw page))).realm? b =
      c.realm? b := by
    intro b
    rw [realm?_setState valid (show (c.setContent m (.raw page)).stateOf m ≠ .rd from notRd)
      (show GranuleState.metadata ≠ .rd from nofun), realm?_setContent notRd]
  rw [metadataCore, realm?_setRd ((others a).trans realm), others]

end

/-- A metadata granule keeps its content for as long as it is one. -/
theorem Effect.metadata_mem {m : Nat} (effect : Effect c₀ cmd c c') (valid : validateAddr m = true)
    (before : c.stateOf m = .metadata) (after : c'.stateOf m = .metadata) : c'.mem m = c.mem m := by
  have other : ∀ {b : Nat} {state : GranuleState}, c.stateOf b = state → state ≠ .metadata → m ≠ b := by
    rintro b state has differs rfl
    exact differs (has.symm.trans before)
  cases effect with
  | elsewhere same => exact (same.metadata m valid before).2
  | setRd realm _ eq =>
    subst eq
    exact Core.mem_setContent_of_ne _ (other (Core.realm?_eq_some.mp realm).2.1 nofun)
  | setRec _ state _ _ eq =>
    subst eq
    exact Core.mem_setContent_of_ne _ (other state nofun)
  | enter _ _ _ _ eq => rw [eq]; rfl
  | newRealm _ _ new =>
    obtain ⟨apart, root⟩ := new.used (b := m) (by rw [before]; exact nofun)
    exact new.mem m apart root
  | endRealm ended =>
    refine ended.mem m fun frees => ?_
    exact nomatch after.symm.trans (ended.freed m frees).1
  | newRec _ _ new =>
    exact new.mem m (other new.state nofun) (other (Core.realm?_eq_some.mp new.realm).2.1 nofun)
  | endRec ended eq =>
    subst eq
    exact ended.mem_other (other ended.state nofun)
  | @metadata a x rd page realm _ _ validX state _ _ eq =>
    subst eq
    rw [metadataCore, Core.mem_setContent_of_ne _ (other (Core.realm?_eq_some.mp realm).2.1 nofun),
      Core.mem_setStateCore_of_ne _ validX (other state nofun), Core.mem_setContent_of_ne _ (other state nofun)]

/-! ### One realm -/

/-- The parameters that the realm at `a` was created with, by the last event about that. -/
def paramsOf (a : Nat) : List Event → Option Page
  | [] => none
  | .created b page :: earlier => if b = a then some page else paramsOf a earlier
  | _ :: earlier => paramsOf a earlier

/-- The operations measured since then, the first one first. -/
def operationsOf (a : Nat) : List Event → List MeasuredOp
  | [] => []
  | .created b _ :: earlier => if b = a then [] else operationsOf a earlier
  | .measured b op :: earlier => if b = a then operationsOf a earlier ++ [op] else operationsOf a earlier
  | _ :: earlier => operationsOf a earlier

/-- The buffers that a slot has been extended by since then, the first one first. -/
def extensionsOf (a slot : Nat) : List Event → List (List Byte)
  | [] => []
  | .created b _ :: earlier => if b = a then [] else extensionsOf a slot earlier
  | .extended b i buffer :: earlier =>
    if b = a ∧ i = slot then extensionsOf a slot earlier ++ [buffer] else extensionsOf a slot earlier
  | _ :: earlier => extensionsOf a slot earlier

/-- The two logs say the same about the realm at `a`. -/
structure SameStory (a : Nat) (log log' : List Event) : Prop where
  params : paramsOf a log' = paramsOf a log
  operations : operationsOf a log' = operationsOf a log
  extensions : ∀ slot, extensionsOf a slot log' = extensionsOf a slot log

omit [Platform] in
theorem SameStory.refl (a : Nat) (log : List Event) : SameStory a log log := ⟨rfl, rfl, fun _ => rfl⟩

/-- A move from the side of the realm at `a`. -/
inductive RealmMove (c₀ : Core) (cmd : Command) (a : Nat) (c c' : Core) : Prop where
  | kept (same : c'.realm? a = c.realm? a) (story : SameStory a c.log c'.log)
  | step {rd rd' : Rd} {events : List Event} (before : c.realm? a = some rd) (after : c'.realm? a = some rd')
    (step : RdStep c cmd a rd rd' events) (log : c'.log = events ++ c.log)
  | addRec {rd : Rd} {page : Page} {r : Nat} (before : c.realm? a = some rd) (isNew : rd.state = .new)
    (creates : CreatesRec cmd a) (after : c'.realm? a = some (rd.addRec page))
    (log : c'.log = .recCreated r :: .measured a (.recCreate page) :: c.log) (start : c = c₀)
  | metadata {rd : Rd} {m : Nat} (before : c.realm? a = some rd) (isNew : rd.state = .new) (unset : rd.metadata = none)
    (after : c'.realm? a = some { rd with metadata := some m }) (log : c'.log = c.log)
    (signed : Platform.verifySignature (c'.mem m).words = true)
    (accepted : (RealmMetadata.mk (c'.mem m).words).validate = true)
  | created {rd : Rd} {page : Page} (start : c = c₀) (measures : cmd.Measures) (before : c.realm? a = none)
    (fresh : rd.Fresh page) (after : c'.realm? a = some rd) (log : c'.log = .created a page :: c.log)
  | ended {rd : Rd} (before : c.realm? a = some rd) (after : c'.realm? a = none) (log : c'.log = c.log)
    (count : c.refCount a = 0)

theorem RdStep.story {b : Nat} {rd rd' : Rd} {events : List Event} (step : RdStep c cmd b rd rd' events)
    (other : a ≠ b) (log : List Event) : SameStory a log (events ++ log) := by
  cases step with
  | activate _ _ _ => exact .refl a log
  | measure op _ _ _ => exact ⟨rfl, if_neg (Ne.symm other), fun _ => rfl⟩
  | extend slot buffer _ _ => exact ⟨rfl, rfl, fun _ => if_neg fun both => other both.1.symm⟩
  | off _ => exact .refl a log

theorem RecStep.story {rc rc' : Rec} {events : List Event} (step : RecStep c₀ c cmd r rc rc' events)
    (log : List Event) : SameStory a log (events ++ log) := by
  cases step with
  | askCpuOn => exact ⟨rfl, rfl, fun _ => rfl⟩
  | _ => exact .refl a log

theorem Effect.realm (effect : Effect c₀ cmd c c') (inv : c.Inv) (a : Nat) : RealmMove c₀ cmd a c c' := by
  cases effect with
  | elsewhere same => exact .kept (same.realms a) (by rw [same.log]; exact .refl a _)
  | @setRd b rd rd' events realm step eq =>
    subst eq
    have found := realm?_setRd realm rd' a
    by_cases same : a = b
    · subst same
      rw [if_pos rfl] at found
      exact .step realm found step rfl
    · rw [if_neg same] at found
      exact .kept found (step.story same _)
  | @setRec r rc' events _ state step _ eq =>
    subst eq
    have found : (c.setContent r (.recCtx rc')).realm? a = c.realm? a :=
      realm?_setContent (by rw [state]; exact nofun) a
    exact .kept found (step.story _)
  | enter _ _ _ _ eq =>
    subst eq
    exact .kept rfl ⟨rfl, rfl, fun _ => rfl⟩
  | @newRealm b rd start measures new =>
    obtain ⟨page, fresh, log⟩ := new.created
    by_cases same : a = b
    · subst same
      refine .created start measures ?_ fresh new.realm_same log
      by_contra some
      obtain ⟨rd', realm⟩ := Option.ne_none_iff_exists'.mp some
      have state := (Core.realm?_eq_some.mp realm).2.1
      rw [new.state] at state
      exact nomatch state
    · refine .kept (new.realm_other same) ?_
      rw [log]
      exact ⟨if_neg (Ne.symm same), if_neg (Ne.symm same), fun _ => if_neg (Ne.symm same)⟩
  | @endRealm b rd ended =>
    by_cases same : a = b
    · subst same
      exact .ended ended.realm ended.realm_same ended.log ended.count
    · exact .kept (ended.realm_other inv same) (by rw [ended.log]; exact .refl a _)
  | @newRec b r rd rc start creates new =>
    obtain ⟨page, found, log⟩ := new.realm_same
    by_cases same : a = b
    · subst same
      exact .addRec new.realm new.isNew creates found log start
    · refine .kept (new.realm_other same) ?_
      rw [log]
      exact ⟨rfl, if_neg (Ne.symm same), fun _ => rfl⟩
  | endRec ended eq =>
    subst eq
    refine .kept (ended.realm? a) ?_
    rw [show (endRecCore c _ _).log = c.log from Core.log_setStateCore _]
    exact .refl a _
  | @metadata b m rd page realm isNew unset valid state signed accepted eq =>
    subst eq
    have found := @realm?_metadataCore _ c b m rd page realm valid state a
    have log : (metadataCore c b m rd page).log = c.log := Core.log_setStateCore _
    by_cases same : a = b
    · subst same
      rw [if_pos rfl] at found
      refine .metadata realm isNew unset found log ?_ ?_ <;> rw [mem_metadataCore realm state]
      · exact signed
      · exact accepted
    · rw [if_neg same] at found
      refine .kept found ?_
      rw [log]
      exact .refl a _

/-- A realm stays, with its layout, unless its count of RECs lets it end. -/
theorem Effect.realm_stays {rd : Rd} (effect : Effect c₀ cmd c c') (inv : c.Inv) (realm : c.realm? a = some rd) :
    (∃ rd', c'.realm? a = some rd' ∧ rd'.layout = rd.layout) ∨ c.refCount a = 0 := by
  cases effect.realm inv a with
  | kept same _ => exact .inl ⟨rd, same.trans realm, rfl⟩
  | step before after step _ =>
    cases before.symm.trans realm
    exact .inl ⟨_, after, step.layout.1⟩
  | addRec before _ _ after _ =>
    cases before.symm.trans realm
    exact .inl ⟨_, after, rfl⟩
  | metadata before _ _ after _ _ _ =>
    cases before.symm.trans realm
    exact .inl ⟨_, after, rfl⟩
  | created _ _ before _ _ _ => exact nomatch before.symm.trans realm
  | ended _ _ _ count => exact .inr count

/-! ### One REC -/

/-- The REC that an event is about. -/
def Event.rec? : Event → Option Nat
  | .recCreated r => some r
  | .entered r _ => some r
  | .cpuOn r _ _ _ => some r
  | _ => none

/-- Events that are not about the REC at `r` were added. -/
def QuietFor (r : Nat) (log log' : List Event) : Prop :=
  ∃ events, log' = events ++ log ∧ ∀ event ∈ events, event.rec? ≠ some r

/-- A move from the side of the REC at `r`. -/
inductive RecMove (c₀ : Core) (cmd : Command) (r : Nat) (c c' : Core) : Prop where
  | kept (before : c.stateOf r = .recCtx) (same : c'.mem r = c.mem r) (log : QuietFor r c.log c'.log)
  | step {rc' : Rec} {events : List Event} (before : c.stateOf r = .recCtx)
    (step : RecStep c₀ c cmd r (c.mem r).asRec rc' events) (fixed : (c.mem r).asRec.Fixed rc')
    (after : c'.mem r = .recCtx rc') (log : c'.log = events ++ c.log)
  | enter (before : c.stateOf r = .recCtx) (enters : EntersRec cmd r) (clear : StaleHostCall c₀ cmd ∨ (c.mem r).asRec.Clear)
    (same : c'.mem r = c.mem r) (log : c'.log = .entered r (c.mem r).asRec :: c.log)
  | created {a : Nat} {rc : Rec} (start : c = c₀) (creates : CreatesRec cmd a) (before : c.stateOf r = .delegated)
    (after : c'.mem r = .recCtx rc) (owner : rc.owner = some a) (clear : rc.Clear)
    (attest : rc.attestState = .noAttestInProgress) (realm : ∃ rd, c'.realm? a = some rd)
    (log : ∃ earlier, c'.log = .recCreated r :: earlier) (new : ∃ rd, NewRec c c' a r rd rc)

omit [Platform] in
theorem QuietFor.of_eq {log log' : List Event} (same : log' = log) : QuietFor r log log' :=
  ⟨[], same, List.forall_mem_nil _⟩

theorem RdStep.quiet {rd rd' : Rd} {events : List Event} (step : RdStep c cmd a rd rd' events) :
    ∀ event ∈ events, event.rec? ≠ some r := by
  cases step <;> simp [Event.rec?]

theorem RecStep.quiet {b : Nat} {rc rc' : Rec} {events : List Event} (step : RecStep c₀ c cmd b rc rc' events)
    (other : r ≠ b) : ∀ event ∈ events, event.rec? ≠ some r := by
  cases step with
  | askCpuOn => simpa [Event.rec?] using Ne.symm other
  | _ => exact List.forall_mem_nil _

theorem Effect.recMove (effect : Effect c₀ cmd c c') (valid : validateAddr r = true) (after : c'.stateOf r = .recCtx) :
    RecMove c₀ cmd r c c' := by
  cases effect with
  | elsewhere same =>
    have before := (same.states r valid).mp after
    exact .kept before (same.recs r valid before) (.of_eq same.log)
  | @setRd a rd rd' events realm step eq =>
    subst eq
    have other : r ≠ a := by
      rintro rfl
      exact nomatch (Core.realm?_eq_some.mp realm).2.1.symm.trans after
    exact .kept after (Core.mem_setContent_of_ne _ other) ⟨events, rfl, step.quiet⟩
  | @setRec b rc' events _ state step fixed eq =>
    subst eq
    by_cases same : r = b
    · subst same
      exact .step state step fixed (Core.mem_setContent_same _) rfl
    · exact .kept after (Core.mem_setContent_of_ne _ same) ⟨events, rfl, step.quiet same⟩
  | @enter b enters _ state clear eq =>
    subst eq
    by_cases same : r = b
    · subst same
      exact .enter state enters clear rfl rfl
    · exact .kept after rfl ⟨_, rfl, by simpa [Event.rec?] using Ne.symm same⟩
  | newRealm _ _ new =>
    have before := (new.sameRecs.states r valid).mp after
    obtain ⟨page, _, log⟩ := new.created
    exact .kept before (new.kept valid (by rw [before]; exact nofun)).2 ⟨[.created _ page], log, by simp [Event.rec?]⟩
  | @endRealm a rd ended =>
    have stays : ¬rd.Frees a r := fun frees => nomatch (ended.freed r frees).1.symm.trans after
    exact .kept ((ended.others r valid stays).symm.trans after) (ended.mem r stays) (.of_eq ended.log)
  | @newRec a b rd rc start creates new =>
    obtain ⟨page, found, log⟩ := new.realm_same
    by_cases same : r = b
    · subst same
      exact .created start creates new.state new.context new.owner new.clear new.attest ⟨_, found⟩ ⟨_, log⟩ ⟨rd, new⟩
    · have apart : ∀ i < maxRecAuxGranules, r ≠ rc.aux i := by
        rintro i less rfl
        exact nomatch (new.isAux i less).symm.trans after
      have before := (new.others r valid same apart).symm.trans after
      have other : r ≠ a := by
        rintro rfl
        exact nomatch (Core.realm?_eq_some.mp new.realm).2.1.symm.trans before
      exact .kept before (new.mem r same other)
        ⟨[.recCreated b, .measured a (.recCreate page)], log, by simpa [Event.rec?] using Ne.symm same⟩
  | endRec ended eq =>
    subst eq
    obtain ⟨other, before⟩ := ended.back valid (by nofun) after
    exact .kept before (ended.mem_other other) (.of_eq (Core.log_setStateCore _))
  | @metadata a m rd page realm _ _ validM state _ _ eq =>
    subst eq
    have kept : (setStateCore (granuleAddrToIndex m) .metadata (c.setContent m (.raw page))).stateOf r = .recCtx := after
    rw [stateOf_setState validM valid] at kept
    split at kept
    · exact nomatch kept
    · rename_i other
      have apart : r ≠ a := by
        rintro rfl
        exact nomatch (Core.realm?_eq_some.mp realm).2.1.symm.trans kept
      refine .kept kept ?_ (.of_eq (Core.log_setStateCore _))
      rw [metadataCore, Core.mem_setContent_of_ne _ apart, Core.mem_setStateCore_of_ne _ validM other,
        Core.mem_setContent_of_ne _ other]

/-- A realm has no more RECs than before, unless it is given a new one. -/
theorem Effect.numRecs (effect : Effect c₀ cmd c c') (inv : c.Inv) (a : Nat) :
    c'.numRecs a ≤ c.numRecs a ∨ c = c₀ ∧ CreatesRec cmd a ∧ ∃ r rd rc, NewRec c c' a r rd rc := by
  cases effect with
  | elsewhere same =>
    refine .inl (numRecs_eq ⟨same.states, ?_, ?_, ?_⟩ a).le <;> intro b valid state <;> rw [same.recs b valid state]
    exact id
  | setRd realm step eq =>
    subst eq
    exact .inl (numRecs_eq ((Calm.setRd realm step.layout.1 step.layout.2).emits _).recs a).le
  | setRec _ state _ fixed eq =>
    subst eq
    exact .inl (numRecs_eq ((Calm.setRec state fixed.owner fixed.aux fixed.ripas).emits _).recs a).le
  | enter _ _ _ _ eq =>
    subst eq
    exact .inl (numRecs_eq ((Calm.refl c).emits _).recs a).le
  | newRealm _ _ new => exact .inl (numRecs_eq new.sameRecs a).le
  | endRealm ended => exact .inl (numRecs_eq (ended.sameRecs inv) a).le
  | @newRec b r rd rc start creates new =>
    by_cases same : a = b
    · subst same
      exact .inr ⟨start, creates, r, rd, rc, new⟩
    · exact .inl (new.numRecs_other same).le
  | @endRec r o ended eq =>
    subst eq
    by_cases same : a = o
    · subst same
      have := ended.numRecs_same
      exact .inl (by omega)
    · exact .inl (ended.numRecs_other same).le
  | @metadata b m rd page realm _ _ valid state _ _ eq =>
    subst eq
    obtain ⟨validB, stateB, _⟩ := Core.realm?_eq_some.mp realm
    have notRec : c.stateOf m ≠ .recCtx := by
      rw [state]
      exact nofun
    refine .inl (le_of_eq ?_)
    rw [metadataCore, numRecs_eq (sameRecs_setContent ?_),
      numRecs_eq (sameRecs_setState valid (show (c.setContent m (.raw page)).stateOf m ≠ .recCtx from notRec)
        (show GranuleState.metadata ≠ .recCtx from nofun)), numRecs_eq (sameRecs_setContent notRec)]
    rw [stateOf_setState valid validB]
    split
    · exact nofun
    · rw [Core.stateOf_setContent, stateB]
      exact nofun

theorem Effect.entered {rc : Rec} (effect : Effect c₀ cmd c c') (member : Event.entered r rc ∈ c'.log) :
    Event.entered r rc ∈ c.log ∨ StaleHostCall c₀ cmd ∨ rc.Clear := by
  cases effect with
  | elsewhere same => exact .inl (same.log ▸ member)
  | setRd _ step eq =>
    subst eq
    rcases List.mem_append.mp member with new | old
    · cases step <;> simp at new
    · exact .inl old
  | setRec _ _ step _ eq =>
    subst eq
    rcases List.mem_append.mp member with new | old
    · cases step <;> simp at new
    · exact .inl old
  | enter _ _ _ clear eq =>
    subst eq
    rcases List.mem_append.mp member with new | old
    · rw [List.mem_singleton] at new
      cases new
      exact .inr clear
    · exact .inl old
  | newRealm _ _ new =>
    obtain ⟨page, _, log⟩ := new.created
    rw [log] at member
    exact .inl (by simpa using member)
  | endRealm ended => exact .inl (ended.log ▸ member)
  | newRec _ _ new =>
    obtain ⟨page, _, log, _⟩ := new.desc
    rw [log] at member
    exact .inl (by simpa using member)
  | endRec _ eq =>
    subst eq
    rw [show (endRecCore c _ _).log = c.log from Core.log_setStateCore _] at member
    exact .inl member
  | metadata _ _ _ _ _ _ _ eq =>
    subst eq
    rw [metadataCore, Core.log_setContent, Core.log_setStateCore, Core.log_setContent] at member
    exact .inl member

end Islet.Rmm
