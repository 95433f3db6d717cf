import Islet.Rmm.Effects
import Islet.Rmm.Runs

/-! The life of a realm, from REALM_CREATE to REALM_DESTROY: its state only moves
forward, its measurements are what the log of the realm says, and its metadata is
given once and holds for good. -/

namespace Islet.Rmm

open Lib Prog Bits Rmi Stage2Translation HashContext

variable [Platform] {c₀ c c' : Core} {s t : Machine} {cmd : Command} {a : Nat} {rd rd' : Rd}

/-! ### What the log says -/

/-- The measurements of the realm at `a` are those of the events about it. -/
structure Core.LoggedAt (c : Core) (a : Nat) (rd : Rd) : Prop where
  state : rd.state ≠ .null
  params : ∃ page, paramsOf a c.log = some page ∧
    rd.rim = (operationsOf a c.log).foldl (rimAfter rd.hashAlgo) (rimOf rd.hashAlgo ⟨page⟩)
  small : ∀ op ∈ operationsOf a c.log, op.Small
  slots : ∀ slot ≠ 0, rd.measurements.get slot =
    (extensionsOf a slot.val c.log).foldl (slotAfter rd.hashAlgo) .empty

def Core.Logged (c : Core) : Prop := ∀ {a rd}, c.realm? a = some rd → c.LoggedAt a rd

theorem Core.LoggedAt.of_story (logged : c.LoggedAt a rd) (story : SameStory a c.log c'.log) : c'.LoggedAt a rd := by
  obtain ⟨state, ⟨page, params, rim⟩, small, slots⟩ := logged
  refine ⟨state, ⟨page, story.params.trans params, ?_⟩, ?_, fun slot other => ?_⟩
  · rw [story.operations]
    exact rim
  · rw [story.operations]
    exact small
  · rw [story.extensions]
    exact slots slot other

/-- One more operation is measured. -/
theorem Core.LoggedAt.measured {op : MeasuredOp} {earlier : List Event} (logged : c.LoggedAt a rd) (small : op.Small)
    (log : c.log = earlier)
    (after : SameStory a (.measured a op :: earlier) c'.log) : c'.LoggedAt a (rd.measured op) := by
  obtain ⟨state, ⟨page, params, rim⟩, before, slots⟩ := logged
  subst log
  have operations : operationsOf a c'.log = operationsOf a c.log ++ [op] :=
    after.operations.trans (if_pos rfl)
  refine ⟨state, ⟨page, after.params.trans params, ?_⟩, ?_, fun slot other => ?_⟩
  · rw [operations, List.foldl_append, Rd.rim, Rd.measured, Rd.get_setSlot, if_pos rfl]
    change _ = rimAfter rd.hashAlgo (List.foldl (rimAfter rd.hashAlgo) (rimOf rd.hashAlgo ⟨page⟩) _) op
    rw [← rim]
  · rw [operations]
    intro op' member
    rcases List.mem_append.mp member with old | new
    · exact before op' old
    · rw [List.mem_singleton.mp new]
      exact small
  · rw [Rd.measured, Rd.get_setSlot, if_neg other, slots slot other, after.extensions]
    rfl

theorem RealmMove.logged (move : RealmMove c₀ cmd a c c') (logged : ∀ {rd}, c.realm? a = some rd → c.LoggedAt a rd)
    (realm : c'.realm? a = some rd) : c'.LoggedAt a rd := by
  cases move with
  | kept same story =>
    rw [same] at realm
    exact (logged realm).of_story story
  | @step old new events before after step log =>
    cases after.symm.trans realm
    have was := logged before
    cases step with
    | activate _ _ _ =>
      have now := was.of_story (by rw [log]; exact .refl a _)
      exact ⟨nofun, now.params, now.small, now.slots⟩
    | measure op small _ _ => exact was.measured small rfl (by rw [log]; exact .refl a _)
    | extend slot buffer _ other =>
      obtain ⟨state, ⟨page, params, rim⟩, small, slots⟩ := was
      have operations : operationsOf a c'.log = operationsOf a c.log := by rw [log]; rfl
      refine ⟨state, ⟨page, by rw [log]; exact params, ?_⟩, by rw [operations]; exact small, fun slot' apart => ?_⟩
      · rw [operations, Rd.rim, Rd.extended, Rd.get_setSlot, if_neg (Ne.symm other)]
        exact rim
      · have extended : extensionsOf a slot'.val c'.log =
            if slot' = slot then extensionsOf a slot'.val c.log ++ [buffer] else extensionsOf a slot'.val c.log := by
          rw [log]
          by_cases same : slot' = slot
          · subst same
            exact (if_pos ⟨rfl, rfl⟩).trans (if_pos rfl).symm
          · exact (if_neg fun both => same (Fin.ext both.2.symm)).trans (if_neg same).symm
        rw [extended, Rd.extended, Rd.get_setSlot]
        split
        · rename_i same
          subst same
          rw [List.foldl_append, slots slot' apart]
          rfl
        · exact slots slot' apart
    | off _ =>
      have now := was.of_story (by rw [log]; exact .refl a _)
      exact ⟨nofun, now.params, now.small, now.slots⟩
  | @addRec old page r before _ _ after log =>
    cases after.symm.trans realm
    have was := logged before
    have grown : c.LoggedAt a { old with vcpuIndex := old.vcpuIndex + 1, recIndex := old.recIndex + 1 } :=
      ⟨was.state, was.params, was.small, was.slots⟩
    exact grown.measured trivial rfl (by rw [log]; exact ⟨rfl, rfl, fun _ => rfl⟩)
  | metadata before _ _ after log =>
    cases after.symm.trans realm
    have now := (logged before).of_story (by rw [log]; exact .refl a _)
    exact ⟨now.state, now.params, now.small, now.slots⟩
  | @created new page _ _ _ fresh after log =>
    cases after.symm.trans realm
    have operations : operationsOf a c'.log = [] := by rw [log]; exact if_pos rfl
    refine ⟨by rw [fresh.state]; exact nofun, ⟨page, by rw [log]; exact if_pos rfl, ?_⟩, by rw [operations]; exact nofun, fun slot other => ?_⟩
    · rw [operations]
      exact fresh.rim
    · rw [fresh.slots slot other, log, show extensionsOf a slot.val (.created a page :: c.log) = [] from if_pos rfl]
      rfl
  | ended _ after _ => exact nomatch after.symm.trans realm

theorem Machine.Reachable.logged (reached : s.Reachable) : s.core.Logged := by
  refine reached.invariant (P := Core.Logged) ?_ ?_
  · intro s start a rd realm
    rw [start.realm?] at realm
    exact nomatch realm
  · intro c₀ c c' cmd _ _ inv logged move a rd realm
    exact ((move.effect inv).realm inv a).logged (fun realm => logged realm) realm

/-! ### Life -/

/-- The two changes of a realm's state. -/
inductive RealmState.Next : RealmState → RealmState → Prop where
  | activate : Next .new .active
  | off : Next .active .systemOff

/-- What a realm can have become. -/
structure Rd.Later (rd rd' : Rd) : Prop where
  layout : rd'.layout = rd.layout
  state : Relation.ReflTransGen RealmState.Next rd.state rd'.state
  rim : rd.state ≠ .new → rd'.rim = rd.rim
  metadata : rd'.metadata = rd.metadata ∨ rd.metadata = none ∧ rd.state = .new

namespace Rd.Later

omit [Platform]

protected theorem refl (rd : Rd) : rd.Later rd := ⟨rfl, .refl, fun _ => rfl, .inl rfl⟩

/-- Nothing becomes new again. -/
theorem isNew (later : rd.Later rd') (isNew : rd'.state = .new) : rd.state = .new := by
  have state := later.state
  rw [isNew] at state
  rcases state.cases_tail with same | ⟨_, _, next⟩
  · exact same.symm
  · exact nomatch next

theorem trans {rd'' : Rd} (first : rd.Later rd') (second : rd'.Later rd'') : rd.Later rd'' := by
  refine ⟨second.layout.trans first.layout, first.state.trans second.state, fun old => ?_, ?_⟩
  · rw [second.rim (old ∘ first.isNew), first.rim old]
  · rcases second.metadata with same | ⟨unset, isNew⟩
    · rw [same]
      exact first.metadata
    · refine .inr ⟨?_, first.isNew isNew⟩
      rcases first.metadata with same | ⟨unset', _⟩
      · rw [← same, unset]
      · exact unset'

end Rd.Later

theorem RdStep.later {events : List Event} (step : RdStep c cmd a rd rd' events) : rd.Later rd' := by
  cases step with
  | activate _ isNew _ => exact ⟨rfl, isNew ▸ .single .activate, fun _ => rfl, .inl rfl⟩
  | measure op _ _ isNew => exact ⟨rfl, .refl, fun old => absurd isNew old, .inl rfl⟩
  | extend slot buffer _ other =>
    refine ⟨rfl, .refl, fun _ => ?_, .inl rfl⟩
    rw [Rd.rim, Rd.extended, Rd.get_setSlot, if_neg (Ne.symm other)]
    rfl
  | off active => exact ⟨rfl, active ▸ .single .off, fun _ => rfl, .inl rfl⟩

/-- What holds of a realm when a command begins, and is kept by everything that can happen to the realm,
holds for as long as the realm exists. -/
theorem Moves.follow {P : Rd → Prop} (moves : Moves c₀ cmd c₀ c) (inv : c₀.Inv) (realm : c₀.realm? a = some rd)
    (start : P rd)
    (step : ∀ {c old new events}, P old → RdStep c cmd a old new events → P new)
    (addRec : ∀ {old page}, P old → old.state = .new → CreatesRec cmd a → P (old.addRec page))
    (metadata : ∀ {old : Rd} {m}, P old → old.state = .new → old.metadata = none → P { old with metadata := some m }) :
    c.realm? a = none ∨ ∃ rd', c.realm? a = some rd' ∧ P rd' := by
  induction moves with
  | refl => exact .inr ⟨rd, realm, start⟩
  | @tail b c before move ih =>
    have holds : ∀ {old}, b.realm? a = some old → P old := by
      intro old found
      rcases ih with gone | ⟨_, found', holds⟩
      · exact nomatch gone.symm.trans found
      · cases found.symm.trans found'
        exact holds
    have inv' := Moves.inv before inv
    cases (move.effect inv').realm inv' a with
    | kept same _ =>
      rw [same]
      exact ih
    | step found after change _ => exact .inr ⟨_, after, step (holds found) change⟩
    | addRec found isNew creates after _ => exact .inr ⟨_, after, addRec (holds found) isNew creates⟩
    | metadata found isNew unset after _ _ _ => exact .inr ⟨_, after, metadata (holds found) isNew unset⟩
    | created start _ missing _ _ _ =>
      -- only a command that finds no realm there creates one
      rw [start] at missing
      exact nomatch missing.symm.trans realm
    | ended _ after _ => exact .inl after

/-- A realm that was there when the command began is gone or has become what it can become. -/
theorem Moves.later (moves : Moves c₀ cmd c₀ c) (inv : c₀.Inv) (realm : c₀.realm? a = some rd) :
    c.realm? a = none ∨ ∃ rd', c.realm? a = some rd' ∧ rd.Later rd' :=
  moves.follow inv realm (.refl rd) (fun before step => before.trans step.later)
    (fun before isNew _ => before.trans ⟨rfl, .refl, fun old => absurd isNew old, .inl rfl⟩)
    (fun before isNew unset => before.trans ⟨rfl, .refl, fun _ => rfl, .inr ⟨unset, isNew⟩⟩)

theorem Machine.Step.later (next : s.Step t) (inv : s.core.Inv) (realm : s.core.realm? a = some rd)
    (still : t.core.realm? a = some rd') : rd.Later rd' := by
  cases next with
  | command cmd returned =>
    rcases (Machine.exec_moves inv returned).later inv realm with gone | ⟨_, found, later⟩
    · exact nomatch gone.symm.trans still
    · cases found.symm.trans still
      exact later
  | hostWrite addr page valid outside =>
    have move := Move.hostWrite inv valid outside page
    rcases Moves.later (.single move) inv realm with gone | ⟨_, found, later⟩
    · exact nomatch gone.symm.trans still
    · cases found.symm.trans still
      exact later

/-- Runs during which the realm at `a` exists all the time. -/
inductive Machine.Lives (a : Nat) (s : Machine) : Machine → Prop where
  | refl : Lives a s s
  | step {t u : Machine} (lives : Lives a s t) (next : t.Step u) (still : ∃ rd, u.core.realm? a = some rd) : Lives a s u

theorem Machine.Lives.later (lives : s.Lives a t) (inv : s.core.Inv) (realm : s.core.realm? a = some rd) :
    t.core.Inv ∧ ∃ rd', t.core.realm? a = some rd' ∧ rd.Later rd' := by
  induction lives with
  | refl => exact ⟨inv, rd, realm, .refl rd⟩
  | step _ next still ih =>
    obtain ⟨inv', rd', realm', later⟩ := ih
    obtain ⟨rd'', realm''⟩ := still
    exact ⟨next.inv inv', rd'', realm'', later.trans (next.later inv' realm' realm'')⟩

/-- The commands that add to a realm at `a` that is still new. -/
def Command.Builds (a : Nat) : Command → Prop
  | .dataCreate rd _ _ _ _ => rd.toNat = a
  | .recCreate rd _ _ => rd.toNat = a
  | .rttInitRipas rd _ _ => rd.toNat = a
  | .isletRealmSetMetadata rd _ _ => rd.toNat = a
  | _ => False

theorem Machine.Succeeds.isNew (done : s.Succeeds cmd t) (inv : s.core.Inv) (builds : cmd.Builds a) :
    ∃ rd, s.core.realm? a = some rd ∧ rd.state = .new := by
  cases cmd with
  | dataCreate rd target ipa src flags =>
    subst builds
    obtain ⟨_, ⟨desc, copies⟩, _⟩ :=
      done.post (dataCreate_spec (s := s.start) rd target ipa src flags inv rfl rfl rfl rfl rfl rfl)
    exact ⟨desc, copies.realm, copies.new⟩
  | recCreate rd rc ptr =>
    subst builds
    obtain ⟨_, _, _, desc, new, _⟩ := done.post (recCreate_spec (s := s.start) rd rc ptr inv rfl rfl rfl rfl rfl)
    exact ⟨desc, new.realm, new.isNew⟩
  | rttInitRipas rd base top =>
    subst builds
    obtain ⟨_, desc, _, _, _, init⟩ := done.post (rttInitRipas_spec (s := s.start) rd base top inv rfl rfl)
    exact ⟨desc, init.accepted.realm, init.accepted.isNew⟩
  | isletRealmSetMetadata rd mdg ptr =>
    subst builds
    obtain ⟨_, _, desc, realm, isNew, _⟩ :=
      done.post (isletRealmSetMetadata_spec (s := s.start) rd mdg ptr rfl rfl rfl rfl rfl)
    exact ⟨desc, realm, isNew⟩
  | _ => exact builds.elim

/-- What the metadata granule `m` of a realm holds. -/
structure Core.BoundTo (c : Core) (rd : Rd) (m : Nat) : Prop where
  signed : Platform.verifySignature (c.mem m).words = true
  accepted : (RealmMetadata.mk (c.mem m).words).validate = true
  agrees : rd.state ≠ .new → rd.Agrees ⟨(c.mem m).words⟩

def Core.Bound (c : Core) : Prop := ∀ {a rd m}, c.realm? a = some rd → rd.metadata = some m → c.BoundTo rd m

theorem Core.BoundTo.of_mem {m : Nat} (bound : c.BoundTo rd m) (mem : c'.mem m = c.mem m)
    (agrees : rd'.state ≠ .new → rd'.Agrees ⟨(c.mem m).words⟩) : c'.BoundTo rd' m := by
  refine ⟨?_, ?_, ?_⟩ <;> rw [mem]
  · exact bound.signed
  · exact bound.accepted
  · exact agrees

/-- A step of a realm keeps what activation has checked. -/
theorem RdStep.agrees {events : List Event} {m : Nat} (step : RdStep c cmd a rd rd' events)
    (has : rd.metadata = some m) (before : rd.state ≠ .new → rd.Agrees ⟨(c.mem m).words⟩) (old : rd'.state ≠ .new) :
    rd'.Agrees ⟨(c.mem m).words⟩ := by
  cases step with
  | activate _ _ agrees => exact agrees m has
  | measure _ _ _ isNew => exact absurd isNew old
  | extend slot buffer active other =>
    have started : rd.state ≠ .new := by
      rw [active]
      exact nofun
    have rim : (rd.extended slot buffer).rim = rd.rim :=
      (RdStep.extend slot buffer active other : RdStep c cmd a rd _ _).later.rim started
    rw [Rd.Agrees, rim]
    exact before started
  | off active => exact before (by rw [active]; exact nofun)

theorem Effect.bound (effect : Effect c₀ cmd c c') (inv : c.Inv) (inv' : c'.Inv) (bound : c.Bound) : c'.Bound := by
  intro a rd m realm has
  obtain ⟨valid, after⟩ := inv'.metadata.state realm has
  -- metadata that was there before is the same page
  have same : ∀ {old}, c.realm? a = some old → old.metadata = some m → c.BoundTo old m ∧ c'.mem m = c.mem m := by
    intro old found had
    exact ⟨bound found had, effect.metadata_mem valid (inv.metadata.state found had).2 after⟩
  cases effect.realm inv a with
  | kept kept _ =>
    rw [kept] at realm
    obtain ⟨before, mem⟩ := same realm has
    exact before.of_mem mem before.agrees
  | step found after step _ =>
    cases after.symm.trans realm
    rw [step.layout.2] at has
    obtain ⟨before, mem⟩ := same found has
    exact before.of_mem mem (step.agrees has before.agrees)
  | addRec found isNew _ after _ =>
    cases after.symm.trans realm
    obtain ⟨before, mem⟩ := same found has
    exact before.of_mem mem fun old => absurd isNew old
  | metadata _ isNew _ after _ signed accepted =>
    cases after.symm.trans realm
    cases has
    exact ⟨signed, accepted, fun old => absurd isNew old⟩
  | created _ _ _ fresh after _ =>
    cases after.symm.trans realm
    exact nomatch fresh.metadata.symm.trans has
  | ended _ after _ => exact nomatch after.symm.trans realm

theorem Machine.Reachable.bound (reached : s.Reachable) : s.core.Bound := by
  refine reached.invariant (P := Core.Bound) ?_ ?_
  · intro s start a rd m realm
    rw [start.realm?] at realm
    exact nomatch realm
  · intro c₀ c c' cmd _ _ inv bound move
    exact (move.effect inv).bound inv (move.inv inv) fun realm has => bound realm has

/-- A page of metadata that passes validation. -/
def metadataPage : Page := fun i => if i = 0 ∨ i = 0x19 ∨ i = 0x1a then 1 else 0

end Islet.Rmm
