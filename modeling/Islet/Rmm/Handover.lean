import Islet.Lib.Interleaving
import Islet.Rmm.Runs

/-! GRANULE_DELEGATE and GRANULE_UNDELEGATE on any number of processors at once, where each command may be interrupted
between any two of its steps. The lock of a granule guards its state and what EL3 records for it. Memory, which the
host may write at any time, and the monitor's page table are shared without these locks. -/

namespace Islet.Rmm.Handover

open Lib Prog Rmi Sharing

/-- What the lock of a granule guards. -/
def guarded (c : Core) (i : Nat) : GranuleState × GranuleGpt := ((c.granules i).state, c.gpt i)

/-- The locks of the granule status table. -/
def granuleLocks : Sharing Label Nat (GranuleState × GranuleGpt) Machine (Core × Mm.PageTable) where
  shared s := (s.core, s.pageTable)
  load x s := { s with core := x.1, pageTable := x.2 }
  part x i := guarded x.1 i
  holds s i := i ∈ s.held
  takes
    | some (.lock i) => some i
    | _ => none
  shared_load _ _ := rfl
  load_shared _ := rfl
  load_load _ _ _ := rfl
  holds_load _ _ := rfl

/-- The granule status table and EL3 agree on a granule. -/
def Agrees (i : Nat) (p : GranuleState × GranuleGpt) : Prop :=
  i < granuleStatusTableSize → (p.1 = .undelegated ↔ p.2 ≠ .realm)

/-- The command has not panicked, and it does not spin or run forever. -/
def Answers (r : Except Halt Unit) : Prop := r = .ok () ∨ r = .error (.error .rmiErrorInput)

def Answered (r : Except Halt Unit) (s : Machine) : Prop := s.held = [] ∧ Answers r

/-- The body of a command, which ends where its guards are dropped. -/
def Body (m : RmmM Unit) (s : Machine) : Prop :=
  granuleLocks.Safe Agrees (fun r t => granuleLocks.Respects Agrees none t { t with held := [] } ∧
    granuleLocks.Safe Agrees Answered (.finish r) { t with held := [] }) m s

/-- The processor has locked granule `i` and nothing else. -/
def Owns (i : Nat) (p : GranuleState × GranuleGpt) (s : Machine) : Prop := s.held = [i] ∧ guarded s.core i = p

variable {s t : Machine} {i addr : Nat} {p : GranuleState × GranuleGpt} {m : RmmM Unit} {r : Except Halt Unit}

@[simp] theorem holds_iff {k : Nat} : granuleLocks.holds s k ↔ k ∈ s.held := Iff.rfl

theorem held_of_sees (sees : granuleLocks.Sees s t) : t.held = s.held :=
  (congrArg Machine.held (sees.own (s.core, s.pageTable)) :)

theorem Owns.sees (owns : Owns i p s) (sees : granuleLocks.Sees s t) : Owns i p t :=
  ⟨(held_of_sees sees).trans owns.1, (sees.parts i (by simp [owns.1])).trans owns.2⟩

theorem guarded_setStateCore (c : Core) (state : GranuleState) (k : Nat) :
    guarded (setStateCore i state c) k = if k = i then (state, c.gpt i) else guarded c k := by
  have gpt : (setStateCore i state c).gpt = c.gpt := by
    unfold setStateCore
    simp only
    split <;> rfl
  by_cases same : k = i <;> simp [guarded, Core.granules_setStateCore, gpt, same]

namespace Body

theorem finish (agrees : ∀ k ∈ s.held, Agrees k (guarded s.core k)) (answers : Answers r) : Body (.finish r) s := by
  intro t sees
  refine ⟨⟨fun k mine => ?_, fun _ _ => rfl, fun k mine _ => ?_⟩, fun u later => ⟨held_of_sees later, answers⟩⟩
  · cases mine
  · rw [holds_iff, held_of_sees sees] at mine
    exact (sees.parts k mine).symm ▸ agrees k mine

theorem finish_locked (owns : Owns i p s) (agrees : Agrees i p) (answers : Answers r) : Body (.finish r) s := by
  refine finish (fun k mine => ?_) answers
  rw [owns.1] at mine
  rwa [List.mem_singleton.mp mine, owns.2]

/-- A step with the lock of granule `i`. -/
theorem act {effect : Machine → Machine} {next : Machine → RmmM Unit} (owns : Owns i p s)
    (held : ∀ t, (effect t).held = t.held) (kept : ∀ t k, k ≠ i → guarded (effect t).core k = guarded t.core k)
    (rest : ∀ t, Owns i p t → Body (next t) (effect t)) : Body (.act none effect next) s := by
  refine ⟨fun _ taken => (by cases taken), fun t sees _ => ⟨⟨fun k mine => ?_, fun k others => ?_, fun k mine gone => ?_⟩,
    rest t (owns.sees sees)⟩⟩
  · exact .inl (by rwa [holds_iff, held] at mine)
  · exact kept t k fun same => others (by simp [(owns.sees sees).1, same])
  · exact absurd (by rwa [holds_iff, held]) gone

theorem reads {α : Type} {f : Machine → α} {k : α → RmmM Unit} (owns : Owns i p s)
    (rest : ∀ t, Owns i p t → Body (k (f t)) t) : Body (gets f >>= k) s :=
  act owns (fun _ => rfl) (fun _ _ _ => rfl) rest

/-- `get_granule_if!`, where the rest of the command runs with the lock. -/
theorem getGranuleIf {state : GranuleState} {k : Nat → RmmM Unit} (idle : s.held = [])
    (rest : ∀ world t, validateAddr addr = true → Agrees (granuleAddrToIndex addr) (state, world) →
      Owns (granuleAddrToIndex addr) (state, world) t → Body (k (granuleAddrToIndex addr)) t) :
    Body (Rmi.getGranuleIf addr state >>= k) s := by
  have refused : ∀ u : Machine, u.held = [] → Body (err .rmiErrorInput) u := fun u idle =>
    finish (by simp [idle]) (.inr rfl)
  unfold Rmi.getGranuleIf getGranule
  simp only [Prog.bind_assoc, ite_bind]
  split
  · rename_i valid
    rw [if_neg (Nat.not_le.mpr (granuleAddrToIndex_lt valid))]
    generalize granuleAddrToIndex addr = i at rest
    refine ⟨by simp [idle], fun t sees granted => ?_⟩
    have idle := (held_of_sees sees).trans idle
    have agrees : Agrees i (guarded t.core i) := granted i rfl
    simp only [idle, List.not_mem_nil, if_false]
    refine ⟨⟨fun k mine => ?_, fun _ _ => rfl, fun k mine => ?_⟩, reads ⟨rfl, rfl⟩ fun u owns => ?_⟩
    · exact .inr (congrArg some (List.mem_singleton.mp mine).symm)
    · simp [idle] at mine
    split
    · rename_i same
      have part : guarded t.core i = (state, u.core.gpt i) := by
        rw [← owns.2, ← same]
        rfl
      rw [part] at agrees owns
      exact rest _ u valid agrees owns
    · refine ⟨fun _ taken => (by cases taken), fun v sees _ => ?_⟩
      have owns := owns.sees sees
      have dropped : v.held.erase i = [] := by simp [owns.1]
      refine ⟨⟨fun k mine => ?_, fun _ _ => rfl, fun k mine _ => ?_⟩, refused _ dropped⟩
      · simp [dropped] at mine
      · rw [holds_iff, owns.1] at mine
        rw [← owns.2] at agrees
        rwa [List.mem_singleton.mp mine]
  · exact refused s idle

/-- EL3 changes what it records for the locked granule. -/
theorem mark {world : GranuleGpt} {k : Unit → RmmM Unit} (owns : Owns i p s)
    (rest : ∀ t, Owns i (p.1, world) t → Body (k ()) t) :
    Body (modifyCore (fun c => { c with gpt := Function.update c.gpt i world }) >>= k) s := by
  refine act owns (fun _ => rfl) (fun t k other => ?_) fun t owns => rest _ ⟨owns.1, ?_⟩
  · simp [guarded, other]
  · simp [guarded, ← owns.2]

/-- The steps that both commands end with. -/
theorem wipe {secure : Bool} {state : GranuleState} (owns : Owns i p s) (valid : validateAddr addr = true)
    (agrees : Agrees i (state, p.2)) :
    Body (do pageTableMap addr secure; setGranule i state; pageTableUnmap addr) s := by
  refine act owns (fun t => by split <;> rfl) (fun t k _ => by split <;> rfl) fun t owns => ?_
  obtain ⟨pt, run, -⟩ := @Mm.PageTable.map_granule t.pageTable addr valid secure
  simp only [run]
  refine act (p := p) owns (fun _ => rfl) (fun t k other => ?_) fun u owns => ?_
  · simp [guarded_setStateCore, other]
  refine act (p := (state, p.2)) ⟨owns.1, ?_⟩ (fun _ => rfl) (fun _ _ _ => rfl) fun v owns =>
    finish_locked owns agrees (.inl rfl)
  simp only [guarded_setStateCore, if_pos, ← owns.2]
  rfl

theorem delegate (idle : s.held = []) : Body (granuleDelegate addr) s := by
  refine getGranuleIf idle fun world t valid agrees owns => ?_
  unfold smcMarkRealm
  simp only [Prog.bind_assoc, ite_bind]
  refine reads owns fun u owns => ?_
  split
  · exact mark owns fun v owns => wipe owns valid fun _ => by simp
  · exact finish_locked owns agrees (.inr rfl)

theorem undelegate (idle : s.held = []) : Body (granuleUndelegate addr) s := by
  refine getGranuleIf idle fun world t valid agrees owns => ?_
  unfold smcMarkNonsecure
  simp only [Prog.bind_assoc, ite_bind]
  refine reads owns fun u owns => ?_
  split
  · exact mark owns fun v owns => wipe owns valid fun _ => by simp
  · rename_i refused
    -- EL3 has the granule in the realm world, since no other processor can have taken it back.
    have realm : world = .realm := by simpa using agrees (granuleAddrToIndex_lt valid)
    exact absurd ((congrArg Prod.snd owns.2).trans realm) refused

theorem inScope (idle : s.held = []) (body : ∀ t, t.held = [] → Body m t) :
    granuleLocks.Safe Agrees Answered (Rmi.inScope m) s := by
  refine ⟨fun _ taken => (by cases taken), fun t sees _ =>
    ⟨⟨fun _ => .inl, fun _ _ => rfl, fun _ mine gone => absurd mine gone⟩, Safe.onExit rfl ?_⟩⟩
  have idle := (held_of_sees sees).trans idle
  simp only [idle]
  exact body t idle

end Body

variable {ι : Type} [DecidableEq ι]

/-- Processors that hand granules over, and what they share. -/
abbrev Processors (ι : Type) : Type := World ι Label Machine (Core × Mm.PageTable) Halt Unit

/-- A processor that is done takes the next call of the host. -/
inductive Called (s : Machine) : RmmM Unit → Machine → Prop where
  | delegate (addr : Word) : Called s (inScope (granuleDelegate addr.toNat)) s.start
  | undelegate (addr : Word) : Called s (inScope (granuleUndelegate addr.toNat)) s.start

theorem Answered.idle (answered : Answered r s) (k : Nat) : ¬granuleLocks.holds s k := by
  simp [answered.1]

namespace Processors

variable [Platform] {w w' : Processors ι}

/-- At first all processors are idle, in a state that commands which run one at a time lead to. -/
inductive Reached : Processors ι → Prop where
  | idle {s : Machine} (reached : s.Reachable) : Reached ⟨(s.core, s.pageTable), fun _ => (.finish (.ok ()), s.start)⟩
  | step {w w' : Processors ι} (reached : Reached w) (next : granuleLocks.Step Called w w') : Reached w'

theorem Reached.ordered (reached : w.Reached) : granuleLocks.Ordered Agrees Answered w := by
  induction reached with
  | @idle s reached =>
    refine ⟨fun k i j held => (by cases held), fun k _ bound => ?_, fun i t sees => ⟨held_of_sees sees, .inl rfl⟩⟩
    have agrees := reached.inv.gpt _ (validateAddr_indexToAddr bound)
    rwa [Core.stateOf, Core.granule, Core.gptOf, granuleAddrToIndex_indexToAddr bound] at agrees
  | step _ next ih =>
    refine ih.step (fun _ _ => Answered.idle) (fun s m t called => ⟨?_, ?_⟩) next
    · cases called <;> simp [Machine.start]
    · cases called with
      | delegate addr => exact Body.inScope rfl fun _ => .delegate
      | undelegate addr => exact Body.inScope rfl fun _ => .undelegate

open Sample in
omit [Platform] in
/-- A processor with the lock of a granule that it delegates. -/
theorem exists_locked : ∃ _ : Platform, ∃ w : Processors Bool, w.Reached ∧
    granuleAddrToIndex hostPage ∈ (w.cpu true).2.held ∧ ∀ r, (w.cpu true).1 ≠ .finish r := by
  refine ⟨platform, _, .step (.step (.step (.idle (.initial Machine.boot_initial))
    (.begin true rfl (.delegate 0x880000000#64))) (.acts true ⟨_, _, _, _, rfl, ?_, rfl⟩))
    (.acts true ⟨_, _, _, _, rfl, ?_, rfl⟩), ?_, ?_⟩
  · exact fun k taken => (by cases taken)
  · intro k _ j other
    cases j with
    | false => exact List.not_mem_nil
    | true => exact absurd rfl other
  · exact List.mem_cons_self
  · intro r ended
    cases ended

/-- However the commands of the processors interleave, no two processors hold the lock of one granule, EL3 and the
granule status table agree on every granule whose lock is free, and a command that is over has answered the host: in
particular GRANULE_UNDELEGATE does not panic. -/
theorem handover_orderly (reached : w.Reached) :
    (∀ k i j, k ∈ (w.cpu i).2.held → k ∈ (w.cpu j).2.held → i = j) ∧
    (∀ a, validateAddr a = true → (∀ i, granuleAddrToIndex a ∉ (w.cpu i).2.held) →
      (w.shared.1.stateOf a = .undelegated ↔ w.shared.1.gptOf a ≠ .realm)) ∧
    ∀ i r, (w.cpu i).1 = .finish r → r = .ok () ∨ r = .error (.error .rmiErrorInput) := by
  have ordered := reached.ordered
  refine ⟨ordered.once, fun a valid free => ordered.free _ free (granuleAddrToIndex_lt valid), fun i r ended => ?_⟩
  exact (ordered.safe_now (Prod.ext ended rfl) _ (.refl _)).2

omit [Platform] in
theorem handover_orderly_locked : ∃ _ : Platform, ∃ w : Processors Bool, w.Reached ∧
    granuleAddrToIndex hostPage ∈ (w.cpu true).2.held ∧
    granuleAddrToIndex hostPage ∉ (w.cpu false).2.held := by
  obtain ⟨platform, w, reached, held, -⟩ := exists_locked
  refine ⟨platform, w, reached, held, fun other => ?_⟩
  simpa using (handover_orderly reached).1 _ _ _ held other

/-- While a command is unfinished, some processor can make its next step: they do not wait for each other. -/
theorem handover_progress (reached : w.Reached) (i : ι) (busy : ∀ r, (w.cpu i).1 ≠ .finish r) :
    ∃ j w', granuleLocks.Acts j w w' := by
  rcases now : w.cpu i with ⟨r | _, s⟩
  · exact absurd (congrArg Prod.fst now) (busy r)
  · exact reached.ordered.progress (fun _ _ => Answered.idle) now

omit [Platform] in
theorem handover_progress_locked : ∃ _ : Platform, ∃ w : Processors Bool, w.Reached ∧
    (∀ r, (w.cpu true).1 ≠ .finish r) ∧ ∃ j w', granuleLocks.Acts j w w' := by
  obtain ⟨platform, w, reached, -, busy⟩ := exists_locked
  exact ⟨platform, w, reached, busy, handover_progress reached true busy⟩

end Processors

end Islet.Rmm.Handover
