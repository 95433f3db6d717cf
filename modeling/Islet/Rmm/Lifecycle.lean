import Islet.Rmm.Ownership
import Islet.Rmm.Recs

/-! The life of granules: which changes of state they go through, what they hold when
they are free, and what the end of a realm leaves behind. -/

namespace Islet.Rmm

open Lib Prog Bits Rmi Stage2Translation

variable [Platform] {c₀ c c' : Core} {s t : Machine} {cmd : Command} {a x y : Nat} {rd : Rd}

/-! ### States -/

omit [Platform] in
theorem LegalSince.all (legal : LegalSince s t) (before : ∀ change ∈ s.history, change.Legal) :
    ∀ change ∈ t.history, change.Legal :=
  recorded_all legal.1 before

theorem Machine.Reachable.history_legal (reached : s.Reachable) : ∀ change ∈ s.history, change.Legal := by
  induction reached with
  | initial start =>
    rw [start.history]
    exact nofun
  | step reached next ih =>
    cases next with
    | command cmd returned => exact (Machine.exec_legal reached.inv returned).all ih
    | hostWrite _ _ _ _ => exact ih

open Sample in
omit [Platform] in
/-- The granule of the descriptor is not given back to the host. -/
example : ∃ _ : Platform, (created.handle (.granuleUndelegate (BitVec.ofNat 64 (bankAt 0)))).1 ≠ .ok () :=
  ⟨platform, by decide +kernel⟩

/-! ### Wiping -/

/-- Apart from the granules in `but`, what is delegated now has been wiped or was delegated and is untouched. -/
def Clean (but : Nat → Prop) (c c' : Core) : Prop :=
  ∀ x, c'.Has x .delegated → but x ∨ c'.mem x = .raw .zero ∨ c.Has x .delegated ∧ c'.mem x = c.mem x

namespace Clean

omit [Platform]

variable {but but' : Nat → Prop} {content : Content} {state : GranuleState}

theorem setContent : Clean (· = y) c (c.setContent y content) := by
  intro x has
  by_cases same : x = y
  · exact .inl same
  · exact .inr (.inr ⟨has, Core.mem_setContent_of_ne _ same⟩)

/-- What is written while it is in use does not matter. -/
theorem write (clean : Clean but c c') (busy : c'.stateOf y ≠ .delegated) : Clean but c (c'.setContent y content) := by
  intro x has
  have other : x ≠ y := by
    rintro rfl
    exact busy has.2
  rw [Core.mem_setContent_of_ne _ other]
  exact clean x has

/-- A granule that gets another state is exempt no longer. -/
theorem setState (clean : Clean but c c') (valid : validateAddr y = true) (alone : ∀ x, but x → x = y) :
    Clean (fun _ => False) c (setStateCore (granuleAddrToIndex y) state c') := by
  intro x has
  by_cases same : x = y
  · subst same
    have now : state = .delegated := by
      rw [← has.2, stateOf_setState valid valid, if_pos rfl]
    subst now
    exact .inr (.inl (Core.mem_setStateCore_delegated valid))
  · have before : c'.Has x .delegated := by
      refine ⟨has.1, ?_⟩
      rw [← has.2, stateOf_setState valid has.1, if_neg same]
    rw [Core.mem_setStateCore_of_ne _ valid same]
    rcases clean x before with exempt | rest
    · exact absurd (alone x exempt) same
    · exact .inr rest

protected theorem refl (c : Core) : Clean (fun _ => False) c c := fun _ has => .inr (.inr ⟨has, rfl⟩)

end Clean

/-- A move leaves only wiped granules delegated, unless DATA_CREATE has copied in vain. -/
theorem Move.clean (move : Move c₀ cmd c c') (inv : c.Inv) : Clean (fun _ => False) c c' ∨
    ∃ x page, LeavesData c₀ cmd x page ∧ c' = c.setContent x (.raw page) := by
  have table : ∀ {a l p b}, c.forest.node a l p = some b → c.stateOf b ≠ .delegated := fun place => by
    rw [(inv.tables.tables place).2]
    exact nofun
  cases move with
  | write free =>
    refine .inl ((Clean.refl c).write ?_)
    rcases free with state | state <;> rw [state] <;> exact nofun
  | setRd realm _ =>
    refine .inl ((Clean.refl c).write (y := _) ?_)
    rw [(Core.realm?_eq_some.mp realm).2.1]
    exact nofun
  | setRec _ state _ _ =>
    refine .inl ((Clean.refl c).write (y := _) ?_)
    rw [state]
    exact nofun
  | enter _ _ _ _ => exact .inl (Clean.refl c)
  | aux valid _ _ => exact .inl ((Clean.refl c).setState valid nofun)
  | @handOver _ x _ world _ valid _ _ =>
    have marked : Clean (fun _ => False) c (c.setGpt x world) := Clean.refl c
    exact .inl (marked.setState valid nofun)
  | entry here _ _ _ _ _ => exact .inl ((Clean.refl c).write (table here.place))
  | addData here valid _ _ _ _ _ _ =>
    exact .inl ((Clean.setContent.write (table here.place)).setState valid fun _ => id)
  | dropData here names _ _ _ _ =>
    exact .inl (((Clean.refl c).write (table here.place)).setState (here.backed inv names).2.1 nofun)
  | dropTable place _ child _ _ _ _ _ =>
    exact .inl (((Clean.refl c).write (table place)).setState (inv.tables.tables child).1 nofun)
  | split split => exact .inl ((Clean.setContent.write (table split.here.place)).setState split.valid fun _ => id)
  | @newRealm _ a rd _ new =>
    refine .inl fun x has => .inr (.inr ?_)
    have other : x ≠ a := by
      rintro rfl
      exact nomatch new.isRealm.symm.trans has.2
    have inner : ¬rd.IsRoot x := fun root => nomatch (new.isTable x root).symm.trans has.2
    rw [new.mem x other inner]
    exact ⟨⟨has.1, (new.others x has.1 other inner).symm.trans has.2⟩, rfl⟩
  | @endRealm _ a rd ended =>
    refine .inl fun x has => .inr ?_
    by_cases frees : rd.Frees a x
    · exact .inl (ended.freed x frees).2
    · rw [ended.mem x frees]
      exact .inr ⟨⟨has.1, (ended.others x has.1 frees).symm.trans has.2⟩, rfl⟩
  | @newRec _ a r rd rc _ new =>
    refine .inl fun x has => .inr (.inr ?_)
    have other : x ≠ r := by
      rintro rfl
      exact nomatch new.isRec.symm.trans has.2
    have inner : ∀ i < maxRecAuxGranules, x ≠ rc.aux i := by
      rintro i less rfl
      exact nomatch (new.isAux i less).symm.trans has.2
    have before : c₀.stateOf x = .delegated := (new.others x has.1 other inner).symm.trans has.2
    have apart : x ≠ a := by
      rintro rfl
      exact nomatch (Core.realm?_eq_some.mp new.realm).2.1.symm.trans before
    exact ⟨⟨has.1, before⟩, new.mem x other apart⟩
  | @endRec _ r o ended =>
    refine .inl fun x has => .inr ?_
    by_cases same : x = r
    · subst same
      exact .inl (Core.mem_setStateCore_delegated ended.valid)
    · rw [ended.mem_other same]
      refine .inr ⟨⟨has.1, ?_⟩, rfl⟩
      rw [← has.2, ended.stateOf has.1, if_neg same]
  | @metadata _ a m rd page realm _ _ valid state _ _ =>
    obtain ⟨validA, stateA, _⟩ := Core.realm?_eq_some.mp realm
    refine .inl (Clean.write (Clean.setContent.setState valid fun _ => id) ?_)
    rw [stateOf_setState valid validA]
    split
    · exact nofun
    · rw [Core.stateOf_setContent, stateA]
      exact nofun
  | leaveData _ _ leaves => exact .inr ⟨_, _, leaves, rfl⟩

def Page.Blank (page : Page) : Prop := ∀ i < 512, page i = 0

/-- Every delegated granule holds zeros. -/
def Core.Wiped (c : Core) : Prop := ∀ x, c.Has x .delegated → (c.mem x).words.Blank

/-- DATA_CREATE copies no page in vain unless the page holds zeros. -/
def LeavesNothing (c : Core) (cmd : Command) : Prop := ∀ x page, LeavesData c cmd x page → page.Blank

theorem Move.wiped (move : Move c₀ cmd c c') (inv : c.Inv) (nothing : LeavesNothing c₀ cmd) (wiped : c.Wiped) :
    c'.Wiped := by
  rcases move.clean inv with clean | ⟨y, page, leaves, rfl⟩
  · intro x has
    rcases clean x has with exempt | zero | ⟨before, same⟩
    · exact exempt.elim
    · rw [zero]
      exact fun _ _ => rfl
    · rw [same]
      exact wiped x before
  · intro x has
    by_cases same : x = y
    · subst same
      rw [Core.mem_setContent_same]
      exact nothing x page leaves
    · rw [Core.mem_setContent_of_ne _ same]
      exact wiped x has

open Sample in
omit [Platform] in
/-- The descriptor of a realm that has been destroyed is wiped. -/
example : ∃ _ : Platform, ((created.next (.realmDestroy (BitVec.ofNat 64 (bankAt 0)))).core.mem (bankAt 0)).words 0 = 0 :=
  ⟨platform, by decide +kernel⟩

/-! ### The end of a realm -/

/-- An entry that is a table, a valid page or block, or has HIPAS = ASSIGNED. -/
def S2tte.Live (e : Word) (level : Nat) : Prop := isTable e level = true ∨ GivesMemory e level

/-- No entry of a root table of the realm is live. -/
def Core.DeadRoots (c : Core) (rd : Rd) : Prop :=
  ∀ {b}, rd.IsRoot b → ∀ i < 512, ¬S2tte.Live (c.forest.read b i) rd.s2StartingLevel

/-- The granule is a table of the realm at `a` or holds a page of it. -/
def Core.Serves (c : Core) (a x : Nat) : Prop :=
  (∃ l p, c.forest.node a l p = some x) ∨ ∃ g v, c.Page a g v ∧ v.backing? = some x

omit [Platform] in
theorem S2tte.givesMemory_of_backing {e : Word} {level pa : Nat} (backing : (view level e).backing? = some pa) :
    GivesMemory e level := by
  cases meaning : view level e with
  | ram pa =>
    obtain ⟨_, _, _, _, desc⟩ := mapped_of_view meaning
    refine ⟨?_, .inl ((field_eq_iff (by omega) (by omega)).mpr ?_)⟩
    · rw [← Bool.not_eq_true, isTable_iff]
      omega
    · change e.toNat / 1 % 2 = 1
      unfold descNum at desc
      omega
  | assigned pa ripas =>
    obtain ⟨desc, hipas, _⟩ := (isAssigned_iff e).mp (isAssigned_of_view meaning).1
    refine ⟨?_, .inr (hipas_eq.mpr hipas)⟩
    rw [← Bool.not_eq_true, isTable_iff]
    omega
  | table addr => rw [meaning] at backing; exact nomatch backing
  | unassigned ripas => rw [meaning] at backing; exact nomatch backing
  | unassignedNs => rw [meaning] at backing; exact nomatch backing
  | ns pa => rw [meaning] at backing; exact nomatch backing
  | malformed => rw [meaning] at backing; exact nomatch backing

section Dead

variable (realm : c.realm? a = some rd)

include realm

theorem Rd.isRoot_of_node {p : Nat} (found : c.forest.node a rd.s2StartingLevel p = some x) : rd.IsRoot x := by
  rw [← Core.forest_top realm, Forest.node_top, Core.forest_root realm] at found
  split at found
  · cases found
    exact ⟨p, ‹_›, rfl⟩
  · exact nomatch found

variable (dead : c.DeadRoots rd)

include dead

/-- A realm with dead roots has no other tables. -/
theorem Core.DeadRoots.node {l p : Nat} (found : c.forest.node a l p = some x) :
    rd.s2StartingLevel = l ∧ rd.IsRoot x := by
  have top := Core.forest_top realm
  induction l generalizing p x with
  | zero =>
    have level : rd.s2StartingLevel = 0 := by
      have := Forest.top_le_of_node found
      omega
    exact ⟨level, rd.isRoot_of_node realm (by rw [level]; exact found)⟩
  | succ l ih =>
    by_cases level : rd.s2StartingLevel = l + 1
    · exact ⟨level, rd.isRoot_of_node realm (by rw [level]; exact found)⟩
    · -- the entry above it is one of a root table, and is a table
      have below := Forest.top_le_of_node found
      rw [Forest.node_succ (by omega)] at found
      obtain ⟨e, stored, next⟩ := Option.bind_eq_some_iff.mp found
      obtain ⟨b, place, rfl⟩ := Forest.node_of_entry stored
      obtain ⟨rfl, root⟩ := ih place
      rw [Core.forest_next] at next
      split at next
      · exact absurd (.inl ‹_›) (dead root (p % 512) (Nat.mod_lt _ (by omega)))
      · exact nomatch next

/-- A realm with dead roots needs no granules but its root tables. -/
theorem Core.DeadRoots.serves (serves : c.Serves a x) : rd.IsRoot x := by
  rcases serves with ⟨l, p, found⟩ | ⟨g, v, ⟨l, e, leaf, rfl⟩, backing⟩
  · exact (dead.node realm found).2
  · obtain ⟨b, place, rfl⟩ := Forest.node_of_entry leaf.stored
    obtain ⟨rfl, root⟩ := dead.node realm place
    have live : S2tte.GivesMemory (c.forest.read b (g / 512 ^ (3 - rd.s2StartingLevel) % 512)) rd.s2StartingLevel := by
      cases meaning : S2tte.view rd.s2StartingLevel (c.forest.read b (g / 512 ^ (3 - rd.s2StartingLevel) % 512)) with
      | ram pa => exact S2tte.givesMemory_of_backing (by rw [meaning]; rfl)
      | assigned pa ripas => exact S2tte.givesMemory_of_backing (by rw [meaning]; rfl)
      | _ => rw [meaning] at backing; exact nomatch backing
    exact absurd (.inr live) (dead root _ (Nat.mod_lt _ (by omega)))

end Dead

end Islet.Rmm
