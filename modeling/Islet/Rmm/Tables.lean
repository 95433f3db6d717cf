import Islet.Rmm.Execution

/-! Moves from the side of the translation tables. A move leaves the tables of all realms
alone, writes one entry of one of them, or creates or ends a realm; what becomes of a page
and of an entry is read off that. -/

namespace Islet.Rmm

open Lib Prog Bits Rmi Stage2Translation

variable [Platform] {c₀ c c' : Core} {cmd : Command} {a g : Nat} {rd : Rd}

/-- What an entry that is written over may become. -/
structure Rewrites (c₀ : Core) (cmd : Command) (c : Core) (a l p b i : Nat) (v : Word) : Prop where
  here : LeafAt c a l p b i
  plain : S2tte.isTable v l = false
  backing : (S2tte.view l v).backing? = none ∨
    (S2tte.view l v).backing? = (S2tte.view l (c.forest.read b i)).backing? ∨
    c = c₀ ∧ (S2tte.view l (c.forest.read b i)).backing? = none
  retypes : ∀ {rd g}, c.realm? a = some rd → Below l p i g →
    Retypes c₀ cmd a g rd (S2tte.view l (c.forest.read b i)) (S2tte.view l v)
  blocks : l ≤ 1 → (S2tte.view l (c.forest.read b i)).Vacant → (S2tte.view l v).Vacant ∨ MapsBlock cmd

/-- What may take the place of a table. -/
structure Collapses (c₀ : Core) (cmd : Command) (c : Core) (a l p b i : Nat) (v : Word) : Prop where
  place : c.forest.node a l p = some b
  index : i < 512
  plain : S2tte.isTable v l = false
  kept : ∀ {g pa}, Below l p i g → ((S2tte.view l v).at_ (g % 512 ^ (3 - l))).backing? = some pa →
    ∃ w, c.Page a g w ∧ w.backing? = some pa
  retypes : ∀ {rd g w}, c.realm? a = some rd → Below l p i g → c.Page a g w →
    Retypes c₀ cmd a g rd w (S2tte.view l v)
  blocks : l ≤ 1 → (S2tte.view l v).Vacant ∨ FoldsBlocks c₀ cmd

/-- A move from the side of the tables. -/
inductive TableMove (c₀ : Core) (cmd : Command) (c c' : Core) : Prop where
  | same (same : SameForest c c')
  | rewrite {c₁ : Core} {a l p b i : Nat} {v : Word} (same : SameForest c c₁) (written : Written c₁ c' b i v)
    (rewrites : Rewrites c₀ cmd c a l p b i v)
  | collapse {a l p b i : Nat} {v : Word} (written : Written c c' b i v) (collapses : Collapses c₀ cmd c a l p b i v)
  | split {a l p b i r : Nat} {page : Page} (split : Split c a l p b i r page) (eq : c' = splitCore c b i r page)
  | newRealm {a : Nat} {rd : Rd} (start : c = c₀) (new : NewRealm c c' a rd)
  | endRealm {a : Nat} {rd : Rd} (ended : EndRealm c c' a rd)

theorem Calm.sameForest (calm : Calm c c') (inv : c.Inv) : SameForest c c' := calm.sameOwners.sameForest inv.tables

/-- A granule in one of these states is no part of any realm's tables. -/
def Unowned (state : GranuleState) : Prop := state ≠ .rd ∧ state ≠ .rtt ∧ state ≠ .data

instance (state : GranuleState) : Decidable (Unowned state) := inferInstanceAs (Decidable (_ ∧ _))

theorem sameForest_setState {x : Nat} {state : GranuleState} (inv : c.Inv) (valid : validateAddr x = true)
    (old : Unowned (c.stateOf x)) (new : state ≠ .rd) :
    SameForest c (setStateCore (granuleAddrToIndex x) state c) :=
  (sameOwners_setState valid old.1 new old.2.1 old.2.2).sameForest inv.tables

theorem sameForest_setContent {x : Nat} {content : Content} (inv : c.Inv) (old : Unowned (c.stateOf x)) :
    SameForest c (c.setContent x content) :=
  (sameOwners_setContent old.1 old.2.1).sameForest inv.tables

theorem Move.tables (move : Move c₀ cmd c c') (inv : c.Inv) : TableMove c₀ cmd c c' := by
  cases move with
  | write free => exact .same ((Calm.setContent free).sameForest inv)
  | setRd realm step => exact .same (((Calm.setRd realm step.layout.1 step.layout.2).emits _).sameForest inv)
  | setRec _ state _ fixed =>
    exact .same (((Calm.setRec state fixed.owner fixed.aux fixed.ripas).emits _).sameForest inv)
  | enter _ _ _ _ => exact .same (((Calm.refl c).emits _).sameForest inv)
  | aux valid old new =>
    refine .same (sameForest_setState inv valid ?_ ?_)
    · rcases old with state | state <;> rw [state] <;> decide
    · rcases new with rfl | rfl <;> exact nofun
  | @handOver _ x state world _ valid old new =>
    have idle : Unowned (c.stateOf x) := by
      rcases old with state | state <;> rw [state] <;> decide
    have realm : state ≠ .rd := by
      rcases new with ⟨rfl, _⟩ | ⟨rfl, _⟩ <;> exact nofun
    have gpt : SameOwners c (c.setGpt x world) := ⟨fun _ => rfl, fun _ _ table => ⟨table, rfl⟩, fun _ _ data => data⟩
    have state := sameOwners_setState (c := c.setGpt x world) valid idle.1 realm idle.2.1 idle.2.2
    exact .same ((gpt.sameForest inv.tables).trans (state.sameForest (inv.tables.of_same gpt)))
  | entry here plain _ backing retypes blocks =>
    have table := (inv.tables.tables here.place).2
    exact .rewrite (.refl c) (written_storePte (by rw [table]; exact nofun))
      ⟨here, plain, backing.imp_right .inl, retypes, blocks⟩
  | @addData a p b i x v content here valid state plain _ _ vacant retypes =>
    have idle : Unowned (c₀.stateOf x) := by
      rw [state]
      decide
    have same := @sameForest_setContent _ c₀ x content inv idle
    have inv' : (c₀.setContent x content).Inv := inv.setContent idle.1 idle.2.1 (by rw [state]; exact nofun)
    obtain ⟨leaf, _⟩ := here.setContent content inv state
    exact .rewrite same (inv'.written_leaf leaf.place leaf.index plain valid idle.1 idle.2.1 nofun)
      ⟨here, plain, .inr (.inr ⟨rfl, vacant⟩), retypes, fun low => absurd low (by omega)⟩
  | dropData here names plain _ none retypes =>
    obtain ⟨_, valid, state⟩ := here.backed inv names
    have written := inv.written_leaf here.place here.index plain valid (by rw [state]; exact nofun)
      (by rw [state]; exact nofun) (show GranuleState.delegated ≠ .rd from nofun)
    exact .rewrite (.refl c) written ⟨here, plain, .inl none, retypes, fun low => absurd low (by omega)⟩
  | dropTable place index child plain _ kept retypes blocks =>
    exact .collapse (inv.written_table place index child plain) ⟨place, index, plain, kept, retypes, blocks⟩
  | split split => exact .split split rfl
  | newRealm _ new => exact .newRealm rfl new
  | endRealm ended => exact .endRealm ended
  | newRec _ new => exact .same (new.sameOwners.sameForest inv.tables)
  | endRec ended => exact .same (ended.sameOwners.sameForest inv.tables)
  | @metadata _ a m rd page realm _ _ valid state _ _ =>
    have idle : Unowned (c.stateOf m) := by
      rw [state]
      decide
    have inv₁ : (c.setContent m (.raw page)).Inv := inv.setContent idle.1 idle.2.1 (by rw [state]; exact nofun)
    have inv₂ := inv₁.toMetadata valid state
    have other : GranuleState.metadata ≠ .rd := nofun
    have realm₂ : (setStateCore (granuleAddrToIndex m) .metadata (c.setContent m (.raw page))).realm? a = some rd := by
      rw [realm?_setState valid (show (c.setContent m (.raw page)).stateOf m ≠ .rd from idle.1) other,
        realm?_setContent idle.1, realm]
    have layout : ({ rd with metadata := some m } : Rd).layout = rd.layout := rfl
    exact .same (((sameForest_setContent inv idle).trans (sameForest_setState inv₁ valid idle other)).trans
      ((sameOwners_setRd realm₂ layout).sameForest inv₂.tables))
  | leaveData _ state _ =>
    refine .same (sameForest_setContent inv ?_)
    rw [state]
    decide

/-! ### Pages -/

/-- The tables say something about every page below a table. -/
theorem exists_page {l p b : Nat} (inv : c.Inv) (place : c.forest.node a l p = some b) (below : g / 512 ^ (3 - l) / 512 = p) :
    ∃ w, c.Page a g w := by
  obtain ⟨_, _, _, high⟩ := inv.realms.realm_of_node place
  subst below
  obtain ⟨l', e, _, leaf⟩ := c.forest.exists_leaf_of_node (Core.forest_next_bottom · (Nat.le_refl 3)) high place
  exact ⟨_, l', e, leaf, rfl⟩

/-- Where the view of a page comes from. -/
inductive PageMove (c₀ : Core) (cmd : Command) (a g : Nat) (c : Core) (w' : View) : Prop where
  | old {w : View} (page : c.Page a g w)
    (retypes : ∀ {rd}, c.realm? a = some rd → Retypes c₀ cmd a g rd w w')
    (backing : w'.backing? = none ∨ w'.backing? = w.backing? ∨ c = c₀ ∧ w.backing? = none)
  | created (start : c = c₀) (before : c.realm? a = none)

theorem PageMove.same {w : View} (page : c.Page a g w) : PageMove c₀ cmd a g c w :=
  .old page (fun _ _ => .inl rfl) (.inr (.inl rfl))

theorem TableMove.page {w : View} (move : TableMove c₀ cmd c c') (inv : c.Inv) (page : c'.Page a g w) :
    PageMove c₀ cmd a g c w := by
  cases move with
  | same same => exact .same (same.page_iff.mp page)
  | @rewrite c₁ b l p d i v same written rewrites =>
    obtain ⟨here, plain, backing, retypes, _⟩ := rewrites
    obtain ⟨_, _, _, high⟩ := inv.realms.realm_of_node here.place
    have place : c₁.forest.node b l p = some d := (same.node_eq b l p).trans here.place
    rcases written.page_cases (same.exclusive inv.tables.exclusive) place here.index plain high page with
      ⟨rfl, below, rfl⟩ | ⟨_, before⟩
    · refine .old (here.page inv.realms below) (fun realm inside => ?_) ?_
      · rw [View.ripas_at, View.ripas_at]
        exact retypes realm below inside
      · rw [backing_at, backing_at]
        rcases backing with none | same | ⟨start, none⟩
        · exact .inl (by rw [none]; rfl)
        · exact .inr (.inl (by rw [same]))
        · exact .inr (.inr ⟨start, by rw [none]; rfl⟩)
    · exact .same (same.page_iff.mp before)
  | @collapse b l p d i v written collapses =>
    obtain ⟨place, index, plain, kept, retypes, _⟩ := collapses
    obtain ⟨_, _, _, high⟩ := inv.realms.realm_of_node place
    rcases written.page_cases inv.tables.exclusive place index plain high page with ⟨rfl, below, rfl⟩ | ⟨_, before⟩
    · obtain ⟨w, before⟩ := exists_page inv place (g := g) (by rw [below]; omega)
      refine .old before (fun realm inside => ?_) ?_
      · rw [View.ripas_at]
        exact retypes realm below before inside
      · cases found : ((S2tte.view l v).at_ (g % 512 ^ (3 - l))).backing? with
        | none => exact .inl rfl
        | some pa =>
          obtain ⟨w', before', names⟩ := kept below found
          cases before.unique before'
          exact .inr (.inl names.symm)
    · exact .same before
  | split split eq =>
    subst eq
    exact .same (split.page_iff inv page)
  | @newRealm b rd start new =>
    by_cases same : a = b
    · subst same
      refine .created start (Option.eq_none_iff_forall_ne_some.mpr fun rd' realm => ?_)
      exact nomatch new.state.symm.trans (Core.realm?_eq_some.mp realm).2.1
    · exact .same ((new.page_other inv.tables same).mp page)
  | endRealm ended => exact .same (ended.page_cases inv page).2

end Islet.Rmm
