import Islet.Rmm.Invariant

/-! The changes of state that commands are made of, and that each of them keeps
the invariant: state changes of single granules, written entries, new and dropped
tables, granules that come to back a page or cease to. -/

namespace Islet.Rmm

open Lib Bits Rmi Stage2Translation

variable [Platform]

/-! ### State changes of one granule -/

section SetState

variable {c : Core} {x : Nat} {state : GranuleState} (valid : validateAddr x = true)

include valid

omit [Platform] in
/-- The states after a change, for granules of the table. -/
theorem stateOf_setState {b : Nat} (validB : validateAddr b = true) :
    (setStateCore (granuleAddrToIndex x) state c).stateOf b = if b = x then state else c.stateOf b := by
  split
  · rename_i same
    rw [same, Core.stateOf_setStateCore_same]
  · rename_i other
    exact Core.stateOf_setStateCore_of_ne state valid validB other

theorem realm?_setState (old : c.stateOf x ≠ .rd) (new : state ≠ .rd) (b : Nat) :
    (setStateCore (granuleAddrToIndex x) state c).realm? b = c.realm? b := by
  unfold Core.realm?
  by_cases validB : validateAddr b = true
  · rw [stateOf_setState valid validB]
    split
    · rename_i equal
      subst equal
      rw [if_neg (fun both => new both.2), if_neg (fun both => old both.2)]
    · rename_i other
      rw [Core.mem_setStateCore_of_ne state valid other]
  · rw [if_neg (fun both => validB both.1), if_neg (fun both => validB both.1)]

theorem sameRealms_setState (old : c.stateOf x ≠ .rd) (new : state ≠ .rd) :
    SameRealms c (setStateCore (granuleAddrToIndex x) state c) :=
  fun b => by rw [realm?_setState valid old new]

theorem sameRecs_setState (old : c.stateOf x ≠ .recCtx) (new : state ≠ .recCtx) :
    SameRecs c (setStateCore (granuleAddrToIndex x) state c) := by
  have mem : ∀ b, c.stateOf b = .recCtx →
      (setStateCore (granuleAddrToIndex x) state c).mem b = c.mem b := by
    intro b isRec
    apply Core.mem_setStateCore_of_ne state valid
    rintro rfl
    exact old isRec
  constructor
  · intro b validB
    rw [stateOf_setState valid validB]
    split
    · rename_i same
      subst same
      exact ⟨fun isRec => absurd isRec new, fun isRec => absurd isRec old⟩
    · exact Iff.rfl
  · intro b _ isRec
    rw [mem b isRec]
  · intro b _ isRec
    rw [mem b isRec]
  · intro b _ isRec
    rw [mem b isRec]
    exact id

theorem sameOwners_setState (realm : c.stateOf x ≠ .rd) (realm' : state ≠ .rd)
    (table : c.stateOf x ≠ .rtt) (data : c.stateOf x ≠ .data) :
    SameOwners c (setStateCore (granuleAddrToIndex x) state c) := by
  refine ⟨sameRealms_setState valid realm realm', ?_, ?_⟩
  · intro b validB isTable
    have other : b ≠ x := by
      rintro rfl
      exact table isTable
    rw [stateOf_setState valid validB, if_neg other, Core.mem_setStateCore_of_ne state valid other]
    exact ⟨isTable, rfl⟩
  · intro b validB isData
    have other : b ≠ x := by
      rintro rfl
      exact data isData
    rw [stateOf_setState valid validB, if_neg other]
    exact isData

omit [Platform] in
theorem Core.GptInv.setState (inv : c.GptInv) (old : c.stateOf x ≠ .undelegated)
    (new : state ≠ .undelegated) : (setStateCore (granuleAddrToIndex x) state c).GptInv := by
  refine inv.of_same ?_ fun b => Core.gptOf_setStateCore state
  intro b validB
  rw [stateOf_setState valid validB]
  split
  · rename_i same
    subst same
    exact ⟨fun isNs => absurd isNs new, fun isNs => absurd isNs old⟩
  · exact Iff.rfl

theorem Core.CountInv.setState (inv : c.CountInv) (recs : c.stateOf x ≠ .recCtx)
    (recs' : state ≠ .recCtx) (realm : c.stateOf x ≠ .rd) :
    (setStateCore (granuleAddrToIndex x) state c).CountInv := by
  refine inv.of_same (sameRecs_setState valid recs recs') (fun b => Core.refCount_setStateCore state) ?_
  intro b validB notRealm
  rw [stateOf_setState valid validB] at notRealm
  split at notRealm
  · rename_i same
    subst same
    exact realm
  · exact notRealm

theorem Core.MetadataInv.setState (inv : c.MetadataInv) (realm : c.stateOf x ≠ .rd)
    (realm' : state ≠ .rd) (notMeta : c.stateOf x ≠ .metadata) :
    (setStateCore (granuleAddrToIndex x) state c).MetadataInv := by
  refine inv.of_same (fun b => by rw [realm?_setState valid realm realm']) ?_
  intro m validM isMeta
  rw [stateOf_setState valid validM, if_neg]
  · exact isMeta
  · rintro rfl
    exact notMeta isMeta

theorem Core.RealmInv.setState (inv : c.RealmInv) (realm : c.stateOf x ≠ .rd) (realm' : state ≠ .rd) :
    (setStateCore (granuleAddrToIndex x) state c).RealmInv :=
  inv.of_same (sameRealms_setState valid realm realm') (Core.rttTables_setStateCore state)
    (Core.vmidSet_setStateCore state)

/-- Auxiliary granules come and go without touching anything else. -/
theorem Core.Inv.setAux (inv : c.Inv) (old : c.stateOf x = .delegated ∨ c.stateOf x = .recAux)
    (new : state = .delegated ∨ state = .recAux) :
    (setStateCore (granuleAddrToIndex x) state c).Inv := by
  have apart : ∀ st, st ≠ .delegated → st ≠ .recAux → c.stateOf x ≠ st ∧ state ≠ st := by
    intro st notDelegated notAux
    constructor
    · rintro rfl
      rcases old with same | same
      · exact notDelegated same
      · exact notAux same
    · rintro rfl
      rcases new with same | same
      · exact notDelegated same
      · exact notAux same
  obtain ⟨realm, realm'⟩ := apart .rd nofun nofun
  obtain ⟨recs, recs'⟩ := apart .recCtx nofun nofun
  obtain ⟨gpt, gpt'⟩ := apart .undelegated nofun nofun
  exact ⟨inv.realms.setState valid realm realm',
    inv.metadata.setState valid realm realm' (apart .metadata nofun nofun).1,
    inv.tables.of_same (sameOwners_setState valid realm realm' (apart .rtt nofun nofun).1
      (apart .data nofun nofun).1),
    inv.recs.of_same (sameRecs_setState valid recs recs'), inv.gpt.setState valid gpt gpt',
    inv.counts.setState valid recs recs' realm⟩

end SetState

/-! ### Delegation -/

/-- EL3 moves a granule to another world. -/
def Core.setGpt (c : Core) (x : Nat) (world : GranuleGpt) : Core :=
  { c with gpt := Function.update c.gpt (granuleAddrToIndex x) world }

/-- A granule changes hands between the host and the monitor: the protection table
and the granule's state change together. -/
theorem Core.Inv.handOver {c : Core} {x : Nat} {state : GranuleState} {world : GranuleGpt} (inv : c.Inv)
    (valid : validateAddr x = true) (old : c.stateOf x = .undelegated ∨ c.stateOf x = .delegated)
    (new : state = .undelegated ∧ world ≠ .realm ∨ state = .delegated ∧ world = .realm) :
    (setStateCore (granuleAddrToIndex x) state (c.setGpt x world)).Inv := by
  have apart : ∀ st, st ≠ .undelegated → st ≠ .delegated → (c.setGpt x world).stateOf x ≠ st ∧
      state ≠ st := by
    intro st notUndelegated notDelegated
    constructor
    · rintro rfl
      rcases old with same | same
      · exact notUndelegated same
      · exact notDelegated same
    · rintro rfl
      rcases new with ⟨same, _⟩ | ⟨same, _⟩
      · exact notUndelegated same
      · exact notDelegated same
  obtain ⟨realm, realm'⟩ := apart .rd nofun nofun
  obtain ⟨recs, recs'⟩ := apart .recCtx nofun nofun
  have sameRecs : SameRecs c (c.setGpt x world) :=
    ⟨fun _ _ => Iff.rfl, fun _ _ _ => rfl, fun _ _ _ => rfl, fun _ _ _ => id⟩
  have realms : (c.setGpt x world).RealmInv := inv.realms.of_same (fun _ => rfl) rfl rfl
  have metadata : (c.setGpt x world).MetadataInv := inv.metadata.of_same (fun _ => rfl) fun _ _ => id
  have tables : (c.setGpt x world).TableInv :=
    inv.tables.of_same ⟨fun _ => rfl, fun _ _ state => ⟨state, rfl⟩, fun _ _ => id⟩
  refine ⟨realms.setState valid realm realm',
    metadata.setState valid realm realm' (apart .metadata nofun nofun).1,
    tables.of_same
      (sameOwners_setState valid realm realm' (apart .rtt nofun nofun).1 (apart .data nofun nofun).1),
    (inv.recs.of_same sameRecs).of_same (sameRecs_setState valid recs recs'), ?_,
    (inv.counts.of_same sameRecs (fun _ => rfl) fun _ _ => id).setState valid recs recs' realm⟩
  intro b validB
  rw [stateOf_setState valid validB, Core.gptOf_setStateCore]
  by_cases same : b = x
  · subst same
    rw [if_pos rfl]
    have world' : (c.setGpt b world).gptOf b = world := by simp [Core.setGpt, Core.gptOf]
    rw [world']
    rcases new with ⟨rfl, away⟩ | ⟨rfl, rfl⟩
    · exact ⟨fun _ => away, fun _ => rfl⟩
    · exact ⟨nofun, fun away => absurd rfl away⟩
  · rw [if_neg same]
    have apart : granuleAddrToIndex b ≠ granuleAddrToIndex x :=
      fun equal => same ((granuleAddrToIndex_inj validB valid).mp equal)
    have world' : (c.setGpt x world).gptOf b = c.gptOf b := by simp [Core.setGpt, Core.gptOf, apart]
    rw [world']
    exact inv.gpt b validB

/-! ### Written entries -/

section Entry

variable {c c' : Core} {a l p b i : Nat} {v : Word}

/-- The numbers of the pages below the entry `i` of a table. -/
def Below (l p i g : Nat) : Prop := g / 512 ^ (3 - l) = p * 512 + i

/-- What a plain write must bring along for the invariant of tables. -/
structure PlainWrite (c c' : Core) (a l p b i : Nat) (v : Word) : Prop where
  written : Written c c' b i v
  place : c.forest.node a l p = some b
  index : i < 512
  plain : S2tte.isTable v l = false
  fits : ∀ {rd g}, c.realm? a = some rd → Below l p i g → rd.Fits g (S2tte.view l v)
  /-- Granules that the entry names are Data, and no page elsewhere has them. -/
  backed : ∀ {g pa}, Below l p i g →
    ((S2tte.view l v).at_ (g % 512 ^ (3 - l))).backing? = some pa →
    (validateAddr pa = true ∧ c'.stateOf pa = .data) ∧
      ∀ {a' g' w}, c.Page a' g' w → w.backing? = some pa → a' = a ∧ Below l p i g'
  tables : ∀ {a' l' p' d}, c'.forest.node a' l' p' = some d → c'.stateOf d = .rtt
  data : ∀ {a' g w pa}, c.Page a' g w → ¬(a' = a ∧ Below l p i g) → w.backing? = some pa →
    c'.stateOf pa = .data

omit [Platform] in
/-- Different pages of a block have different granules. -/
theorem backing_at_inj {w : View} {j k pa : Nat} (left : (w.at_ j).backing? = some pa)
    (right : (w.at_ k).backing? = some pa) : j = k := by
  cases w with
  | assigned base ripas =>
    simp only [View.at_, View.backing?, Option.some.injEq] at left right
    omega
  | ram base =>
    simp only [View.at_, View.backing?, Option.some.injEq] at left right
    omega
  | table addr => cases left
  | unassigned ripas => cases left
  | unassignedNs => cases left
  | ns base => cases left
  | malformed => cases left

omit [Platform] in
theorem page_eq_of_block {k g g' q : Nat} (left : g / k = q) (right : g' / k = q)
    (offset : g % k = g' % k) : g = g' := by
  rw [← Nat.div_add_mod g k, ← Nat.div_add_mod g' k, left, right, offset]

theorem PlainWrite.tableInv (write : PlainWrite c c' a l p b i v) (realms : c.RealmInv)
    (inv : c.TableInv) : c'.TableInv := by
  obtain ⟨rd, realm, _, bound⟩ := realms.realm_of_node write.place
  have cases : ∀ {a' g w}, c'.Page a' g w →
      (a' = a ∧ Below l p i g ∧ w = (S2tte.view l v).at_ (g % 512 ^ (3 - l))) ∨
        ¬(a' = a ∧ Below l p i g) ∧ c.Page a' g w := fun page =>
    write.written.page_cases inv.exclusive write.place write.index write.plain bound page
  constructor
  · exact write.written.exclusive_plain inv.exclusive write.place write.index write.plain
  · intro a' l' p' d found
    have old := write.written.node_of_plain inv.exclusive write.place write.index write.plain found
    exact ⟨(inv.tables old).1, write.tables found⟩
  · intro a' l' q e stored table
    rcases write.written.entry_of_plain inv.exclusive write.place write.index write.plain stored with
      ⟨_, rfl, _, rfl⟩ | old
    · rw [write.plain] at table
      exact nomatch table
    · exact inv.plain old table
  · intro a' g w rd' realm' page
    obtain ⟨old, here, layout⟩ := SameRealms.back write.written.realms realm'
    rw [Rd.fits_of_layout layout]
    rcases cases page with ⟨rfl, below, rfl⟩ | ⟨_, before⟩
    · rw [Rd.fits_at]
      exact write.fits here below
    · exact inv.pages here before
  · intro a' g w pa page backing
    rcases cases page with ⟨rfl, below, rfl⟩ | ⟨outside, before⟩
    · exact (write.backed below backing).1
    · exact ⟨(inv.backed before backing).1, write.data before outside backing⟩
  · intro a₁ a₂ g₁ g₂ w₁ w₂ pa page₁ page₂ backing₁ backing₂
    rcases cases page₁ with ⟨rfl, below₁, rfl⟩ | ⟨outside₁, before₁⟩
    · rcases cases page₂ with ⟨rfl, below₂, rfl⟩ | ⟨outside₂, before₂⟩
      · exact ⟨rfl, page_eq_of_block below₁ below₂ (backing_at_inj backing₁ backing₂)⟩
      · exact absurd ((write.backed below₁ backing₁).2 before₂ backing₂) outside₂
    · rcases cases page₂ with ⟨rfl, below₂, rfl⟩ | ⟨outside₂, before₂⟩
      · exact absurd ((write.backed below₂ backing₂).2 before₁ backing₁) outside₁
      · exact inv.backed_inj before₁ before₂ backing₁ backing₂

omit [Platform] in
theorem backing_at (w : View) (k : Nat) : (w.at_ k).backing? = w.backing?.map (· + 4096 * k) := by
  cases w <;> rfl

theorem SameRealms.trans {c₁ c₂ c₃ : Core} (first : SameRealms c₁ c₂) (second : SameRealms c₂ c₃) :
    SameRealms c₁ c₃ :=
  fun a => (second a).trans (first a)

theorem read_storePte (d j : Nat) :
    (storePte ⟨b, i⟩ v c).forest.read d j = (c.forest.write b i v).read d j := by
  change ((c.setContent b _).mem d).words j = if d = b ∧ j = i then v else (c.mem d).words j
  by_cases same : d = b
  · subst same
    rw [Core.mem_setContent_same, Content.words_raw]
    by_cases index : j = i
    · subst index
      simp
    · simp [index]
  · rw [Core.mem_setContent_of_ne _ same, if_neg (fun both => same both.1)]

/-- Storing a descriptor in a table. -/
theorem written_storePte (state : c.stateOf b ≠ .rd) : Written c (storePte ⟨b, i⟩ v c) b i v :=
  ⟨sameRealms_setContent state, fun _ _ _ d _ j => read_storePte d j⟩

/-- Storing a descriptor and changing the state of a granule that is then no table. -/
theorem written_setState {x : Nat} {state : GranuleState} (table : c.stateOf b ≠ .rd)
    (valid : validateAddr x = true) (realm : c.stateOf x ≠ .rd) (realm' : state ≠ .rd)
    (apart : ∀ a l p, (c.forest.write b i v).node a l p ≠ some x) :
    Written c (setStateCore (granuleAddrToIndex x) state (storePte ⟨b, i⟩ v c)) b i v := by
  refine ⟨SameRealms.trans (sameRealms_setContent table) (sameRealms_setState valid realm realm'), ?_⟩
  intro a l p d found j
  have other : d ≠ x := by
    rintro rfl
    exact apart a l p found
  rw [← read_storePte]
  change ((setStateCore _ _ _).mem d).words j = _
  rw [Core.mem_setStateCore_of_ne state valid other]
  rfl

/-- A leaf entry and the pages below it. -/
structure LeafAt (c : Core) (a l p b i : Nat) : Prop where
  place : c.forest.node a l p = some b
  index : i < 512
  leaf : S2tte.isTable (c.forest.read b i) l = false

theorem LeafAt.page {g : Nat} (here : LeafAt c a l p b i) (realms : c.RealmInv)
    (below : Below l p i g) :
    c.Page a g ((S2tte.view l (c.forest.read b i)).at_ (g % 512 ^ (3 - l))) := by
  obtain ⟨_, _, _, bound⟩ := realms.realm_of_node here.place
  exact .of_entry (Forest.entry_of_node here.place here.index) here.leaf bound below

/-- The parts of the invariant that no change of tables and Data granules touches. -/
theorem Core.Inv.of_store (inv : c.Inv) (table : c.stateOf b = .rtt)
    (tables : (storePte ⟨b, i⟩ v c).TableInv) : (storePte ⟨b, i⟩ v c).Inv := by
  have realm : c.stateOf b ≠ .rd := by rw [table]; exact nofun
  have recs : SameRecs c (storePte ⟨b, i⟩ v c) := sameRecs_setContent (by rw [table]; exact nofun)
  exact ⟨inv.realms.of_same (sameRealms_setContent realm) rfl rfl,
    inv.metadata.of_same (sameMetadata_setContent realm) fun _ _ => id, tables,
    inv.recs.of_same recs, inv.gpt.of_same (fun _ _ => Iff.rfl) fun _ => rfl,
    inv.counts.of_same recs (fun _ => rfl) fun _ _ => id⟩

/-- A leaf entry is replaced by one that names no new granule. -/
theorem Core.Inv.setEntry (inv : c.Inv) (here : LeafAt c a l p b i) (plain : S2tte.isTable v l = false)
    (fits : ∀ {rd g}, c.realm? a = some rd → Below l p i g → rd.Fits g (S2tte.view l v))
    (backing : (S2tte.view l v).backing? = none ∨
      (S2tte.view l v).backing? = (S2tte.view l (c.forest.read b i)).backing?) :
    (storePte ⟨b, i⟩ v c).Inv := by
  have table := (inv.tables.tables here.place).2
  have written : Written c (storePte ⟨b, i⟩ v c) b i v :=
    written_storePte (by rw [table]; exact nofun)
  apply inv.of_store table
  refine PlainWrite.tableInv ⟨written, here.place, here.index, plain, fits, ?_, ?_, ?_⟩ inv.realms
    inv.tables
  · intro g pa below named
    rcases backing with none | same
    · rw [backing_at, none] at named
      exact nomatch named
    · rw [backing_at, same, ← backing_at] at named
      have page := here.page inv.realms below
      refine ⟨inv.tables.backed page named, ?_⟩
      intro a' g' w other named'
      obtain ⟨rfl, rfl⟩ := inv.tables.backed_inj other page named' named
      exact ⟨rfl, below⟩
  · intro a' l' p' d found
    have old := written.node_of_plain inv.tables.exclusive here.place here.index plain found
    exact (inv.tables.tables old).2
  · intro a' g w pa page _ named
    exact (inv.tables.backed page named).2

/-- States of granules that are realm memory or about to be. -/
def Pooled (state : GranuleState) : Prop := state = .delegated ∨ state = .data ∨ state = .rtt

omit [Platform] in
theorem Pooled.ne {state other : GranuleState} (pooled : Pooled state) (apart : ¬Pooled other) :
    state ≠ other := by
  rintro rfl
  exact apart pooled

theorem Core.Inv.of_storeState {x : Nat} {state : GranuleState} (inv : c.Inv)
    (table : c.stateOf b = .rtt) (valid : validateAddr x = true) (old : Pooled (c.stateOf x))
    (new : Pooled state)
    (tables : (setStateCore (granuleAddrToIndex x) state (storePte ⟨b, i⟩ v c)).TableInv) :
    (setStateCore (granuleAddrToIndex x) state (storePte ⟨b, i⟩ v c)).Inv := by
  have realm : c.stateOf b ≠ .rd := by rw [table]; exact nofun
  have stored : SameRecs c (storePte ⟨b, i⟩ v c) := sameRecs_setContent (by rw [table]; exact nofun)
  have apart : ∀ st, ¬Pooled st → c.stateOf x ≠ st ∧ state ≠ st :=
    fun st away => ⟨old.ne away, new.ne away⟩
  obtain ⟨rd, rd'⟩ := apart .rd (by simp [Pooled])
  obtain ⟨recs, recs'⟩ := apart .recCtx (by simp [Pooled])
  obtain ⟨gpt, gpt'⟩ := apart .undelegated (by simp [Pooled])
  exact ⟨(inv.realms.of_same (sameRealms_setContent realm) rfl rfl).setState valid rd rd',
    (inv.metadata.of_same (sameMetadata_setContent realm) fun _ _ => id).setState valid rd rd'
      (apart .metadata (by simp [Pooled])).1,
    tables, (inv.recs.of_same stored).of_same (sameRecs_setState valid recs recs'),
    (inv.gpt.of_same (fun _ _ => Iff.rfl) fun _ => rfl).setState valid gpt gpt',
    (inv.counts.of_same stored (fun _ => rfl) fun _ _ => id).setState valid recs recs' rd⟩

omit [Platform] in
theorem stateOf_storeState [Platform] {x y : Nat} {state : GranuleState} (valid : validateAddr x = true)
    (validY : validateAddr y = true) :
    (setStateCore (granuleAddrToIndex x) state (storePte ⟨b, i⟩ v c)).stateOf y =
      if y = x then state else c.stateOf y :=
  stateOf_setState valid validY

/-- An entry is written while a granule that is no table and no realm changes its state. -/
theorem Core.Inv.written_leaf {x : Nat} {state : GranuleState} (inv : c.Inv) (place : c.forest.node a l p = some b)
    (index : i < 512) (plain : S2tte.isTable v l = false) (valid : validateAddr x = true)
    (realm : c.stateOf x ≠ .rd) (notTable : c.stateOf x ≠ .rtt) (realm' : state ≠ .rd) :
    Written c (setStateCore (granuleAddrToIndex x) state (storePte ⟨b, i⟩ v c)) b i v := by
  obtain ⟨_, table⟩ := inv.tables.tables place
  refine written_setState (by rw [table]; exact nofun) valid realm realm' fun a' l' p' found => ?_
  exact inv.tables.not_table notTable
    (Forest.node_of_write_plain inv.tables.exclusive place index (forest_next_none plain) found)

/-- An entry takes the place of a table, whose granule changes its state. -/
theorem Core.Inv.written_table {r : Nat} (inv : c.Inv) (place : c.forest.node a l p = some b)
    (index : i < 512) (child : c.forest.node a (l + 1) (p * 512 + i) = some r)
    (plain : S2tte.isTable v l = false) :
    Written c (setStateCore (granuleAddrToIndex r) .delegated (storePte ⟨b, i⟩ v c)) b i v := by
  obtain ⟨_, table⟩ := inv.tables.tables place
  obtain ⟨valid, state⟩ := inv.tables.tables child
  refine written_setState (by rw [table]; exact nofun) valid (by rw [state]; exact nofun) nofun
    fun a' l' p' found => ?_
  have plain := forest_next_none (c := c) plain
  obtain ⟨rfl, rfl, rfl⟩ := inv.tables.exclusive
    (Forest.node_of_write_plain inv.tables.exclusive place index plain found) child
  rw [Forest.node_write_under inv.tables.exclusive place index plain .self] at found
  exact nomatch found

/-- A delegated granule becomes the memory behind a page. -/
theorem Core.Inv.addData {x : Nat} (inv : c.Inv) (here : LeafAt c a 3 p b i)
    (valid : validateAddr x = true) (state : c.stateOf x = .delegated)
    (plain : S2tte.isTable v 3 = false)
    (fits : ∀ {rd g}, c.realm? a = some rd → Below 3 p i g → rd.Fits g (S2tte.view 3 v))
    (names : (S2tte.view 3 v).backing? = some x) :
    (setStateCore (granuleAddrToIndex x) .data (storePte ⟨b, i⟩ v c)).Inv := by
  obtain ⟨validB, table⟩ := inv.tables.tables here.place
  have written : Written c (setStateCore (granuleAddrToIndex x) .data (storePte ⟨b, i⟩ v c)) b i v :=
    inv.written_leaf here.place here.index plain valid (by rw [state]; exact nofun)
      (by rw [state]; exact nofun) nofun
  refine inv.of_storeState table valid (.inl state) (.inr (.inl rfl)) ?_
  refine PlainWrite.tableInv ⟨written, here.place, here.index, plain, fits, ?_, ?_, ?_⟩ inv.realms
    inv.tables
  · intro g pa below named
    have zero : g % 512 ^ (3 - 3) = 0 := Nat.mod_one g
    rw [zero, View.at_zero, names] at named
    cases named
    refine ⟨⟨valid, by rw [stateOf_storeState valid valid, if_pos rfl]⟩, ?_⟩
    intro a' g' w page named'
    exact absurd named' (inv.tables.not_backing page (by rw [state]; exact nofun))
  · intro a' l' p' d found
    have old := written.node_of_plain inv.tables.exclusive here.place here.index plain found
    obtain ⟨validD, isTable⟩ := inv.tables.tables old
    rw [stateOf_storeState valid validD, if_neg]
    · exact isTable
    · rintro rfl
      rw [state] at isTable
      exact nomatch isTable
  · intro a' g w pa page _ named
    obtain ⟨validP, isData⟩ := inv.tables.backed page named
    rw [stateOf_storeState valid validP]
    split
    · rfl
    · exact isData

/-- The granule that an entry of the bottom level names is the memory of its page. -/
theorem LeafAt.backed {x : Nat} (here : LeafAt c a 3 p b i) (inv : c.Inv)
    (names : (S2tte.view 3 (c.forest.read b i)).backing? = some x) :
    c.Page a (p * 512 + i) (S2tte.view 3 (c.forest.read b i)) ∧ validateAddr x = true ∧ c.stateOf x = .data := by
  have page := here.page inv.realms (g := p * 512 + i) (by simp [Below])
  rw [show (p * 512 + i) % 512 ^ (3 - 3) = 0 from Nat.mod_one _, View.at_zero] at page
  exact ⟨page, inv.tables.backed page names⟩

/-- The granule behind a page goes back to the delegated ones. -/
theorem Core.Inv.dropData {x : Nat} (inv : c.Inv) (here : LeafAt c a 3 p b i)
    (names : (S2tte.view 3 (c.forest.read b i)).backing? = some x)
    (plain : S2tte.isTable v 3 = false)
    (fits : ∀ {rd g}, c.realm? a = some rd → Below 3 p i g → rd.Fits g (S2tte.view 3 v))
    (none : (S2tte.view 3 v).backing? = none) :
    (setStateCore (granuleAddrToIndex x) .delegated (storePte ⟨b, i⟩ v c)).Inv := by
  obtain ⟨validB, table⟩ := inv.tables.tables here.place
  obtain ⟨page, valid, state⟩ := here.backed inv names
  have written : Written c (setStateCore (granuleAddrToIndex x) .delegated (storePte ⟨b, i⟩ v c)) b i v :=
    inv.written_leaf here.place here.index plain valid (by rw [state]; exact nofun)
      (by rw [state]; exact nofun) nofun
  refine inv.of_storeState table valid (.inr (.inl state)) (.inl rfl) ?_
  refine PlainWrite.tableInv ⟨written, here.place, here.index, plain, fits, ?_, ?_, ?_⟩ inv.realms
    inv.tables
  · intro g pa _ named
    rw [backing_at, none] at named
    exact nomatch named
  · intro a' l' p' d found
    have old := written.node_of_plain inv.tables.exclusive here.place here.index plain found
    obtain ⟨validD, isTable⟩ := inv.tables.tables old
    rw [stateOf_storeState valid validD, if_neg]
    · exact isTable
    · rintro rfl
      rw [state] at isTable
      exact nomatch isTable
  · intro a' g w pa other outside named
    obtain ⟨validP, isData⟩ := inv.tables.backed other named
    rw [stateOf_storeState valid validP, if_neg]
    · exact isData
    · rintro rfl
      obtain ⟨rfl, rfl⟩ := inv.tables.backed_inj other page named names
      exact outside ⟨rfl, by simp [Below]⟩

/-- A table is taken out and its granule goes back to the delegated ones. The entry
that replaces it names no granule that the pages below did not have. -/
theorem Core.Inv.dropTable {r : Nat} (inv : c.Inv) (place : c.forest.node a l p = some b)
    (index : i < 512) (child : c.forest.node a (l + 1) (p * 512 + i) = some r)
    (plain : S2tte.isTable v l = false)
    (fits : ∀ {rd g}, c.realm? a = some rd → Below l p i g → rd.Fits g (S2tte.view l v))
    (kept : ∀ {g pa}, Below l p i g →
      ((S2tte.view l v).at_ (g % 512 ^ (3 - l))).backing? = some pa →
      ∃ w, c.Page a g w ∧ w.backing? = some pa) :
    (setStateCore (granuleAddrToIndex r) .delegated (storePte ⟨b, i⟩ v c)).Inv := by
  obtain ⟨validB, table⟩ := inv.tables.tables place
  obtain ⟨valid, state⟩ := inv.tables.tables child
  have written := inv.written_table place index child plain
  refine inv.of_storeState table valid (.inr (.inr state)) (.inl rfl) ?_
  refine PlainWrite.tableInv ⟨written, place, index, plain, fits, ?_, ?_, ?_⟩ inv.realms inv.tables
  · intro g pa below named
    obtain ⟨w, page, named'⟩ := kept below named
    obtain ⟨validP, isData⟩ := inv.tables.backed page named'
    refine ⟨⟨validP, ?_⟩, ?_⟩
    · rw [stateOf_storeState valid validP, if_neg]
      · exact isData
      · rintro rfl
        rw [state] at isData
        exact nomatch isData
    · intro a' g' w' other named''
      obtain ⟨rfl, rfl⟩ := inv.tables.backed_inj other page named'' named'
      exact ⟨rfl, below⟩
  · intro a' l' p' d found
    have old := written.node_of_plain inv.tables.exclusive place index plain found
    obtain ⟨validD, isTable⟩ := inv.tables.tables old
    rw [stateOf_storeState valid validD, if_neg]
    · exact isTable
    · rintro rfl
      obtain ⟨rfl, rfl, rfl⟩ := inv.tables.exclusive old child
      rw [written.node_under inv.tables.exclusive place index plain .self] at found
      exact nomatch found
  · intro a' g w pa page _ named
    obtain ⟨validP, isData⟩ := inv.tables.backed page named
    rw [stateOf_storeState valid validP, if_neg]
    · exact isData
    · rintro rfl
      rw [state] at isData
      exact nomatch isData

omit [Platform] in
/-- The offset of a page in a block, by the entry of the table that splits it. -/
theorem offset_split {g : Nat} (inner : l < 3) :
    g / 512 ^ (3 - (l + 1)) % 512 * 512 ^ (3 - (l + 1)) + g % 512 ^ (3 - (l + 1)) = g % 512 ^ (3 - l) := by
  have size : 512 ^ (3 - l) = 512 ^ (3 - (l + 1)) * 512 := by
    rw [← Nat.pow_succ]
    congr 1
    omega
  rw [size, Nat.mod_mul, Nat.mul_comm, Nat.add_comm]

omit [Platform] in
theorem toNat_tableDesc {r : Nat} (aligned : r % 4096 = 0) (small : r < 2 ^ 48) :
    (Rtt.tableDesc r).toNat = r + 3 := by
  obtain ⟨page, same⟩ := Rtt.isPage_ofNat aligned small
  rw [Rtt.tableDesc, S2tte.toNat_page_or page (by decide), same]
  rfl

/-- A split: a delegated granule becomes a table that says about every page what the
entry it replaces said. -/
structure Split (c : Core) (a l p b i r : Nat) (page : Page) : Prop where
  here : LeafAt c a l p b i
  inner : l < 3
  valid : validateAddr r = true
  state : c.stateOf r = .delegated
  entries : ∀ j < 512, S2tte.view (l + 1) (page j) =
    (S2tte.view l (c.forest.read b i)).at_ (j * 512 ^ (3 - (l + 1)))

/-- The state after a split. -/
def splitCore (c : Core) (b i r : Nat) (page : Page) : Core :=
  setStateCore (granuleAddrToIndex r) .rtt
    (storePte ⟨b, i⟩ (Rtt.tableDesc r) (c.setContent r (.raw page)))

namespace Split

variable {r : Nat} {page : Page} (split : Split c a l p b i r page)

include split

theorem fresh : c.stateOf r ≠ .rd ∧ c.stateOf r ≠ .rtt ∧ c.stateOf r ≠ .recCtx ∧ c.stateOf r ≠ .data := by
  rw [split.state]
  exact ⟨nofun, nofun, nofun, nofun⟩

theorem sameForest (inv : c.Inv) : SameForest c (c.setContent r (.raw page)) :=
  (sameOwners_setContent split.fresh.1 split.fresh.2.1).sameForest inv.tables

theorem place (inv : c.Inv) : (c.setContent r (.raw page)).forest.node a l p = some b := by
  rw [(split.sameForest inv).node_eq]
  exact split.here.place

theorem written (inv : c.Inv) :
    Written (c.setContent r (.raw page)) (splitCore c b i r page) b i (Rtt.tableDesc r) := by
  have table := (inv.tables.tables split.here.place).2
  refine ⟨SameRealms.trans (sameRealms_setContent (by rw [Core.stateOf_setContent, table]; exact nofun))
    (sameRealms_setState split.valid split.fresh.1 nofun), ?_⟩
  intro a' l' p' d _ j
  rw [← read_storePte]
  have kept : (splitCore c b i r page).mem =
      (storePte ⟨b, i⟩ (Rtt.tableDesc r) (c.setContent r (.raw page))).mem := by
    apply Core.mem_setStateCore_of_not_wipes
    change wipes (c.stateOf r) .rtt = false
    rw [split.state]
    rfl
  change ((splitCore c b i r page).mem d).words j = _
  rw [kept]
  rfl

theorem address : r % 4096 = 0 ∧ r < 2 ^ 48 := by
  have valid := validateAddr_iff.mp split.valid
  omega

theorem names : S2tte.view l (Rtt.tableDesc r) = .table r :=
  Rtt.view_tableDesc split.address.1 split.address.2 split.inner

theorem freshTable (inv : c.Inv) (a' l' p' : Nat) :
    (c.setContent r (.raw page)).forest.node a' l' p' ≠ some r := by
  rw [(split.sameForest inv).node_eq]
  exact inv.tables.not_table split.fresh.2.1

omit split in
theorem read_page (j : Nat) : (c.setContent r (.raw page)).forest.read r j = page j := by
  change ((c.setContent r (.raw page)).mem r).words j = page j
  rw [Core.mem_setContent_same]
  rfl

/-- The new table has leaves only. -/
theorem flat (j : Nat) (index : j < 512) :
    S2tte.isTable ((c.setContent r (.raw page)).forest.read r j) (l + 1) = false := by
  rw [read_page, ← Bool.not_eq_true]
  intro table
  have meaning := split.entries j index
  rw [S2tte.view_of_isTable table] at meaning
  have leaf := split.here.leaf
  rw [← Bool.not_eq_true] at leaf
  apply leaf
  cases old : S2tte.view l (c.forest.read b i) with
  | table addr => exact (S2tte.isTable_of_view old).1
  | unassigned ripas => rw [old] at meaning; exact nomatch meaning
  | assigned pa ripas => rw [old] at meaning; exact nomatch meaning
  | ram pa => rw [old] at meaning; exact nomatch meaning
  | unassignedNs => rw [old] at meaning; exact nomatch meaning
  | ns pa => rw [old] at meaning; exact nomatch meaning
  | malformed => rw [old] at meaning; exact nomatch meaning

/-- The entries of the new table. -/
theorem entry_new (inv : c.Inv) {j : Nat} (inside : j < 512) :
    (splitCore c b i r page).forest.entry a (l + 1) ((p * 512 + i) * 512 + j) = some (page j) := by
  have stored := Forest.entry_write_grow (e := Rtt.tableDesc r) ((split.sameForest inv).exclusive inv.tables.exclusive)
    (split.place inv) split.here.index (Written.next_table split.names) (split.freshTable inv) inside
  rwa [← (split.written inv).entry_eq, read_page] at stored

/-- A split changes no page. -/
theorem page_iff (inv : c.Inv) {a' g : Nat} {w : View} (found : (splitCore c b i r page).Page a' g w) :
    c.Page a' g w := by
  have exclusive := (split.sameForest inv).exclusive inv.tables.exclusive
  have inner := split.inner
  by_cases inside : a' = a ∧ g / 512 ^ (3 - l) = p * 512 + i
  · obtain ⟨rfl, below⟩ := inside
    have meaning := (split.written inv).page_grow exclusive (split.place inv) split.here.index split.names
      (split.freshTable inv) split.flat (by omega) below found
    rw [read_page, split.entries _ (Nat.mod_lt _ (by omega)), View.at_at, offset_split inner] at meaning
    rw [meaning]
    exact split.here.page inv.realms below
  · rw [(split.written inv).page_other exclusive (split.place inv) (by omega) inside,
      (split.sameForest inv).page_iff] at found
    exact found

theorem stateOf {y : Nat} (validY : validateAddr y = true) :
    (splitCore c b i r page).stateOf y = if y = r then .rtt else c.stateOf y :=
  stateOf_setState split.valid validY

theorem node_cases (inv : c.Inv) {a' l' p' d : Nat} (found : (splitCore c b i r page).forest.node a' l' p' = some d) :
    c.forest.node a' l' p' = some d ∨ a' = a ∧ l' = l + 1 ∧ p' = p * 512 + i ∧ d = r := by
  have forest := split.sameForest inv
  have cases := (split.written inv).node_of_grow (forest.exclusive inv.tables.exclusive) (split.place inv)
    split.here.index split.names (split.freshTable inv) split.flat found
  rwa [forest.node_eq] at cases

/-- An entry after a split is an old one, the one that points to the new table, or one of the new table. -/
theorem entry_cases (inv : c.Inv) {a' l' q : Nat} {e : Word}
    (stored : (splitCore c b i r page).forest.entry a' l' q = some e) :
    c.forest.entry a' l' q = some e ∨ l' = l ∧ e = Rtt.tableDesc r ∨ l' = l + 1 ∧ ∃ j < 512, e = page j := by
  have written := split.written inv
  obtain ⟨d, place, rfl⟩ := Forest.node_of_entry stored
  rw [written.read a' l' (q / 512) d (by rw [← written.node_eq]; exact place) (q % 512)]
  rcases split.node_cases inv place with old | ⟨_, rfl, _, rfl⟩
  · by_cases here : d = b ∧ q % 512 = i
    · obtain ⟨rfl, offset⟩ := here
      rw [offset, Forest.write_read_same]
      exact .inr (.inl ⟨(inv.tables.exclusive old split.here.place).2.1, rfl⟩)
    · have other : d ≠ r := by
        rintro rfl
        exact split.fresh.2.1 (inv.tables.tables old).2
      have same : (c.setContent r (.raw page)).forest.read d (q % 512) = c.forest.read d (q % 512) := by
        change ((c.setContent r (.raw page)).mem d).words _ = (c.mem d).words _
        rw [Core.mem_setContent_of_ne _ other]
      rw [Forest.write_read_other here, same]
      left
      rw [Forest.entry, old, Option.map_some]
  · have other : ¬(d = b ∧ q % 512 = i) := by
      rintro ⟨rfl, _⟩
      exact split.fresh.2.1 (inv.tables.tables split.here.place).2
    rw [Forest.write_read_other other, read_page]
    exact .inr (.inr ⟨rfl, _, Nat.mod_lt _ (by omega), rfl⟩)

theorem tableInv (inv : c.Inv) : (splitCore c b i r page).TableInv := by
  have forest := split.sameForest inv
  have written := split.written inv
  constructor
  · exact written.exclusive_grow (forest.exclusive inv.tables.exclusive) (split.place inv) split.here.index split.names
      (split.freshTable inv) split.flat
  · intro a' l' p' d found
    rcases split.node_cases inv found with old | ⟨_, _, _, rfl⟩
    · obtain ⟨valid, state⟩ := inv.tables.tables old
      refine ⟨valid, ?_⟩
      rw [split.stateOf valid]
      split
      · rfl
      · exact state
    · exact ⟨split.valid, by rw [split.stateOf split.valid, if_pos rfl]⟩
  · intro a' l' q e stored table
    rcases split.entry_cases inv stored with old | ⟨rfl, rfl⟩ | ⟨rfl, j, index, rfl⟩
    · exact inv.tables.plain old table
    · rw [toNat_tableDesc split.address.1 split.address.2]
      obtain ⟨_, address⟩ := S2tte.isTable_of_view split.names
      omega
    · have leaf := split.flat j index
      rw [read_page] at leaf
      exact nomatch leaf.symm.trans table
  · intro a' g w rd' realm' found
    obtain ⟨middle, here, layout⟩ := SameRealms.back written.realms realm'
    obtain ⟨old, before, layout'⟩ := SameRealms.back forest.realms here
    rw [Rd.fits_of_layout layout, Rd.fits_of_layout layout']
    exact inv.tables.pages before (split.page_iff inv found)
  · intro a' g w pa found named
    obtain ⟨valid, state⟩ := inv.tables.backed (split.page_iff inv found) named
    refine ⟨valid, ?_⟩
    rw [split.stateOf valid, if_neg]
    · exact state
    · rintro rfl
      exact split.fresh.2.2.2 state
  · intro a₁ a₂ g₁ g₂ w₁ w₂ pa found₁ found₂
    exact inv.tables.backed_inj (split.page_iff inv found₁) (split.page_iff inv found₂)

theorem inv (inv : c.Inv) : (splitCore c b i r page).Inv := by
  have before : (c.setContent r (.raw page)).Inv :=
    inv.setContent split.fresh.1 split.fresh.2.1 split.fresh.2.2.1
  have table := (inv.tables.tables split.here.place).2
  exact before.of_storeState table split.valid (.inl split.state) (.inr (.inr rfl)) (split.tableInv inv)

end Split

end Entry

end Islet.Rmm
