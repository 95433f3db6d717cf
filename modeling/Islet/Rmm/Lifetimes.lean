import Islet.Rmm.Realm.Rim
import Islet.Rmm.Rmi.Rec
import Islet.Rmm.Transitions

/-! Beginning and end of realms and of RECs. Each of these changes many granules
at once, so it is described by what the state after it is, granule by granule. -/

namespace Islet.Rmm

open Lib Bits Rmi Stage2Translation

/-- The pages of the root tables. -/
def Rd.IsRoot (rd : Rd) (b : Nat) : Prop := ∃ p < rd.rttNumStart, b = rd.rttBase + 4096 * p

variable [Platform]

/-! ### A new realm -/

/-- The descriptor of a realm that was created from the parameters in `page`. -/
structure Rd.Fresh (rd : Rd) (page : Page) : Prop where
  state : rd.state = .new
  metadata : rd.metadata = none
  rim : rd.rim = HashContext.rimOf rd.hashAlgo ⟨page⟩
  slots : ∀ slot ≠ 0, rd.measurements.get slot = .empty
  vmid : rd.vmid < 2 ^ 16
  recIndex : rd.recIndex = 0
  vcpuIndex : rd.vcpuIndex = 0
  rpv : rd.rpv = RealmParams.rpv ⟨page⟩

/-- REALM_CREATE turned delegated granules into a realm descriptor and its root tables. -/
structure NewRealm (c c' : Core) (a : Nat) (rd : Rd) : Prop where
  valid : validateAddr a = true
  state : c.stateOf a = .delegated
  shape : rd.Shape
  hash : rd.hashAlgo = 0 ∨ rd.hashAlgo = 1
  created : ∃ page, rd.Fresh page ∧ c'.log = .created a page :: c.log
  roots : ∀ b, rd.IsRoot b → validateAddr b = true ∧ c.stateOf b = .delegated ∧ b ≠ a
  vmid : rd.vmid ∉ c.vmidSet
  isRealm : c'.stateOf a = .rd
  isTable : ∀ b, rd.IsRoot b → c'.stateOf b = .rtt
  others : ∀ b, validateAddr b = true → b ≠ a → ¬rd.IsRoot b → c'.stateOf b = c.stateOf b
  desc : c'.mem a = .rd rd
  zero : ∀ b, rd.IsRoot b → c'.mem b = .raw .zero
  mem : ∀ b, b ≠ a → ¬rd.IsRoot b → c'.mem b = c.mem b
  refCount : ∀ b, c'.refCount b = c.refCount b
  gpt : ∀ b, c'.gptOf b = c.gptOf b
  rttTables : c'.rttTables = Function.update c.rttTables rd.vmid (some rd.tables)
  vmidSet : c'.vmidSet = insert rd.vmid c.vmidSet

namespace NewRealm

variable {c c' : Core} {a : Nat} {rd : Rd} (new : NewRealm c c' a rd)

include new

/-- Granules in use before are neither the descriptor nor a root table. -/
theorem used {b : Nat} (used : c.stateOf b ≠ .delegated) : b ≠ a ∧ ¬rd.IsRoot b := by
  constructor
  · rintro rfl
    exact used new.state
  · intro root
    exact used (new.roots b root).2.1

theorem kept {b : Nat} (valid : validateAddr b = true) (used : c.stateOf b ≠ .delegated) :
    c'.stateOf b = c.stateOf b ∧ c'.mem b = c.mem b :=
  ⟨new.others b valid (new.used used).1 (new.used used).2,
    new.mem b (new.used used).1 (new.used used).2⟩

/-- No granule comes into use but the descriptor and the root tables. -/
theorem back {b : Nat} {state : GranuleState} (valid : validateAddr b = true) (realm : state ≠ .rd)
    (table : state ≠ .rtt) (now : c'.stateOf b = state) : c.stateOf b = state := by
  by_cases same : b = a
  · rw [same, new.isRealm] at now
    exact absurd now.symm realm
  · by_cases root : rd.IsRoot b
    · rw [new.isTable b root] at now
      exact absurd now.symm table
    · rw [new.others b valid same root] at now
      exact now

theorem realm_same : c'.realm? a = some rd := by
  rw [Core.realm?_eq_some]
  exact ⟨new.valid, new.isRealm, by rw [new.desc]; rfl⟩

theorem realm_other {b : Nat} (other : b ≠ a) : c'.realm? b = c.realm? b := by
  unfold Core.realm?
  by_cases valid : validateAddr b = true
  · by_cases root : rd.IsRoot b
    · rw [new.isTable b root, (new.roots b root).2.1]
      simp
    · rw [new.others b valid other root, new.mem b other root]
  · rw [if_neg (fun both => valid both.1), if_neg (fun both => valid both.1)]

theorem realm_cases {b : Nat} {rd' : Rd} (realm : c'.realm? b = some rd') :
    b = a ∧ rd' = rd ∨ b ≠ a ∧ c.realm? b = some rd' := by
  by_cases same : b = a
  · subst same
    rw [new.realm_same] at realm
    exact .inl ⟨rfl, (Option.some.inj realm).symm⟩
  · rw [new.realm_other same] at realm
    exact .inr ⟨same, realm⟩

theorem realm_stays {b : Nat} {rd' : Rd} (realm : c.realm? b = some rd') : c'.realm? b = some rd' := by
  rw [new.realm_other]
  · exact realm
  · rintro rfl
    have state := new.state
    rw [(Core.realm?_eq_some.mp realm).2.1] at state
    exact nomatch state

theorem realmInv (inv : c.RealmInv) : c'.RealmInv := by
  have fresh : ∀ {b rd'}, c.realm? b = some rd' → rd'.vmid ≠ rd.vmid := by
    intro b rd' realm same
    exact new.vmid (same ▸ inv.listed realm)
  constructor
  · intro b rd' realm
    rcases new.realm_cases realm with ⟨_, rfl⟩ | ⟨_, old⟩
    · exact new.shape
    · exact inv.shape old
  · intro b rd' realm
    rw [new.rttTables]
    rcases new.realm_cases realm with ⟨_, rfl⟩ | ⟨_, old⟩
    · rw [Function.update_self]
    · rw [Function.update_of_ne (fresh old)]
      exact inv.registered old
  · intro b rd' realm
    rw [new.vmidSet, Finset.mem_insert]
    rcases new.realm_cases realm with ⟨_, rfl⟩ | ⟨_, old⟩
    · exact .inl rfl
    · exact .inr (inv.listed old)
  · intro v member
    rw [new.vmidSet, Finset.mem_insert] at member
    rcases member with rfl | old
    · exact ⟨a, rd, new.realm_same, rfl⟩
    · obtain ⟨b, rd', realm, rfl⟩ := inv.used v old
      exact ⟨b, rd', new.realm_stays realm, rfl⟩
  · intro b₁ b₂ rd₁ rd₂ realm₁ realm₂ vmids
    rcases new.realm_cases realm₁ with ⟨rfl, rfl⟩ | ⟨_, old₁⟩
    · rcases new.realm_cases realm₂ with ⟨rfl, _⟩ | ⟨_, old₂⟩
      · rfl
      · exact absurd vmids.symm (fresh old₂)
    · rcases new.realm_cases realm₂ with ⟨rfl, rfl⟩ | ⟨_, old₂⟩
      · exact absurd vmids (fresh old₁)
      · exact inv.vmid_inj old₁ old₂ vmids
  · intro b rd' realm
    rcases new.realm_cases realm with ⟨_, rfl⟩ | ⟨_, old⟩
    · exact new.hash
    · exact inv.hash old

theorem metadataInv (inv : c.MetadataInv) : c'.MetadataInv := by
  have old : ∀ {b rd' m}, c'.realm? b = some rd' → rd'.metadata = some m → c.realm? b = some rd' := by
    intro b rd' m realm has
    rcases new.realm_cases realm with ⟨_, rfl⟩ | ⟨_, old⟩
    · obtain ⟨page, fresh, _⟩ := new.created
      rw [fresh.metadata] at has
      exact nomatch has
    · exact old
  constructor
  · intro b rd' m realm has
    obtain ⟨valid, state⟩ := inv.state (old realm has) has
    refine ⟨valid, ?_⟩
    rw [(new.kept valid (by rw [state]; exact nofun)).1]
    exact state
  · intro b₁ b₂ rd₁ rd₂ m realm₁ realm₂ has₁ has₂
    exact inv.inj (old realm₁ has₁) (old realm₂ has₂) has₁ has₂

/-- The trees of the other realms are what they were. -/
theorem node_other (inv : c.TableInv) {b : Nat} (other : b ≠ a) (l p : Nat) :
    c'.forest.node b l p = c.forest.node b l p := by
  have realms : (c'.realm? b).map Rd.layout = (c.realm? b).map Rd.layout := by
    rw [new.realm_other other]
  refine Forest.node_congr (forest_top_eq realms) (forest_root_eq realms) (fun _ _ => rfl) ?_ l p
  intro l p d found i
  obtain ⟨valid, state⟩ := inv.tables found
  change (c'.mem d).words i = (c.mem d).words i
  rw [(new.kept valid (by rw [state]; exact nofun)).2]

theorem entry_other (inv : c.TableInv) {b : Nat} (other : b ≠ a) (l q : Nat) :
    c'.forest.entry b l q = c.forest.entry b l q := by
  refine Forest.entry_congr (new.node_other inv other) ?_ l q
  intro l p d found i
  obtain ⟨valid, state⟩ := inv.tables found
  change (c'.mem d).words i = (c.mem d).words i
  rw [(new.kept valid (by rw [state]; exact nofun)).2]

theorem page_other (inv : c.TableInv) {b g : Nat} {v : View} (other : b ≠ a) :
    c'.Page b g v ↔ c.Page b g v := by
  unfold Core.Page
  simp only [Forest.Leaf.congr (new.entry_other inv other) (fun _ _ => rfl)]

theorem root_cases {p b : Nat} (root : c'.forest.root a p = some b) :
    p < rd.rttNumStart ∧ b = rd.rttBase + 4096 * p := by
  rw [Core.forest_root new.realm_same] at root
  split at root
  · rename_i inside
    exact ⟨inside, (Option.some.inj root).symm⟩
  · exact nomatch root

theorem read_root {b : Nat} (root : rd.IsRoot b) (i : Nat) : c'.forest.read b i = 0#64 := by
  change (c'.mem b).words i = 0#64
  rw [new.zero b root]
  rfl

theorem flat (p b : Nat) (root : c'.forest.root a p = some b) (j : Nat) (_ : j < 512) :
    c'.forest.next (c'.forest.top a) (c'.forest.read b j) = none := by
  obtain ⟨inside, same⟩ := new.root_cases root
  rw [new.read_root ⟨p, inside, same⟩]
  apply forest_next_none
  simp [S2tte.isTable_iff, S2tte.descNum, ← Bool.not_eq_true]

/-- The entries of the new realm say unassigned and empty. -/
theorem entry_same {l q : Nat} {e : Word} (stored : c'.forest.entry a l q = some e) : e = 0#64 := by
  obtain ⟨b, place, rfl⟩ := Forest.node_of_entry stored
  obtain ⟨_, root⟩ := Forest.node_of_flat (by omega) new.flat place
  obtain ⟨inside, same⟩ := new.root_cases root
  exact new.read_root ⟨_, inside, same⟩ _

theorem page_same {g : Nat} {v : View} (page : c'.Page a g v) : v = .unassigned 0 := by
  obtain ⟨l, e, leaf, rfl⟩ := page
  rw [new.entry_same leaf.stored, Rtt.view_attr (by decide) (by decide)]
  rfl

theorem tableInv (inv : c.TableInv) : c'.TableInv := by
  constructor
  · refine inv.exclusive.plant (t := a) (by omega) (fun b other => new.node_other inv other) new.flat ?_ ?_
    · intro p p' b left right
      obtain ⟨_, same⟩ := new.root_cases left
      obtain ⟨_, same'⟩ := new.root_cases right
      omega
    · intro p b root t' l' p' found
      obtain ⟨inside, same⟩ := new.root_cases root
      have delegated := (new.roots b ⟨p, inside, same⟩).2.1
      exact inv.not_table (by rw [delegated]; exact nofun) found
  · intro b l p d found
    by_cases same : b = a
    · subst same
      obtain ⟨_, root⟩ := Forest.node_of_flat (by omega) new.flat found
      obtain ⟨inside, address⟩ := new.root_cases root
      exact ⟨(new.roots d ⟨p, inside, address⟩).1, new.isTable d ⟨p, inside, address⟩⟩
    · rw [new.node_other inv same] at found
      obtain ⟨valid, state⟩ := inv.tables found
      exact ⟨valid, by rw [(new.kept valid (by rw [state]; exact nofun)).1]; exact state⟩
  · intro b l q e stored table
    by_cases same : b = a
    · subst same
      rw [new.entry_same stored, S2tte.isTable_iff] at table
      exact absurd table.2 (by decide)
    · rw [new.entry_other inv same] at stored
      exact inv.plain stored table
  · intro b g v rd' realm page
    by_cases same : b = a
    · subst same
      rw [new.page_same page]
      unfold Rd.Fits
      split
      · exact Nat.zero_le 2
      · trivial
    · rw [new.realm_other same] at realm
      exact inv.pages realm ((new.page_other inv same).mp page)
  · intro b g v pa page named
    by_cases same : b = a
    · subst same
      rw [new.page_same page] at named
      exact nomatch named
    · obtain ⟨valid, state⟩ := inv.backed ((new.page_other inv same).mp page) named
      exact ⟨valid, by rw [(new.kept valid (by rw [state]; exact nofun)).1]; exact state⟩
  · intro b₁ b₂ g₁ g₂ v₁ v₂ pa page₁ page₂ named₁ named₂
    have old : ∀ {b g v}, c'.Page b g v → v.backing? = some pa → c.Page b g v := by
      intro b g v page named
      by_cases same : b = a
      · subst same
        rw [new.page_same page] at named
        exact nomatch named
      · exact (new.page_other inv same).mp page
    exact inv.backed_inj (old page₁ named₁) (old page₂ named₂) named₁ named₂

theorem sameRecs : SameRecs c c' := by
  have mem : ∀ b, validateAddr b = true → c.stateOf b = .recCtx → c'.mem b = c.mem b :=
    fun b valid state => (new.kept valid (by rw [state]; exact nofun)).2
  constructor
  · intro b valid
    constructor
    · exact new.back valid nofun nofun
    · intro state
      rw [(new.kept valid (by rw [state]; exact nofun)).1]
      exact state
  · intro b valid state
    rw [mem b valid state]
  · intro b valid state
    rw [mem b valid state]
  · intro b valid state
    rw [mem b valid state]
    exact id

theorem inv (inv : c.Inv) : c'.Inv := by
  refine ⟨new.realmInv inv.realms, new.metadataInv inv.metadata, new.tableInv inv.tables,
    inv.recs.of_same new.sameRecs, inv.gpt.of_same ?_ new.gpt,
    inv.counts.of_same new.sameRecs new.refCount ?_⟩
  · intro b valid
    constructor
    · exact new.back valid nofun nofun
    · intro state
      rw [(new.kept valid (by rw [state]; exact nofun)).1]
      exact state
  · intro b valid now state
    apply now
    rw [(new.kept valid (by rw [state]; exact nofun)).1]
    exact state

end NewRealm

/-! ### The end of a realm -/

/-- The granules that REALM_DESTROY gives back. -/
def Rd.Frees (rd : Rd) (a b : Nat) : Prop := b = a ∨ rd.IsRoot b ∨ rd.metadata = some b

/-- REALM_DESTROY gave back the descriptor, the root tables and the metadata. -/
structure EndRealm (c c' : Core) (a : Nat) (rd : Rd) : Prop where
  realm : c.realm? a = some rd
  count : c.refCount a = 0
  freed : ∀ b, rd.Frees a b → c'.stateOf b = .delegated ∧ c'.mem b = .raw .zero
  others : ∀ b, validateAddr b = true → ¬rd.Frees a b → c'.stateOf b = c.stateOf b
  mem : ∀ b, ¬rd.Frees a b → c'.mem b = c.mem b
  refCount : ∀ b, c'.refCount b = c.refCount b
  gpt : ∀ b, c'.gptOf b = c.gptOf b
  rttTables : c'.rttTables = c.rttTables
  vmidSet : c'.vmidSet = c.vmidSet.erase rd.vmid
  log : c'.log = c.log

namespace EndRealm

variable {c c' : Core} {a : Nat} {rd : Rd} (ended : EndRealm c c' a rd) (inv : c.Inv)

include ended inv

omit inv in
theorem root_place {b : Nat} (root : rd.IsRoot b) :
    ∃ p, c.forest.node a rd.s2StartingLevel p = some b := by
  obtain ⟨p, inside, rfl⟩ := root
  exact ⟨p, Islet.Rmm.root_place ended.realm inside⟩

/-- What is freed was a descriptor, a table or a metadata granule. -/
theorem freed_state {b : Nat} (frees : rd.Frees a b) :
    c.stateOf b = .rd ∧ b = a ∨ c.stateOf b = .rtt ∨ c.stateOf b = .metadata := by
  rcases frees with rfl | root | metadata
  · exact .inl ⟨(Core.realm?_eq_some.mp ended.realm).2.1, rfl⟩
  · obtain ⟨p, place⟩ := ended.root_place root
    exact .inr (.inl (inv.tables.tables place).2)
  · exact .inr (.inr (inv.metadata.state ended.realm metadata).2)

theorem kept {b : Nat} (valid : validateAddr b = true) (realm : c.stateOf b ≠ .rd)
    (table : c.stateOf b ≠ .rtt) (notMeta : c.stateOf b ≠ .metadata) :
    c'.stateOf b = c.stateOf b ∧ c'.mem b = c.mem b := by
  have stays : ¬rd.Frees a b := by
    intro frees
    rcases ended.freed_state inv frees with ⟨state, _⟩ | state | state
    · exact realm state
    · exact table state
    · exact notMeta state
  exact ⟨ended.others b valid stays, ended.mem b stays⟩

omit inv in
theorem back {b : Nat} {state : GranuleState} (valid : validateAddr b = true) (used : state ≠ .delegated)
    (now : c'.stateOf b = state) : ¬rd.Frees a b ∧ c.stateOf b = state := by
  have stays : ¬rd.Frees a b := by
    intro frees
    rw [(ended.freed b frees).1] at now
    exact used now.symm
  rw [ended.others b valid stays] at now
  exact ⟨stays, now⟩

omit inv in
theorem realm_same : c'.realm? a = none := by
  unfold Core.realm?
  rw [(ended.freed a (.inl rfl)).1, if_neg]
  rintro ⟨_, state⟩
  exact nomatch state

theorem realm_other {b : Nat} (other : b ≠ a) : c'.realm? b = c.realm? b := by
  by_cases frees : rd.Frees a b
  · have none : ∀ state, state ≠ .rd → ∀ c'' : Core, c''.stateOf b = state → c''.realm? b = none := by
      intro state apart c'' same
      unfold Core.realm?
      rw [same, if_neg (fun both => apart both.2)]
    rw [none .delegated nofun c' (ended.freed b frees).1]
    rcases ended.freed_state inv frees with ⟨_, same⟩ | state | state
    · exact absurd same other
    · rw [none .rtt nofun c state]
    · rw [none .metadata nofun c state]
  · unfold Core.realm?
    by_cases valid : validateAddr b = true
    · rw [ended.others b valid frees, ended.mem b frees]
    · rw [if_neg (fun both => valid both.1), if_neg (fun both => valid both.1)]

theorem realm_cases {b : Nat} {rd' : Rd} (realm : c'.realm? b = some rd') :
    b ≠ a ∧ c.realm? b = some rd' := by
  have other : b ≠ a := by
    rintro rfl
    rw [ended.realm_same] at realm
    exact nomatch realm
  rw [ended.realm_other inv other] at realm
  exact ⟨other, realm⟩

theorem realmInv : c'.RealmInv := by
  constructor
  · intro b rd' realm
    exact inv.realms.shape (ended.realm_cases inv realm).2
  · intro b rd' realm
    rw [ended.rttTables]
    exact inv.realms.registered (ended.realm_cases inv realm).2
  · intro b rd' realm
    obtain ⟨other, old⟩ := ended.realm_cases inv realm
    rw [ended.vmidSet, Finset.mem_erase]
    exact ⟨fun same => other (inv.realms.vmid_inj old ended.realm same), inv.realms.listed old⟩
  · intro v member
    rw [ended.vmidSet, Finset.mem_erase] at member
    obtain ⟨b, rd', realm, rfl⟩ := inv.realms.used v member.2
    have other : b ≠ a := by
      rintro rfl
      rw [ended.realm] at realm
      cases realm
      exact member.1 rfl
    exact ⟨b, rd', (ended.realm_other inv other).trans realm, rfl⟩
  · intro b₁ b₂ rd₁ rd₂ realm₁ realm₂ vmids
    exact inv.realms.vmid_inj (ended.realm_cases inv realm₁).2 (ended.realm_cases inv realm₂).2 vmids
  · intro b rd' realm
    exact inv.realms.hash (ended.realm_cases inv realm).2

theorem metadataInv : c'.MetadataInv := by
  constructor
  · intro b rd' m realm has
    obtain ⟨other, old⟩ := ended.realm_cases inv realm
    obtain ⟨valid, state⟩ := inv.metadata.state old has
    refine ⟨valid, ?_⟩
    have stays : ¬rd.Frees a m := by
      rintro (rfl | root | own)
      · rw [(Core.realm?_eq_some.mp ended.realm).2.1] at state
        exact nomatch state
      · obtain ⟨p, place⟩ := ended.root_place root
        rw [(inv.tables.tables place).2] at state
        exact nomatch state
      · exact other (inv.metadata.inj old ended.realm has own)
    rw [ended.others m valid stays]
    exact state
  · intro b₁ b₂ rd₁ rd₂ m realm₁ realm₂ has₁ has₂
    exact inv.metadata.inj (ended.realm_cases inv realm₁).2 (ended.realm_cases inv realm₂).2 has₁ has₂

/-- The tables of the other realms are not freed. -/
theorem table_stays {b l p d : Nat} (other : b ≠ a) (found : c.forest.node b l p = some d) :
    ¬rd.Frees a d := by
  have state := (inv.tables.tables found).2
  rintro (rfl | root | own)
  · rw [(Core.realm?_eq_some.mp ended.realm).2.1] at state
    exact nomatch state
  · obtain ⟨p', place⟩ := ended.root_place root
    exact other (inv.tables.exclusive found place).1
  · rw [(inv.metadata.state ended.realm own).2] at state
    exact nomatch state

theorem read_other {b l p d : Nat} (other : b ≠ a) (found : c.forest.node b l p = some d) (i : Nat) :
    c'.forest.read d i = c.forest.read d i := by
  change (c'.mem d).words i = (c.mem d).words i
  rw [ended.mem d (ended.table_stays inv other found)]

theorem node_other {b : Nat} (other : b ≠ a) (l p : Nat) :
    c'.forest.node b l p = c.forest.node b l p := by
  have realms : (c'.realm? b).map Rd.layout = (c.realm? b).map Rd.layout := by
    rw [ended.realm_other inv other]
  exact Forest.node_congr (forest_top_eq realms) (forest_root_eq realms) (fun _ _ => rfl)
    (fun _ _ _ found => ended.read_other inv other found) l p

theorem entry_other {b : Nat} (other : b ≠ a) (l q : Nat) :
    c'.forest.entry b l q = c.forest.entry b l q :=
  Forest.entry_congr (ended.node_other inv other)
    (fun _ _ _ found => ended.read_other inv other found) l q

omit inv in
theorem node_same (l p : Nat) : c'.forest.node a l p = none := by
  cases found : c'.forest.node a l p with
  | none => rfl
  | some b =>
    obtain ⟨rd', realm, _, _⟩ := Core.realm_of_node found
    rw [ended.realm_same] at realm
    exact nomatch realm

theorem node_cases {b l p d : Nat} (found : c'.forest.node b l p = some d) :
    b ≠ a ∧ c.forest.node b l p = some d := by
  have other : b ≠ a := by
    rintro rfl
    rw [ended.node_same] at found
    exact nomatch found
  rw [ended.node_other inv other] at found
  exact ⟨other, found⟩

theorem page_cases {b g : Nat} {v : View} (page : c'.Page b g v) : b ≠ a ∧ c.Page b g v := by
  obtain ⟨l, e, leaf, same⟩ := page
  obtain ⟨d, place, _⟩ := Forest.node_of_entry leaf.stored
  obtain ⟨other, _⟩ := ended.node_cases inv place
  exact ⟨other, l, e,
    (Forest.Leaf.congr (ended.entry_other inv other) (fun _ _ => rfl)).mp leaf, same⟩

theorem tableInv : c'.TableInv := by
  constructor
  · exact inv.tables.exclusive.mono fun _ _ _ _ found => (ended.node_cases inv found).2
  · intro b l p d found
    obtain ⟨other, old⟩ := ended.node_cases inv found
    obtain ⟨valid, state⟩ := inv.tables.tables old
    exact ⟨valid, by rw [ended.others d valid (ended.table_stays inv other old)]; exact state⟩
  · intro b l q e stored table
    obtain ⟨d, place, _⟩ := Forest.node_of_entry stored
    rw [ended.entry_other inv (ended.node_cases inv place).1] at stored
    exact inv.tables.plain stored table
  · intro b g v rd' realm page
    exact inv.tables.pages (ended.realm_cases inv realm).2 (ended.page_cases inv page).2
  · intro b g v pa page named
    obtain ⟨valid, state⟩ := inv.tables.backed (ended.page_cases inv page).2 named
    refine ⟨valid, ?_⟩
    rw [(ended.kept inv valid (by rw [state]; exact nofun) (by rw [state]; exact nofun)
      (by rw [state]; exact nofun)).1]
    exact state
  · intro b₁ b₂ g₁ g₂ v₁ v₂ pa page₁ page₂
    exact inv.tables.backed_inj (ended.page_cases inv page₁).2 (ended.page_cases inv page₂).2

theorem sameRecs : SameRecs c c' := by
  have same : ∀ b, validateAddr b = true → c.stateOf b = .recCtx →
      c'.stateOf b = c.stateOf b ∧ c'.mem b = c.mem b :=
    fun b valid state => ended.kept inv valid (by rw [state]; exact nofun) (by rw [state]; exact nofun)
      (by rw [state]; exact nofun)
  constructor
  · intro b valid
    exact ⟨fun now => (ended.back valid (by nofun) now).2,
      fun state => by rw [(same b valid state).1]; exact state⟩
  · intro b valid state
    rw [(same b valid state).2]
  · intro b valid state
    rw [(same b valid state).2]
  · intro b valid state
    rw [(same b valid state).2]
    exact id

theorem inv' : c'.Inv := by
  have recs := ended.sameRecs inv
  refine ⟨ended.realmInv inv, ended.metadataInv inv, ended.tableInv inv, inv.recs.of_same recs,
    inv.gpt.of_same ?_ ended.gpt, ?_, ?_⟩
  · intro b valid
    constructor
    · intro now
      exact (ended.back valid (by nofun) now).2
    · intro state
      rw [(ended.kept inv valid (by rw [state]; exact nofun) (by rw [state]; exact nofun)
        (by rw [state]; exact nofun)).1]
      exact state
  · intro b valid now
    rw [ended.refCount]
    by_cases same : b = a
    · rw [same]
      exact ended.count
    · apply inv.counts.others valid
      intro state
      have stays : ¬rd.Frees a b := by
        intro frees
        rcases ended.freed_state inv frees with ⟨_, equal⟩ | other | other
        · exact same equal
        · rw [state] at other
          exact nomatch other
        · rw [state] at other
          exact nomatch other
      rw [ended.others b valid stays] at now
      exact now state
  · intro b valid
    rw [ended.refCount, numRecs_eq recs]
    exact inv.counts.recs valid

end EndRealm

/-! ### Metadata -/

/-- A delegated granule becomes a metadata granule that no realm has yet. -/
theorem Core.Inv.toMetadata {c : Core} {m : Nat} (inv : c.Inv) (valid : validateAddr m = true)
    (state : c.stateOf m = .delegated) : (setStateCore (granuleAddrToIndex m) .metadata c).Inv := by
  have apart : ∀ st, st ≠ .delegated → c.stateOf m ≠ st := by
    rintro st other rfl
    exact other state
  have realm := apart .rd nofun
  have recs := apart .recCtx nofun
  exact ⟨inv.realms.setState valid realm (by decide),
    inv.metadata.setState valid realm (by decide) (apart .metadata nofun),
    inv.tables.of_same (sameOwners_setState valid realm (by decide) (apart .rtt nofun)
      (apart .data nofun)),
    inv.recs.of_same (sameRecs_setState valid recs (by decide)),
    inv.gpt.setState valid (apart .undelegated nofun) (by decide),
    inv.counts.setState valid recs (by decide) realm⟩

/-- A realm records a metadata granule that no realm has yet. -/
theorem Core.Inv.giveMetadata {c : Core} {a m : Nat} {rd : Rd} (inv : c.Inv)
    (realm : c.realm? a = some rd) (valid : validateAddr m = true) (state : c.stateOf m = .metadata)
    (fresh : ∀ {b rd'}, c.realm? b = some rd' → rd'.metadata ≠ some m) :
    (c.setContent a (.rd { rd with metadata := some m })).Inv := by
  have realms : SameRealms c (c.setContent a (.rd { rd with metadata := some m })) := sameRealms_setRd realm rfl
  have recs : SameRecs c (c.setContent a (.rd { rd with metadata := some m })) :=
    sameRecs_setContent (by rw [(Core.realm?_eq_some.mp realm).2.1]; exact nofun)
  refine ⟨inv.realms.of_same realms rfl rfl, ⟨?_, ?_⟩,
    inv.tables.of_same (sameOwners_setRd realm rfl), inv.recs.of_same recs,
    inv.gpt.of_same (fun _ _ => Iff.rfl) fun _ => rfl,
    inv.counts.of_same recs (fun _ => rfl) fun _ _ => id⟩
  · intro b rd' m' realm' has
    rw [realm?_setRd realm] at realm'
    split at realm'
    · cases realm'
      cases has
      exact ⟨valid, state⟩
    · exact inv.metadata.state realm' has
  · intro b₁ b₂ rd₁ rd₂ m' realm₁ realm₂ has₁ has₂
    rw [realm?_setRd realm] at realm₁ realm₂
    split at realm₁ <;> split at realm₂
    · rename_i left right
      rw [left, right]
    · cases realm₁
      cases has₁
      exact absurd has₂ (fresh realm₂)
    · cases realm₂
      cases has₂
      exact absurd has₁ (fresh realm₁)
    · exact inv.metadata.inj realm₁ realm₂ has₁ has₂

/-- ISLET_REALM_SET_METADATA turns a delegated granule into a realm's metadata. -/
theorem Core.Inv.setMetadata {c : Core} {a m : Nat} {rd : Rd} (inv : c.Inv) (realm : c.realm? a = some rd)
    (valid : validateAddr m = true) (state : c.stateOf m = .delegated) (page : Rmm.Page) :
    ((setStateCore (granuleAddrToIndex m) .metadata (c.setContent m (.raw page))).setContent a
      (.rd { rd with metadata := some m })).Inv := by
  have notRd : c.stateOf m ≠ .rd := by rw [state]; exact nofun
  have written : (c.setContent m (.raw page)).Inv :=
    inv.setContent notRd (by rw [state]; exact nofun) (by rw [state]; exact nofun)
  have same : ∀ b, (setStateCore (granuleAddrToIndex m) .metadata (c.setContent m (.raw page))).realm? b =
      c.realm? b := by
    intro b
    rw [realm?_setState (c := c.setContent m (.raw page)) valid notRd (by decide),
      realm?_setContent notRd]
  refine (written.toMetadata valid state).giveMetadata (by rw [same]; exact realm) valid
    (Core.stateOf_setStateCore_same _) ?_
  intro b rd' realm' has
  rw [same] at realm'
  rw [(inv.metadata.state realm' has).2] at state
  exact nomatch state

/-! ### RECs -/

/-- One REC more or less in the count of its realm. -/
theorem numRecs_insert {c c' : Core} {b i : Nat} (bound : i < granuleStatusTableSize)
    (others : ∀ j < granuleStatusTableSize, j ≠ i → (c'.OwnedBy b j ↔ c.OwnedBy b j))
    (before : ¬c.OwnedBy b i) (after : c'.OwnedBy b i) : c'.numRecs b = c.numRecs b + 1 := by
  have recs : (Finset.range granuleStatusTableSize).filter (c'.OwnedBy b) =
      insert i ((Finset.range granuleStatusTableSize).filter (c.OwnedBy b)) := by
    ext j
    rw [Finset.mem_insert, Finset.mem_filter, Finset.mem_filter, Finset.mem_range]
    by_cases same : j = i
    · subst same
      exact ⟨fun _ => .inl rfl, fun _ => ⟨bound, after⟩⟩
    · constructor
      · rintro ⟨inside, owned⟩
        exact .inr ⟨inside, (others j inside same).mp owned⟩
      · rintro (equal | ⟨inside, owned⟩)
        · exact absurd equal same
        · exact ⟨inside, (others j inside same).mpr owned⟩
  have fresh : i ∉ (Finset.range granuleStatusTableSize).filter (c.OwnedBy b) :=
    fun member => before (Finset.mem_filter.mp member).2
  unfold Core.numRecs
  rw [recs, Finset.card_insert_of_notMem fresh]

theorem numRecs_congr {c c' : Core} {b : Nat}
    (same : ∀ j < granuleStatusTableSize, c'.OwnedBy b j ↔ c.OwnedBy b j) :
    c'.numRecs b = c.numRecs b := by
  have recs : (Finset.range granuleStatusTableSize).filter (c'.OwnedBy b) =
      (Finset.range granuleStatusTableSize).filter (c.OwnedBy b) :=
    Finset.filter_congr fun i member => same i (Finset.mem_range.mp member)
  exact congrArg Finset.card recs

/-- Nothing is pending between the REC and the host. -/
structure Rec.Clear (r : Rec) : Prop where
  psci : r.psciPending = false
  host : r.hostCallPending = false
  ripas : r.ripas.endAddr = 0
  abort : r.emulatableAbort = .notEmulatableAbort

/-- The descriptor after one more REC was created from the parameters in `page`. -/
def Rd.addRec (rd : Rd) (page : Page) : Rd :=
  ({ rd with vcpuIndex := rd.vcpuIndex + 1, recIndex := rd.recIndex + 1 } : Rd).measured
    (.recCreate page)

/-- REC_CREATE turned delegated granules into a REC and its auxiliary granules. -/
structure NewRec (c c' : Core) (a r : Nat) (rd : Rd) (rc : Rec) : Prop where
  realm : c.realm? a = some rd
  valid : validateAddr r = true
  state : c.stateOf r = .delegated
  isNew : rd.state = .new
  owner : rc.owner = some a
  clear : rc.Clear
  ripas : rc.ripas.state ≤ 1
  attest : rc.attestState = .noAttestInProgress
  aux : ∀ i < maxRecAuxGranules, validateAddr (rc.aux i) = true ∧ c.stateOf (rc.aux i) = .delegated ∧
    rc.aux i ≠ r
  isRec : c'.stateOf r = .recCtx
  isAux : ∀ i < maxRecAuxGranules, c'.stateOf (rc.aux i) = .recAux
  others : ∀ b, validateAddr b = true → b ≠ r → (∀ i < maxRecAuxGranules, b ≠ rc.aux i) →
    c'.stateOf b = c.stateOf b
  number : rc.vcpuid = rd.vcpuIndex
  desc : ∃ page, c'.mem a = .rd (rd.addRec page) ∧
    c'.log = .recCreated r :: .measured a (.recCreate page) :: c.log ∧
    Mpidr.validate (RecParams.mk page).mpidr = true ∧ Mpidr.index (RecParams.mk page).mpidr = rd.recIndex
  context : c'.mem r = .recCtx rc
  mem : ∀ b, b ≠ r → b ≠ a → c'.mem b = c.mem b
  count : c'.refCount a = c.refCount a + 1
  refCount : ∀ b, validateAddr b = true → b ≠ a → c'.refCount b = c.refCount b
  gpt : ∀ b, c'.gptOf b = c.gptOf b
  rttTables : c'.rttTables = c.rttTables
  vmidSet : c'.vmidSet = c.vmidSet

namespace NewRec

variable {c c' : Core} {a r : Nat} {rd : Rd} {rc : Rec} (new : NewRec c c' a r rd rc)

include new

theorem kept {b : Nat} (valid : validateAddr b = true) (used : c.stateOf b ≠ .delegated) :
    c'.stateOf b = c.stateOf b := by
  apply new.others b valid
  · rintro rfl
    exact used new.state
  · rintro i index rfl
    exact used (new.aux i index).2.1

theorem mem_kept {b : Nat} (used : c.stateOf b ≠ .delegated) (other : b ≠ a) : c'.mem b = c.mem b := by
  refine new.mem b ?_ other
  rintro rfl
  exact used new.state

theorem back {b : Nat} {state : GranuleState} (valid : validateAddr b = true) (recCtx : state ≠ .recCtx)
    (aux : state ≠ .recAux) (now : c'.stateOf b = state) : c.stateOf b = state := by
  by_cases same : b = r
  · rw [same, new.isRec] at now
    exact absurd now.symm recCtx
  · by_cases isAux : ∃ i < maxRecAuxGranules, b = rc.aux i
    · obtain ⟨i, index, rfl⟩ := isAux
      rw [new.isAux i index] at now
      exact absurd now.symm aux
    · rw [new.others b valid same fun i index equal => isAux ⟨i, index, equal⟩] at now
      exact now

theorem realmState : c.stateOf a = .rd := (Core.realm?_eq_some.mp new.realm).2.1

theorem owner_ne : a ≠ r := by
  rintro rfl
  have state := new.state
  rw [new.realmState] at state
  exact nomatch state

theorem realm_same : ∃ page, c'.realm? a = some (rd.addRec page) ∧
    c'.log = .recCreated r :: .measured a (.recCreate page) :: c.log := by
  obtain ⟨page, desc, log, _⟩ := new.desc
  obtain ⟨valid, state, _⟩ := Core.realm?_eq_some.mp new.realm
  refine ⟨page, ?_, log⟩
  rw [Core.realm?_eq_some, new.kept valid (by rw [state]; exact nofun), desc]
  exact ⟨valid, state, rfl⟩

theorem realm_other {b : Nat} (other : b ≠ a) : c'.realm? b = c.realm? b := by
  unfold Core.realm?
  by_cases valid : validateAddr b = true
  · by_cases state : c.stateOf b = .rd
    · rw [new.kept valid (by rw [state]; exact nofun), new.mem_kept (by rw [state]; exact nofun) other]
    · have now : c'.stateOf b ≠ .rd := fun now => state (new.back valid nofun nofun now)
      rw [if_neg (fun both => now both.2), if_neg (fun both => state both.2)]
  · rw [if_neg (fun both => valid both.1), if_neg (fun both => valid both.1)]

theorem sameRealms : SameRealms c c' := by
  intro b
  by_cases same : b = a
  · subst same
    obtain ⟨page, realm, _⟩ := new.realm_same
    rw [realm, new.realm]
    rfl
  · rw [new.realm_other same]

theorem sameMetadata : SameMetadata c c' := by
  intro b
  by_cases same : b = a
  · subst same
    obtain ⟨page, realm, _⟩ := new.realm_same
    rw [realm, new.realm]
    rfl
  · rw [new.realm_other same]

theorem sameOwners : SameOwners c c' := by
  have notRealm : ∀ b, c.stateOf b ≠ .rd → b ≠ a := by
    rintro b state rfl
    exact state new.realmState
  refine ⟨new.sameRealms, ?_, ?_⟩
  · intro b valid state
    rw [new.kept valid (by rw [state]; exact nofun),
      new.mem_kept (by rw [state]; exact nofun) (notRealm b (by rw [state]; exact nofun))]
    exact ⟨state, rfl⟩
  · intro b valid state
    rw [new.kept valid (by rw [state]; exact nofun)]
    exact state

/-- Other RECs are what they were. -/
theorem rec_other {b : Nat} (valid : validateAddr b = true) (other : b ≠ r) :
    (c'.stateOf b = .recCtx ↔ c.stateOf b = .recCtx) ∧
      (c.stateOf b = .recCtx → c'.mem b = c.mem b) := by
  constructor
  · constructor
    · intro now
      by_cases isAux : ∃ i < maxRecAuxGranules, b = rc.aux i
      · obtain ⟨i, index, rfl⟩ := isAux
        rw [new.isAux i index] at now
        exact nomatch now
      · rw [new.others b valid other fun i index equal => isAux ⟨i, index, equal⟩] at now
        exact now
    · intro state
      rw [new.kept valid (by rw [state]; exact nofun)]
      exact state
  · intro state
    refine new.mem b other ?_
    rintro rfl
    rw [new.realmState] at state
    exact nomatch state

theorem recInv (inv : c.RecInv) : c'.RecInv := by
  intro b valid state
  by_cases same : b = r
  · subst same
    rw [new.context]
    exact ⟨⟨a, new.owner, new.owner_ne⟩, fun i index => (new.aux i index).2.2, new.ripas⟩
  · obtain ⟨states, mem⟩ := new.rec_other valid same
    have old := states.mp state
    rw [mem old]
    exact inv b valid old

theorem ownedBy_other {b j : Nat} (bound : j < granuleStatusTableSize) (other : j ≠ granuleAddrToIndex r) :
    c'.OwnedBy b j ↔ c.OwnedBy b j := by
  have valid := validateAddr_indexToAddr bound
  have index := granuleAddrToIndex_indexToAddr bound
  have apart : indexToAddr j ≠ r := by
    rintro rfl
    exact other index.symm
  obtain ⟨states, mem⟩ := new.rec_other valid apart
  simp only [Core.stateOf, Core.granule, index] at states mem
  unfold Core.OwnedBy
  rw [states]
  constructor
  · rintro ⟨state, owner⟩
    exact ⟨state, by rw [← mem state]; exact owner⟩
  · rintro ⟨state, owner⟩
    exact ⟨state, by rw [mem state]; exact owner⟩

theorem not_owned (b : Nat) : ¬c.OwnedBy b (granuleAddrToIndex r) := by
  rintro ⟨state, _⟩
  have delegated : (c.granules (granuleAddrToIndex r)).state = .delegated := new.state
  rw [delegated] at state
  exact nomatch state

theorem owned_iff (b : Nat) : c'.OwnedBy b (granuleAddrToIndex r) ↔ b = a := by
  unfold Core.OwnedBy
  rw [indexToAddr_granuleAddrToIndex new.valid, new.context]
  have state : (c'.granules (granuleAddrToIndex r)).state = .recCtx := new.isRec
  simp only [state, Content.asRec_recCtx, new.owner, Option.some.injEq, true_and]
  exact eq_comm

theorem numRecs_same : c'.numRecs a = c.numRecs a + 1 :=
  numRecs_insert (granuleAddrToIndex_lt new.valid) (fun _ bound other => new.ownedBy_other bound other)
    (new.not_owned a) ((new.owned_iff a).mpr rfl)

theorem numRecs_other {b : Nat} (other : b ≠ a) : c'.numRecs b = c.numRecs b := by
  apply numRecs_congr
  intro j bound
  by_cases same : j = granuleAddrToIndex r
  · subst same
    exact ⟨fun owned => absurd ((new.owned_iff b).mp owned) other,
      fun owned => absurd owned (new.not_owned b)⟩
  · exact new.ownedBy_other bound same

theorem inv (inv : c.Inv) : c'.Inv := by
  refine ⟨inv.realms.of_same new.sameRealms new.rttTables new.vmidSet,
    inv.metadata.of_same new.sameMetadata ?_, inv.tables.of_same new.sameOwners, new.recInv inv.recs,
    inv.gpt.of_same ?_ new.gpt, ?_, ?_⟩
  · intro m valid state
    rw [new.kept valid (by rw [state]; exact nofun)]
    exact state
  · intro b valid
    constructor
    · exact new.back valid nofun nofun
    · intro state
      rw [new.kept valid (by rw [state]; exact nofun)]
      exact state
  · intro b valid now
    have state : c.stateOf b ≠ .rd := by
      intro state
      rw [new.kept valid (by rw [state]; exact nofun)] at now
      exact now state
    have other : b ≠ a := by
      rintro rfl
      exact state new.realmState
    rw [new.refCount b valid other]
    exact inv.counts.others valid state
  · intro b valid
    by_cases same : b = a
    · subst same
      rw [new.count, inv.counts.recs valid, new.numRecs_same, BitVec.ofNat_add]
      rfl
    · rw [new.refCount b valid same, inv.counts.recs valid, new.numRecs_other same]

end NewRec

/-! ### The end of a REC -/

/-- The count of a realm goes down and its REC goes back to the delegated granules. -/
def endRecCore (c : Core) (r o : Nat) : Core :=
  setStateCore (granuleAddrToIndex r) .delegated
    (c.setGranule (granuleAddrToIndex o)
      { c.granules (granuleAddrToIndex o) with
        refCount := (c.granules (granuleAddrToIndex o)).refCount - 1 })

structure EndRec (c : Core) (r o : Nat) : Prop where
  valid : validateAddr r = true
  state : c.stateOf r = .recCtx
  owner : (c.mem r).asRec.owner = some o
  realm : validateAddr o = true ∧ c.stateOf o = .rd

namespace EndRec

variable {c : Core} {r o : Nat} (ended : EndRec c r o)

omit [Platform] in
/-- Counting alone changes no state. -/
theorem stateOf_setCount (b : Nat) (count : BitVec 8) :
    (c.setGranule (granuleAddrToIndex o)
      { c.granules (granuleAddrToIndex o) with refCount := count }).stateOf b = c.stateOf b := by
  simp only [Core.setGranule, Core.stateOf, Core.granule]
  by_cases same : granuleAddrToIndex b = granuleAddrToIndex o
  · rw [same, Function.update_self]
  · rw [Function.update_of_ne same]

include ended

theorem stateOf {b : Nat} (valid : validateAddr b = true) :
    (endRecCore c r o).stateOf b = if b = r then .delegated else c.stateOf b := by
  rw [endRecCore, stateOf_setState ended.valid valid, stateOf_setCount]

theorem mem_other {b : Nat} (other : b ≠ r) : (endRecCore c r o).mem b = c.mem b :=
  Core.mem_setStateCore_of_ne .delegated ended.valid other

theorem refCount {b : Nat} (valid : validateAddr b = true) :
    (endRecCore c r o).refCount b = if b = o then c.refCount b - 1 else c.refCount b := by
  rw [endRecCore, Core.refCount_setStateCore]
  simp only [Core.setGranule, Core.refCount, Core.granule]
  by_cases same : b = o
  · rw [if_pos same, same, Function.update_self]
  · have apart : granuleAddrToIndex b ≠ granuleAddrToIndex o :=
      fun equal => same ((granuleAddrToIndex_inj valid ended.realm.1).mp equal)
    rw [if_neg same, Function.update_of_ne apart]

theorem kept {b : Nat} (valid : validateAddr b = true) (notRec : c.stateOf b ≠ .recCtx) :
    (endRecCore c r o).stateOf b = c.stateOf b ∧ (endRecCore c r o).mem b = c.mem b := by
  have other : b ≠ r := by
    rintro rfl
    exact notRec ended.state
  rw [ended.stateOf valid, if_neg other, ended.mem_other other]
  exact ⟨rfl, rfl⟩

theorem back {b : Nat} {state : GranuleState} (valid : validateAddr b = true) (used : state ≠ .delegated)
    (now : (endRecCore c r o).stateOf b = state) : b ≠ r ∧ c.stateOf b = state := by
  rw [ended.stateOf valid] at now
  split at now
  · exact absurd now.symm used
  · exact ⟨‹_›, now⟩

theorem realm? (b : Nat) : (endRecCore c r o).realm? b = c.realm? b := by
  unfold Core.realm?
  by_cases valid : validateAddr b = true
  · by_cases state : c.stateOf b = .rd
    · obtain ⟨same, mem⟩ := ended.kept valid (by rw [state]; exact nofun)
      rw [same, mem]
    · have now : (endRecCore c r o).stateOf b ≠ .rd := fun now => state (ended.back valid (by decide) now).2
      rw [if_neg (fun both => now both.2), if_neg (fun both => state both.2)]
  · rw [if_neg (fun both => valid both.1), if_neg (fun both => valid both.1)]

theorem sameOwners : SameOwners c (endRecCore c r o) := by
  refine ⟨fun b => by rw [ended.realm?], ?_, ?_⟩
  · intro b valid state
    obtain ⟨same, mem⟩ := ended.kept valid (by rw [state]; exact nofun)
    rw [same, mem]
    exact ⟨state, rfl⟩
  · intro b valid state
    rw [(ended.kept valid (by rw [state]; exact nofun)).1]
    exact state

theorem ownedBy_other {b j : Nat} (bound : j < granuleStatusTableSize) (other : j ≠ granuleAddrToIndex r) :
    c.OwnedBy b j ↔ (endRecCore c r o).OwnedBy b j := by
  have valid := validateAddr_indexToAddr bound
  have index := granuleAddrToIndex_indexToAddr bound
  have apart : indexToAddr j ≠ r := by
    rintro rfl
    exact other index.symm
  have state : (endRecCore c r o).stateOf (indexToAddr j) = c.stateOf (indexToAddr j) := by
    rw [ended.stateOf valid, if_neg apart]
  simp only [Core.stateOf, Core.granule, index] at state
  unfold Core.OwnedBy
  rw [state, ended.mem_other apart]

theorem not_owned (b : Nat) : ¬(endRecCore c r o).OwnedBy b (granuleAddrToIndex r) := by
  rintro ⟨state, _⟩
  have delegated : (endRecCore c r o).stateOf r = .delegated := by
    rw [ended.stateOf ended.valid, if_pos rfl]
  have same : (endRecCore c r o).stateOf r = .recCtx := state
  rw [delegated] at same
  exact nomatch same

theorem owned_iff (b : Nat) : c.OwnedBy b (granuleAddrToIndex r) ↔ b = o := by
  unfold Core.OwnedBy
  rw [indexToAddr_granuleAddrToIndex ended.valid, ended.owner]
  have state : (c.granules (granuleAddrToIndex r)).state = .recCtx := ended.state
  simp only [state, Option.some.injEq, true_and]
  exact eq_comm

theorem numRecs_same : c.numRecs o = (endRecCore c r o).numRecs o + 1 :=
  numRecs_insert (granuleAddrToIndex_lt ended.valid)
    (fun _ bound other => ended.ownedBy_other bound other) (ended.not_owned o) ((ended.owned_iff o).mpr rfl)

theorem numRecs_other {b : Nat} (other : b ≠ o) : (endRecCore c r o).numRecs b = c.numRecs b := by
  apply numRecs_congr
  intro j bound
  by_cases same : j = granuleAddrToIndex r
  · subst same
    exact ⟨fun owned => absurd owned (ended.not_owned b),
      fun owned => absurd ((ended.owned_iff b).mp owned) other⟩
  · exact (ended.ownedBy_other bound same).symm

theorem inv (inv : c.Inv) : (endRecCore c r o).Inv := by
  refine ⟨inv.realms.of_same (fun b => by rw [ended.realm?]) (Core.rttTables_setStateCore _)
      (Core.vmidSet_setStateCore _),
    inv.metadata.of_same (fun b => by rw [ended.realm?]) ?_, inv.tables.of_same ended.sameOwners, ?_,
    inv.gpt.of_same ?_ (fun b => Core.gptOf_setStateCore _), ?_, ?_⟩
  · intro m valid state
    rw [(ended.kept valid (by rw [state]; exact nofun)).1]
    exact state
  · intro b valid state
    obtain ⟨other, old⟩ := ended.back valid (by nofun) state
    rw [ended.mem_other other]
    exact inv.recs b valid old
  · intro b valid
    constructor
    · intro now
      exact (ended.back valid (by nofun) now).2
    · intro state
      rw [(ended.kept valid (by rw [state]; exact nofun)).1]
      exact state
  · intro b valid now
    have state : c.stateOf b ≠ .rd := by
      intro state
      rw [(ended.kept valid (by rw [state]; exact nofun)).1] at now
      exact now state
    have other : b ≠ o := by
      rintro rfl
      exact state ended.realm.2
    rw [ended.refCount valid, if_neg other]
    exact inv.counts.others valid state
  · intro b valid
    rw [ended.refCount valid]
    by_cases same : b = o
    · subst same
      rw [if_pos rfl, inv.counts.recs valid, ended.numRecs_same, BitVec.ofNat_add]
      exact BitVec.add_sub_cancel _ _
    · rw [if_neg same, inv.counts.recs valid, ended.numRecs_other same]

end EndRec

end Islet.Rmm
