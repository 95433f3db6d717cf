import Mathlib.Data.Finset.Card
import Islet.Rmm.Realm.Pages

/-! The invariant of the monitor's state between commands.

`TableInv` is the ownership discipline of realm memory: tables are exclusive and
in granules of state RTT, and the pages of the protected half are backed by Data
granules of their own. The other parts are about the realms themselves, their
RECs, the protection table of EL3, and reference counts. What is said of a count
is only its value modulo 256, since it is a byte. -/

namespace Islet.Rmm

open Lib Bits

variable [Platform]

/-- The realms by themselves. -/
structure Core.RealmInv (c : Core) : Prop where
  shape : ∀ {a rd}, c.realm? a = some rd → rd.Shape
  registered : ∀ {a rd}, c.realm? a = some rd → c.rttTables rd.vmid = some rd.tables
  listed : ∀ {a rd}, c.realm? a = some rd → rd.vmid ∈ c.vmidSet
  used : ∀ v ∈ c.vmidSet, ∃ a rd, c.realm? a = some rd ∧ rd.vmid = v
  vmid_inj : ∀ {a a' rd rd'}, c.realm? a = some rd → c.realm? a' = some rd' → rd.vmid = rd'.vmid →
    a = a'
  hash : ∀ {a rd}, c.realm? a = some rd → rd.hashAlgo = 0 ∨ rd.hashAlgo = 1

/-- A realm's metadata granule is its own. -/
structure Core.MetadataInv (c : Core) : Prop where
  state : ∀ {a rd m}, c.realm? a = some rd → rd.metadata = some m →
    validateAddr m = true ∧ c.stateOf m = .metadata
  inj : ∀ {a a' rd rd' m}, c.realm? a = some rd → c.realm? a' = some rd' →
    rd.metadata = some m → rd'.metadata = some m → a = a'

/-- The tables of realms and the granules behind their pages. -/
structure Core.TableInv (c : Core) : Prop where
  exclusive : c.forest.Exclusive
  tables : ∀ {a l p b}, c.forest.node a l p = some b → validateAddr b = true ∧ c.stateOf b = .rtt
  plain : ∀ {a l q e}, c.forest.entry a l q = some e → S2tte.isTable e l = true →
    e.toNat = S2tte.outAddr e 3 + 3
  pages : ∀ {a g v rd}, c.realm? a = some rd → c.Page a g v → rd.Fits g v
  backed : ∀ {a g v pa}, c.Page a g v → v.backing? = some pa →
    validateAddr pa = true ∧ c.stateOf pa = .data
  backed_inj : ∀ {a a' g g' v v' pa}, c.Page a g v → c.Page a' g' v' → v.backing? = some pa →
    v'.backing? = some pa → a = a' ∧ g = g'

/-- A REC has an owner, and names neither itself as owner nor as auxiliary granule. -/
structure RecOk (a : Nat) (r : Rec) : Prop where
  owner : ∃ o, r.owner = some o ∧ o ≠ a
  aux : ∀ i < maxRecAuxGranules, r.aux i ≠ a
  ripas : r.ripas.state ≤ 1

def Core.RecInv (c : Core) : Prop :=
  ∀ a, validateAddr a = true → c.stateOf a = .recCtx → RecOk a (c.mem a).asRec

/-- Exactly the undelegated granules are outside the realm world. -/
def Core.GptInv (c : Core) : Prop :=
  ∀ a, validateAddr a = true → (c.stateOf a = .undelegated ↔ c.gptOf a ≠ .realm)

/-- The REC in the granule with the given index belongs to the realm at `a`. -/
def Core.OwnedBy (c : Core) (a i : Nat) : Prop :=
  (c.granules i).state = .recCtx ∧ (c.mem (indexToAddr i)).asRec.owner = some a

instance (c : Core) (a i : Nat) : Decidable (c.OwnedBy a i) := inferInstanceAs (Decidable (_ ∧ _))

/-- How many RECs belong to the realm at `a`. -/
def Core.numRecs (c : Core) (a : Nat) : Nat :=
  ((Finset.range granuleStatusTableSize).filter (c.OwnedBy a)).card

/-- Reference counts are those of realms, modulo 256. -/
structure Core.CountInv (c : Core) : Prop where
  others : ∀ {a}, validateAddr a = true → c.stateOf a ≠ .rd → c.refCount a = 0
  recs : ∀ {a}, validateAddr a = true → c.refCount a = BitVec.ofNat 8 (c.numRecs a)

structure Core.Inv (c : Core) : Prop where
  realms : c.RealmInv
  metadata : c.MetadataInv
  tables : c.TableInv
  recs : c.RecInv
  gpt : c.GptInv
  counts : c.CountInv

/-! ### Consequences -/

section Consequences

variable {c : Core} {a l p b : Nat} {rd : Rd}

theorem Core.RealmInv.realm_of_node (realms : c.RealmInv) (found : c.forest.node a l p = some b) :
    ∃ rd, c.realm? a = some rd ∧ rd.s2StartingLevel ≤ l ∧ l ≤ 3 := by
  obtain ⟨rd, realm, low, high⟩ := Core.realm_of_node found
  have := (realms.shape realm).level_le
  exact ⟨rd, realm, low, by omega⟩

/-- A page of a realm is found through a table of that realm. -/
theorem Core.Page.realm {g : Nat} {v : View} (page : c.Page a g v) : ∃ rd, c.realm? a = some rd := by
  obtain ⟨l, e, leaf, _⟩ := page
  obtain ⟨b, place, _⟩ := Forest.node_of_entry leaf.stored
  obtain ⟨rd, realm, _, _⟩ := Core.realm_of_node place
  exact ⟨rd, realm⟩

/-- A granule that is not in state RTT is no table. -/
theorem Core.TableInv.not_table (tables : c.TableInv) (state : c.stateOf b ≠ .rtt) :
    c.forest.node a l p ≠ some b :=
  fun found => state (tables.tables found).2

/-- A granule that is not in state Data backs no page. -/
theorem Core.TableInv.not_backing {g pa : Nat} {v : View} (tables : c.TableInv)
    (page : c.Page a g v) (state : c.stateOf pa ≠ .data) : v.backing? ≠ some pa :=
  fun backed => state (tables.backed page backed).2

end Consequences

/-! ### Realms with the same layout -/

section Layout

omit [Platform]

variable {rd rd' : Rd} (same : rd'.layout = rd.layout)

include same

theorem Rd.Shape.of_layout (shape : rd.Shape) : rd'.Shape := by
  have level := congrArg Layout.s2StartingLevel same
  have num := congrArg Layout.rttNumStart same
  have bits := congrArg Layout.ipaBits same
  simp only [Rd.layout] at level num bits
  constructor
  · rw [level, num]; exact shape.supported
  · rw [level, num, bits]; exact shape.covered
  · rw [level, bits]; exact shape.halves
  · rw [bits]; exact shape.bits

theorem Rd.tables_of_layout : rd'.tables = rd.tables := by
  have level := congrArg Layout.s2StartingLevel same
  have num := congrArg Layout.rttNumStart same
  have base := congrArg Layout.rttBase same
  simp only [Rd.layout] at level num base
  unfold Rd.tables
  rw [level, num, base]

theorem Rd.parSize_of_layout : rd'.parSize = rd.parSize := by
  have bits := congrArg Layout.ipaBits same
  simp only [Rd.layout] at bits
  unfold Rd.parSize Rd.ipaSize
  rw [bits]

theorem Rd.fits_of_layout {g : Nat} {v : View} : rd'.Fits g v ↔ rd.Fits g v := by
  have half : rd'.inPar g ↔ rd.inPar g := by
    unfold Rd.inPar
    rw [Rd.parSize_of_layout same]
  unfold Rd.Fits
  simp only [half]

end Layout

/-- Both states have the same realms, up to what a realm may change about itself. -/
def SameRealms (c c' : Core) : Prop :=
  ∀ a, (c'.realm? a).map Rd.layout = (c.realm? a).map Rd.layout

theorem SameRealms.back {c c' : Core} {a : Nat} {rd' : Rd} (same : SameRealms c c')
    (realm : c'.realm? a = some rd') : ∃ rd, c.realm? a = some rd ∧ rd'.layout = rd.layout := by
  have layouts := same a
  rw [realm, Option.map_some] at layouts
  cases old : c.realm? a with
  | none => rw [old] at layouts; exact nomatch layouts
  | some rd =>
    rw [old, Option.map_some] at layouts
    exact ⟨rd, rfl, Option.some.inj layouts⟩

theorem SameRealms.forth {c c' : Core} {a : Nat} {rd : Rd} (same : SameRealms c c')
    (realm : c.realm? a = some rd) : ∃ rd', c'.realm? a = some rd' ∧ rd'.layout = rd.layout := by
  have layouts := same a
  rw [realm, Option.map_some] at layouts
  cases now : c'.realm? a with
  | none => rw [now] at layouts; exact nomatch layouts
  | some rd' =>
    rw [now, Option.map_some] at layouts
    exact ⟨rd', rfl, Option.some.inj layouts⟩

theorem Core.RealmInv.of_same {c c' : Core} (inv : c.RealmInv) (same : SameRealms c c')
    (rttTables : c'.rttTables = c.rttTables) (vmidSet : c'.vmidSet = c.vmidSet) : c'.RealmInv := by
  constructor
  · intro a rd' realm
    obtain ⟨rd, old, layout⟩ := same.back realm
    exact (inv.shape old).of_layout layout
  · intro a rd' realm
    obtain ⟨rd, old, layout⟩ := same.back realm
    rw [rttTables, Rd.tables_of_layout layout, show rd'.vmid = rd.vmid from congrArg Layout.vmid layout]
    exact inv.registered old
  · intro a rd' realm
    obtain ⟨rd, old, layout⟩ := same.back realm
    rw [vmidSet, show rd'.vmid = rd.vmid from congrArg Layout.vmid layout]
    exact inv.listed old
  · intro v member
    rw [vmidSet] at member
    obtain ⟨a, rd, old, rfl⟩ := inv.used v member
    obtain ⟨rd', now, layout⟩ := same.forth old
    exact ⟨a, rd', now, congrArg Layout.vmid layout⟩
  · intro a₁ a₂ rd₁ rd₂ realm₁ realm₂ vmids
    obtain ⟨old₁, here₁, layout₁⟩ := same.back realm₁
    obtain ⟨old₂, here₂, layout₂⟩ := same.back realm₂
    apply inv.vmid_inj here₁ here₂
    rw [← show rd₁.vmid = old₁.vmid from congrArg Layout.vmid layout₁, vmids]
    exact congrArg Layout.vmid layout₂
  · intro a rd' realm
    obtain ⟨rd, old, layout⟩ := same.back realm
    rw [show rd'.hashAlgo = rd.hashAlgo from congrArg Layout.hashAlgo layout]
    exact inv.hash old

/-- Both states record the same metadata granules. -/
def SameMetadata (c c' : Core) : Prop :=
  ∀ a, (c'.realm? a).map Rd.metadata = (c.realm? a).map Rd.metadata

theorem SameMetadata.back {c c' : Core} {a : Nat} {rd' : Rd} (same : SameMetadata c c')
    (realm : c'.realm? a = some rd') : ∃ rd, c.realm? a = some rd ∧ rd'.metadata = rd.metadata := by
  have fields := same a
  rw [realm, Option.map_some] at fields
  cases old : c.realm? a with
  | none => rw [old] at fields; exact nomatch fields
  | some rd =>
    rw [old, Option.map_some] at fields
    exact ⟨rd, rfl, Option.some.inj fields⟩

theorem Core.MetadataInv.of_same {c c' : Core} (inv : c.MetadataInv) (same : SameMetadata c c')
    (states : ∀ m, validateAddr m = true → c.stateOf m = .metadata → c'.stateOf m = .metadata) :
    c'.MetadataInv := by
  constructor
  · intro a rd' m realm has
    obtain ⟨rd, old, equal⟩ := same.back realm
    rw [equal] at has
    obtain ⟨valid, state⟩ := inv.state old has
    exact ⟨valid, states m valid state⟩
  · intro a₁ a₂ rd₁ rd₂ m realm₁ realm₂ has₁ has₂
    obtain ⟨old₁, here₁, equal₁⟩ := same.back realm₁
    obtain ⟨old₂, here₂, equal₂⟩ := same.back realm₂
    rw [equal₁] at has₁
    rw [equal₂] at has₂
    exact inv.inj here₁ here₂ has₁ has₂

/-- Tables and Data granules stay as they are. -/
structure SameOwners (c c' : Core) : Prop where
  realms : SameRealms c c'
  tables : ∀ b, validateAddr b = true → c.stateOf b = .rtt →
    c'.stateOf b = .rtt ∧ (c'.mem b).words = (c.mem b).words
  data : ∀ b, validateAddr b = true → c.stateOf b = .data → c'.stateOf b = .data

theorem SameOwners.sameForest {c c' : Core} (same : SameOwners c c') (inv : c.TableInv) :
    SameForest c c' :=
  ⟨same.realms, fun _ _ _ b found =>
    (same.tables b (inv.tables found).1 (inv.tables found).2).2⟩

theorem Core.TableInv.of_same {c c' : Core} (inv : c.TableInv) (same : SameOwners c c') :
    c'.TableInv := by
  have forest := same.sameForest inv
  constructor
  · exact forest.exclusive inv.exclusive
  · intro a l p b found
    rw [forest.node_eq] at found
    obtain ⟨valid, state⟩ := inv.tables found
    exact ⟨valid, (same.tables b valid state).1⟩
  · intro a l q e stored table
    rw [forest.entry_eq] at stored
    exact inv.plain stored table
  · intro a g v rd' realm page
    obtain ⟨rd, old, layout⟩ := same.realms.back realm
    rw [Rd.fits_of_layout layout]
    exact inv.pages old (forest.page_iff.mp page)
  · intro a g v pa page backing
    obtain ⟨valid, state⟩ := inv.backed (forest.page_iff.mp page) backing
    exact ⟨valid, same.data pa valid state⟩
  · intro a a' g g' v v' pa left right backing backing'
    exact inv.backed_inj (forest.page_iff.mp left) (forest.page_iff.mp right) backing backing'

/-! ### RECs, the protection table and counts -/

/-- Both states have the same RECs, up to what a REC may change about itself. -/
structure SameRecs (c c' : Core) : Prop where
  states : ∀ a, validateAddr a = true → (c'.stateOf a = .recCtx ↔ c.stateOf a = .recCtx)
  owner : ∀ a, validateAddr a = true → c.stateOf a = .recCtx →
    (c'.mem a).asRec.owner = (c.mem a).asRec.owner
  aux : ∀ a, validateAddr a = true → c.stateOf a = .recCtx →
    (c'.mem a).asRec.aux = (c.mem a).asRec.aux
  ripas : ∀ a, validateAddr a = true → c.stateOf a = .recCtx →
    (c.mem a).asRec.ripas.state ≤ 1 → (c'.mem a).asRec.ripas.state ≤ 1

theorem Core.RecInv.of_same {c c' : Core} (inv : c.RecInv) (same : SameRecs c c') : c'.RecInv := by
  intro a valid state
  have old := (same.states a valid).mp state
  have ok := inv a valid old
  refine ⟨?_, ?_, same.ripas a valid old ok.ripas⟩
  · rw [same.owner a valid old]
    exact ok.owner
  · rw [same.aux a valid old]
    exact ok.aux

theorem ownedBy_iff {c c' : Core} (same : SameRecs c c') (a : Nat) {i : Nat}
    (bound : i < granuleStatusTableSize) : c'.OwnedBy a i ↔ c.OwnedBy a i := by
  have valid := validateAddr_indexToAddr bound
  have index := granuleAddrToIndex_indexToAddr bound
  have states := same.states _ valid
  simp only [Core.stateOf, Core.granule, index] at states
  unfold Core.OwnedBy
  rw [states]
  constructor
  · rintro ⟨state, owner⟩
    rw [same.owner _ valid (by simpa only [Core.stateOf, Core.granule, index] using state)] at owner
    exact ⟨state, owner⟩
  · rintro ⟨state, owner⟩
    rw [same.owner _ valid (by simpa only [Core.stateOf, Core.granule, index] using state)]
    exact ⟨state, owner⟩

theorem numRecs_eq {c c' : Core} (same : SameRecs c c') (a : Nat) : c'.numRecs a = c.numRecs a := by
  have recs : (Finset.range granuleStatusTableSize).filter (c'.OwnedBy a) =
      (Finset.range granuleStatusTableSize).filter (c.OwnedBy a) :=
    Finset.filter_congr fun i member => ownedBy_iff same a (Finset.mem_range.mp member)
  exact congrArg Finset.card recs

theorem Core.CountInv.of_same {c c' : Core} (inv : c.CountInv) (same : SameRecs c c')
    (refCount : ∀ a, c'.refCount a = c.refCount a)
    (realms : ∀ a, validateAddr a = true → c'.stateOf a ≠ .rd → c.stateOf a ≠ .rd) : c'.CountInv := by
  constructor
  · intro a valid state
    rw [refCount]
    exact inv.others valid (realms a valid state)
  · intro a valid
    rw [refCount, numRecs_eq same]
    exact inv.recs valid

omit [Platform] in
theorem Core.GptInv.of_same {c c' : Core} (inv : c.GptInv)
    (states : ∀ a, validateAddr a = true → (c'.stateOf a = .undelegated ↔ c.stateOf a = .undelegated))
    (gpt : ∀ a, c'.gptOf a = c.gptOf a) : c'.GptInv := by
  intro a valid
  rw [states a valid, gpt]
  exact inv a valid

/-! ### Changes of contents -/

section Content

variable {c : Core} {a : Nat}

theorem realm?_setContent_of_ne {b : Nat} {content : Content} (other : b ≠ a) :
    (c.setContent a content).realm? b = c.realm? b := by
  unfold Core.realm?
  rw [Core.stateOf_setContent, Core.mem_setContent_of_ne content other]

/-- A granule that is no realm descriptor can change without changing the realms. -/
theorem realm?_setContent {content : Content} (state : c.stateOf a ≠ .rd) (b : Nat) :
    (c.setContent a content).realm? b = c.realm? b := by
  by_cases same : b = a
  · subst same
    unfold Core.realm?
    rw [Core.stateOf_setContent, if_neg (fun both => state both.2), if_neg (fun both => state both.2)]
  · exact realm?_setContent_of_ne same

theorem sameRealms_setContent {content : Content} (state : c.stateOf a ≠ .rd) :
    SameRealms c (c.setContent a content) :=
  fun b => by rw [realm?_setContent state]

theorem sameMetadata_setContent {content : Content} (state : c.stateOf a ≠ .rd) :
    SameMetadata c (c.setContent a content) :=
  fun b => by rw [realm?_setContent state]

theorem sameRecs_setContent {content : Content} (state : c.stateOf a ≠ .recCtx) :
    SameRecs c (c.setContent a content) := by
  have mem : ∀ b, c.stateOf b = .recCtx → (c.setContent a content).mem b = c.mem b := by
    intro b isRec
    apply Core.mem_setContent_of_ne
    rintro rfl
    exact state isRec
  constructor
  · intro b _
    exact Iff.rfl
  · intro b _ isRec
    rw [mem b isRec]
  · intro b _ isRec
    rw [mem b isRec]
  · intro b _ isRec
    rw [mem b isRec]
    exact id

theorem sameOwners_setContent {content : Content} (realm : c.stateOf a ≠ .rd)
    (table : c.stateOf a ≠ .rtt) : SameOwners c (c.setContent a content) := by
  refine ⟨sameRealms_setContent realm, ?_, fun _ _ state => state⟩
  intro b _ state
  have other : b ≠ a := by
    rintro rfl
    exact table state
  exact ⟨state, by rw [Core.mem_setContent_of_ne content other]⟩

/-- The contents of a granule that is neither a descriptor, a table nor a REC are free. -/
theorem Core.Inv.setContent (inv : c.Inv) {content : Content} (realm : c.stateOf a ≠ .rd)
    (table : c.stateOf a ≠ .rtt) (recCtx : c.stateOf a ≠ .recCtx) : (c.setContent a content).Inv :=
  ⟨inv.realms.of_same (sameRealms_setContent realm) rfl rfl,
    inv.metadata.of_same (sameMetadata_setContent realm) fun _ _ state => state,
    inv.tables.of_same (sameOwners_setContent realm table),
    inv.recs.of_same (sameRecs_setContent recCtx),
    inv.gpt.of_same (fun _ _ => Iff.rfl) fun _ => rfl,
    inv.counts.of_same (sameRecs_setContent recCtx) (fun _ => rfl) fun _ _ state => state⟩

variable {rd : Rd}

theorem realm?_setRd (realm : c.realm? a = some rd) (rd' : Rd) (b : Nat) :
    (c.setContent a (.rd rd')).realm? b = if b = a then some rd' else c.realm? b := by
  split
  · rename_i same
    subst same
    obtain ⟨valid, state, _⟩ := Core.realm?_eq_some.mp realm
    rw [Core.realm?_eq_some]
    exact ⟨valid, state, by rw [Core.mem_setContent_same]; rfl⟩
  · rename_i other
    exact realm?_setContent_of_ne other

theorem sameRealms_setRd (realm : c.realm? a = some rd) {rd' : Rd} (layout : rd'.layout = rd.layout) :
    SameRealms c (c.setContent a (.rd rd')) := by
  intro b
  rw [realm?_setRd realm]
  split
  · rename_i same
    rw [same, realm, Option.map_some, Option.map_some, layout]
  · rfl

theorem sameOwners_setRd (realm : c.realm? a = some rd) {rd' : Rd} (layout : rd'.layout = rd.layout) :
    SameOwners c (c.setContent a (.rd rd')) := by
  refine ⟨sameRealms_setRd realm layout, ?_, fun _ _ state => state⟩
  intro b _ table
  have other : b ≠ a := by
    rintro rfl
    rw [(Core.realm?_eq_some.mp realm).2.1] at table
    exact nomatch table
  exact ⟨table, by rw [Core.mem_setContent_of_ne _ other]⟩

end Content

end Islet.Rmm
