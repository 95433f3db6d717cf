import Islet.Rmm.Realm.Tree

/-! The memory of a realm as its tables describe it: a view for each IPA page.
This is what the tables are for, and the operations on tables are stated by what
they do to it: a plain write changes the pages below one entry, a split changes
none, and a change elsewhere in memory changes none. -/

namespace Islet.Rmm

open Lib Bits Stage2Translation

/-- The fields of a realm descriptor that never change while the realm exists. -/
structure Layout where
  vmid : Nat
  rttBase : Nat
  rttNumStart : Nat
  ipaBits : Nat
  s2StartingLevel : Nat
  hashAlgo : Nat
  deriving DecidableEq

def Rd.layout (rd : Rd) : Layout :=
  ⟨rd.vmid, rd.rttBase, rd.rttNumStart, rd.ipaBits, rd.s2StartingLevel, rd.hashAlgo⟩

/-! ### Halves of the IPA space -/

/-- The page is in the protected half. -/
def Rd.inPar (rd : Rd) (g : Nat) : Prop := g * 4096 < rd.parSize

instance (rd : Rd) (g : Nat) : Decidable (rd.inPar g) := inferInstanceAs (Decidable (_ < _))

/-- The view fits the half that its page is in. -/
def Rd.Fits (rd : Rd) (g : Nat) (v : View) : Prop :=
  if rd.inPar g then v.Protected else v.Unprotected

theorem View.protected_at {v : View} (k : Nat) : (v.at_ k).Protected ↔ v.Protected := by
  cases v <;> exact Iff.rfl

theorem View.unprotected_at {v : View} (k : Nat) : (v.at_ k).Unprotected ↔ v.Unprotected := by
  cases v <;> exact Iff.rfl

theorem Rd.fits_at {rd : Rd} {g : Nat} {v : View} (k : Nat) : rd.Fits g (v.at_ k) ↔ rd.Fits g v := by
  unfold Rd.Fits
  split
  · exact View.protected_at k
  · exact View.unprotected_at k

/-- No entry covers pages of both halves. -/
theorem Rd.Shape.half {rd : Rd} (shape : rd.Shape) {l g g' : Nat} (low : rd.s2StartingLevel ≤ l)
    (high : l ≤ 3) (same : g / 512 ^ (3 - l) = g' / 512 ^ (3 - l)) : rd.inPar g ↔ rd.inPar g' := by
  have halves := shape.halves
  -- the boundary is a multiple of what the entry covers
  obtain ⟨m, boundary⟩ : ∃ m, rd.parSize = m * (4096 * 512 ^ (3 - l)) := by
    refine ⟨2 ^ (rd.ipaBits - 1 - (39 - 9 * l)), ?_⟩
    rw [← entry_bytes high, ← Nat.pow_add, Rd.parSize, Rd.ipaSize]
    have total : 2 ^ rd.ipaBits = 2 ^ (rd.ipaBits - 1 - (39 - 9 * l) + (39 - 9 * l)) * 2 := by
      rw [← Nat.pow_succ]
      congr 1
      omega
    rw [total, Nat.mul_div_cancel _ (by omega)]
  have positive : 0 < 512 ^ (3 - l) := Nat.pow_pos (by omega)
  have below : ∀ g, rd.inPar g ↔ g / 512 ^ (3 - l) < m := by
    intro g
    rw [Rd.inPar, boundary, Nat.div_lt_iff_lt_mul positive,
      show m * (4096 * 512 ^ (3 - l)) = (m * 512 ^ (3 - l)) * 4096 by ring]
    exact ⟨fun less => Nat.lt_of_mul_lt_mul_right less,
      fun less => Nat.mul_lt_mul_of_pos_right less (by omega)⟩
  rw [below, below, same]

theorem page_of_block {l q k : Nat} (inside : k < 512 ^ (3 - l)) :
    (q * 512 ^ (3 - l) + k) / 512 ^ (3 - l) = q ∧ (q * 512 ^ (3 - l) + k) % 512 ^ (3 - l) = k := by
  rw [Nat.mul_comm, Nat.mul_add_div (by omega), Nat.div_eq_of_lt inside, Nat.mul_add_mod,
    Nat.mod_eq_of_lt inside]
  exact ⟨by omega, rfl⟩

/-! ### Pages -/

variable [Platform]

/-- Page `g` of the realm at `a` has view `v`. -/
def Core.Page (c : Core) (a g : Nat) (v : View) : Prop :=
  ∃ l e, c.forest.Leaf 3 a g l e ∧ v = (S2tte.view l e).at_ (g % 512 ^ (3 - l))

variable {c c' : Core} {a g : Nat}

theorem Core.Page.unique {v w : View} (left : c.Page a g v) (right : c.Page a g w) : v = w := by
  obtain ⟨l, e, leaf, rfl⟩ := left
  obtain ⟨l', e', leaf', rfl⟩ := right
  obtain ⟨rfl, rfl⟩ := leaf.unique leaf'
  rfl

/-- A leaf entry gives the views of all pages below it. -/
theorem Core.Page.of_entry {l q : Nat} {e : Word} (stored : c.forest.entry a l q = some e)
    (leaf : S2tte.isTable e l = false) (bound : l ≤ 3) (below : g / 512 ^ (3 - l) = q) :
    c.Page a g ((S2tte.view l e).at_ (g % 512 ^ (3 - l))) :=
  ⟨l, e, ⟨bound, by rw [below]; exact stored, by rw [Core.forest_next, leaf]; rfl⟩, rfl⟩

/-! ### Changes away from the tables -/

/-- Realms and tables are the same in both states. -/
structure SameForest (c c' : Core) : Prop where
  realms : ∀ a, (c'.realm? a).map Rd.layout = (c.realm? a).map Rd.layout
  read : ∀ a l p b, c.forest.node a l p = some b → (c'.mem b).words = (c.mem b).words

theorem forest_top_eq (realms : (c'.realm? a).map Rd.layout = (c.realm? a).map Rd.layout) :
    c'.forest.top a = c.forest.top a := by
  have eq : ∀ c : Core, c.forest.top a = ((c.realm? a).map Rd.layout).elim 0 (·.s2StartingLevel) := by
    intro c
    cases realm : c.realm? a <;> simp [Core.forest, realm, Rd.layout]
  rw [eq, eq, realms]

theorem forest_root_eq (realms : (c'.realm? a).map Rd.layout = (c.realm? a).map Rd.layout) (p : Nat) :
    c'.forest.root a p = c.forest.root a p := by
  have eq : ∀ c : Core, c.forest.root a p = ((c.realm? a).map Rd.layout).bind fun lay =>
      if p < lay.rttNumStart then some (lay.rttBase + 4096 * p) else none := by
    intro c
    cases realm : c.realm? a <;> simp [Core.forest, realm, Rd.layout]
  rw [eq, eq, realms]

namespace SameForest

variable (same : SameForest c c')

include same

theorem node_eq (a l p : Nat) : c'.forest.node a l p = c.forest.node a l p :=
  Forest.node_congr (forest_top_eq (same.realms a)) (forest_root_eq (same.realms a))
    (fun _ _ => rfl) (fun l p b found i => congrFun (same.read a l p b found) i) l p

theorem entry_eq (a l q : Nat) : c'.forest.entry a l q = c.forest.entry a l q :=
  Forest.entry_congr (same.node_eq a) (fun l p b found i => congrFun (same.read a l p b found) i) l q

theorem page_iff {v : View} : c'.Page a g v ↔ c.Page a g v := by
  unfold Core.Page
  simp only [Forest.Leaf.congr (same.entry_eq a) (fun _ _ => rfl)]

theorem exclusive (exclusive : c.forest.Exclusive) : c'.forest.Exclusive :=
  exclusive.mono fun t l p b found => by rwa [same.node_eq] at found

end SameForest

theorem SameForest.refl (c : Core) : SameForest c c := ⟨fun _ => rfl, fun _ _ _ _ _ => rfl⟩

theorem SameForest.trans {c'' : Core} (first : SameForest c c') (second : SameForest c' c'') : SameForest c c'' := by
  refine ⟨fun a => (second.realms a).trans (first.realms a), fun a l p b place => ?_⟩
  rw [second.read a l p b ((first.node_eq a l p).trans place), first.read a l p b place]

theorem forest_next_none {l : Nat} {e : Word} (plain : S2tte.isTable e l = false) :
    c.forest.next l e = none := by
  rw [Core.forest_next, plain]
  rfl

/-! ### One written entry -/

/-- Memory has changed by storing `v` at index `i` of table `b`, as far as the
tables that are left can tell. -/
structure Written (c c' : Core) (b i : Nat) (v : Word) : Prop where
  realms : ∀ a, (c'.realm? a).map Rd.layout = (c.realm? a).map Rd.layout
  read : ∀ a l p d, (c.forest.write b i v).node a l p = some d →
    ∀ j, c'.forest.read d j = (c.forest.write b i v).read d j

namespace Written

variable {b i l p : Nat} {v : Word} (written : Written c c' b i v)

include written

theorem node_eq (a l p : Nat) : c'.forest.node a l p = (c.forest.write b i v).node a l p :=
  Forest.node_congr (F := c.forest.write b i v) (forest_top_eq (written.realms a))
    (forest_root_eq (written.realms a)) (fun _ _ => rfl) (written.read a) l p

theorem entry_eq (a l q : Nat) : c'.forest.entry a l q = (c.forest.write b i v).entry a l q :=
  Forest.entry_congr (written.node_eq a) (written.read a) l q

theorem leaf_iff {l : Nat} {e : Word} :
    c'.forest.Leaf 3 a g l e ↔ (c.forest.write b i v).Leaf 3 a g l e :=
  Forest.Leaf.congr (written.entry_eq a) (fun _ _ => rfl)

variable (exclusive : c.forest.Exclusive) (place : c.forest.node a l p = some b) (index : i < 512)

include exclusive place

/-- Outside the written entry, pages are what they were. -/
theorem page_other {a' : Nat} {w : View} (bound : l ≤ 3)
    (outside : ¬(a' = a ∧ g / 512 ^ (3 - l) = p * 512 + i)) :
    c'.Page a' g w ↔ c.Page a' g w := by
  unfold Core.Page
  simp only [written.leaf_iff, Forest.leaf_write_other exclusive place bound outside]

section Plain

variable (plain : S2tte.isTable v l = false)

include index plain

theorem node_of_plain {a' l' p' d : Nat} (found : c'.forest.node a' l' p' = some d) :
    c.forest.node a' l' p' = some d := by
  rw [written.node_eq] at found
  exact Forest.node_of_write_plain exclusive place index
    (forest_next_none plain) found

theorem exclusive_plain : c'.forest.Exclusive :=
  exclusive.mono fun _ _ _ _ => written.node_of_plain exclusive place index plain

/-- Nothing hangs below the written entry. -/
theorem node_under {l' p' : Nat} (under : Forest.Under 512 l (p * 512 + i) l' p') :
    c'.forest.node a l' p' = none := by
  rw [written.node_eq]
  exact Forest.node_write_under exclusive place index
    (forest_next_none plain) under

theorem entry_of_plain {a' l' q : Nat} {e : Word} (stored : c'.forest.entry a' l' q = some e) :
    (a' = a ∧ l' = l ∧ q = p * 512 + i ∧ e = v) ∨ c.forest.entry a' l' q = some e := by
  rw [written.entry_eq] at stored
  exact Forest.entry_of_write_plain exclusive place index
    (forest_next_none plain) stored

/-- Below the written entry, pages have its view. -/
theorem page_same (bound : l ≤ 3) (inside : g / 512 ^ (3 - l) = p * 512 + i) :
    c'.Page a g ((S2tte.view l v).at_ (g % 512 ^ (3 - l))) :=
  ⟨l, v, written.leaf_iff.mpr (Forest.leaf_write_same exclusive place index
    (forest_next_none plain) bound inside), rfl⟩

theorem page_cases {a' : Nat} {w : View} (bound : l ≤ 3) (page : c'.Page a' g w) :
    (a' = a ∧ g / 512 ^ (3 - l) = p * 512 + i ∧ w = (S2tte.view l v).at_ (g % 512 ^ (3 - l))) ∨
      ¬(a' = a ∧ g / 512 ^ (3 - l) = p * 512 + i) ∧ c.Page a' g w := by
  by_cases inside : a' = a ∧ g / 512 ^ (3 - l) = p * 512 + i
  · obtain ⟨rfl, inside⟩ := inside
    have here := written.page_same exclusive place index plain bound inside
    exact .inl ⟨rfl, inside, page.unique here⟩
  · exact .inr ⟨inside, (written.page_other exclusive place bound inside).mp page⟩

end Plain

section Grow

variable {r : Nat} (table : S2tte.view l v = .table r)
  (fresh : ∀ a' l' p', c.forest.node a' l' p' ≠ some r)
  (flat : ∀ j < 512, S2tte.isTable (c.forest.read r j) (l + 1) = false)

include table in
omit written exclusive place in
theorem next_table : c.forest.next l v = some r := by
  obtain ⟨isTable, rfl⟩ := S2tte.isTable_of_view table
  rw [Core.forest_next, if_pos isTable]

include index table fresh flat

theorem node_of_grow {a' l' p' d : Nat} (found : c'.forest.node a' l' p' = some d) :
    c.forest.node a' l' p' = some d ∨ a' = a ∧ l' = l + 1 ∧ p' = p * 512 + i ∧ d = r := by
  rw [written.node_eq] at found
  exact Forest.node_write_grow exclusive place index (next_table table) fresh
    (fun j inside => forest_next_none (flat j inside)) found

theorem exclusive_grow : c'.forest.Exclusive :=
  (Forest.Exclusive.write_grow exclusive place index (next_table table) fresh
    (fun j inside => forest_next_none (flat j inside))).mono
      fun _ _ _ _ found => by rwa [written.node_eq] at found

/-- Below the written entry, pages have the views of the new table. -/
theorem page_grow {w : View} (bound : l + 1 ≤ 3) (inside : g / 512 ^ (3 - l) = p * 512 + i)
    (page : c'.Page a g w) :
    w = (S2tte.view (l + 1) (c.forest.read r (g / 512 ^ (3 - (l + 1)) % 512))).at_
      (g % 512 ^ (3 - (l + 1))) := by
  have leaf := Forest.leaf_write_grow exclusive place index (next_table table) fresh
    (fun j inside => forest_next_none (flat j inside)) bound inside
  exact page.unique ⟨_, _, written.leaf_iff.mpr leaf, rfl⟩

end Grow

end Written

end Islet.Rmm
