import Mathlib.Logic.Function.Basic
import Mathlib.Tactic.Common
import Mathlib.Tactic.Ring

/-! Radix trees whose tables live in addressable memory.

A forest is a family of trees over one memory. Tree `t` has its root tables at
level `top t`; the entry at index `q % n` of the level-`l` table for the
numbers `n * (q / n) .. n * (q / n) + n - 1` is the entry of the number `q`, and
it may point to the table one level down. Tables are addresses, so nothing in
the definition keeps two entries from sharing a table: that is the separate
property `Exclusive`, and the read-over-write lemmas are its consequences. -/

namespace Lib

/-- Trees named by `ι` over tables at addresses `A` with `n` entries in `E`. -/
structure Forest (n : Nat) (ι A E : Type) where
  /-- The level of the root tables. -/
  top : ι → Nat
  /-- The root table that covers the given block of `n` numbers. -/
  root : ι → Nat → Option A
  read : A → Nat → E
  /-- The table that an entry of the given level points to. -/
  next : Nat → E → Option A

namespace Forest

variable {n : Nat} {ι A E : Type} (F G : Forest n ι A E)

/-- The level-`l` table of tree `t` that covers the `p`-th block of `n` numbers. -/
def node (t : ι) : Nat → Nat → Option A
  | 0, p => if F.top t = 0 then F.root t p else none
  | l + 1, p =>
    if F.top t = l + 1 then F.root t p
    else (node t l (p / n)).bind fun a => F.next l (F.read a (p % n))

/-- The entry of the number `q` in the level-`l` tables of tree `t`. -/
def entry (t : ι) (l q : Nat) : Option E := (F.node t l (q / n)).map fun a => F.read a (q % n)

/-- The entry at which a descent for the number `g` of the bottom level `bottom` stops. -/
structure Leaf (bottom : Nat) (t : ι) (g l : Nat) (e : E) : Prop where
  level : l ≤ bottom
  stored : F.entry t l (g / n ^ (bottom - l)) = some e
  last : F.next l e = none

/-- The table at level `l'` and block `p'` hangs below the entry `q` of level `l`. -/
def Under (n l q l' p' : Nat) : Prop := l < l' ∧ p' / n ^ (l' - (l + 1)) = q

/-- No table serves two places. -/
def Exclusive : Prop :=
  ∀ ⦃t l p t' l' p' a⦄, F.node t l p = some a → F.node t' l' p' = some a →
    t = t' ∧ l = l' ∧ p = p'

variable {F G} {t t' : ι} {l l' p p' q i g bottom : Nat} {a b : A} {e e' : E}

/-! ### Levels of one tree -/

theorem node_top : F.node t (F.top t) p = F.root t p := by
  cases level : F.top t with
  | zero => simp [node, level]
  | succ l => simp [node, level]

theorem node_of_lt_top (above : l < F.top t) : F.node t l p = none := by
  induction l generalizing p with
  | zero => simp [node, show F.top t ≠ 0 by omega]
  | succ l ih => simp [node, show F.top t ≠ l + 1 by omega, ih (by omega)]

theorem top_le_of_node (found : F.node t l p = some a) : F.top t ≤ l := by
  by_contra above
  rw [node_of_lt_top (by omega)] at found
  exact nomatch found

theorem node_succ (below : F.top t ≤ l) :
    F.node t (l + 1) p = (F.entry t l p).bind (F.next l) := by
  have inner : F.top t ≠ l + 1 := by omega
  simp [node, inner, entry, Option.bind_map]

theorem entry_of_node (found : F.node t l p = some a) (index : i < n) :
    F.entry t l (p * n + i) = some (F.read a i) := by
  have block : (p * n + i) / n = p := by
    rw [Nat.mul_comm, Nat.mul_add_div (by omega), Nat.div_eq_of_lt index, Nat.add_zero]
  have offset : (p * n + i) % n = i := by
    rw [Nat.mul_comm, Nat.mul_add_mod, Nat.mod_eq_of_lt index]
  simp [entry, block, offset, found]

theorem node_of_entry (found : F.entry t l q = some e) :
    ∃ a, F.node t l (q / n) = some a ∧ F.read a (q % n) = e := by
  simpa [entry] using found

theorem node_child (found : F.node t l p = some a) (index : i < n) :
    F.node t (l + 1) (p * n + i) = F.next l (F.read a i) := by
  rw [node_succ (top_le_of_node found), entry_of_node found index, Option.bind_some]

/-- A missing table has nothing below it. -/
theorem node_below_missing (below : F.top t ≤ l) (missing : F.node t l q = none) :
    ∀ k p, p / n ^ k = q → F.node t (l + k) p = none := by
  intro k
  induction k with
  | zero =>
    intro p same
    simpa [show p = q by simpa using same] using missing
  | succ k ih =>
    intro p same
    have parent : F.node t (l + k) (p / n) = none := by
      apply ih
      rw [Nat.div_div_eq_div_mul, ← Nat.pow_succ']
      exact same
    rw [← Nat.add_assoc, node_succ (by omega)]
    simp [entry, parent]

theorem node_under_missing (below : F.top t ≤ l) (missing : F.node t (l + 1) q = none)
    (under : Under n l q l' p') : F.node t l' p' = none := by
  have found := node_below_missing (by omega) missing (l' - (l + 1)) p' under.2
  rwa [show l + 1 + (l' - (l + 1)) = l' by have := under.1; omega] at found

theorem Under.of_parent (parent : Under n l q l' (p' / n)) : Under n l q (l' + 1) p' := by
  refine ⟨by have := parent.1; omega, ?_⟩
  rw [← parent.2, Nat.div_div_eq_div_mul, ← Nat.pow_succ']
  congr 2
  have := parent.1
  omega

theorem Under.self : Under n l q (l + 1) q := ⟨by omega, by simp⟩

/-! ### Leaves -/

/-- A table on the way from the entry of `g` at level `l` down to `g`. -/
theorem under_of_lt (less : l < l') (bound : l' ≤ bottom) :
    Under n l (g / n ^ (bottom - l)) l' (g / n ^ (bottom - l') / n) := by
  refine ⟨less, ?_⟩
  rw [Nat.div_div_eq_div_mul, ← Nat.pow_succ', Nat.div_div_eq_div_mul, ← Nat.pow_add]
  congr 2
  omega

/-- One step of a descent for `g`. -/
theorem node_step (bound : l < bottom) (place : F.node t l (g / n ^ (bottom - l) / n) = some a) :
    F.node t (l + 1) (g / n ^ (bottom - (l + 1)) / n) = F.next l (F.read a (g / n ^ (bottom - l) % n)) := by
  have block : g / n ^ (bottom - (l + 1)) / n = g / n ^ (bottom - l) := by
    rw [Nat.div_div_eq_div_mul, ← Nat.pow_succ]
    congr 2
    omega
  rw [block, node_succ (top_le_of_node place), entry, place, Option.map_some, Option.bind_some]

theorem Leaf.not_deeper (leaf : F.Leaf bottom t g l e) (deeper : l < l') (bound : l' ≤ bottom) :
    F.entry t l' (g / n ^ (bottom - l')) = none := by
  obtain ⟨a, place, -⟩ := node_of_entry leaf.stored
  have missing : F.node t (l + 1) (g / n ^ (bottom - l)) = none := by
    rw [node_succ (top_le_of_node place), leaf.stored, Option.bind_some, leaf.last]
  have gone := node_under_missing (top_le_of_node place) missing (under_of_lt deeper bound)
  simp [entry, gone]

/-- There is no table below a leaf. -/
theorem Leaf.le_of_node (leaf : F.Leaf bottom t g l e) (there : F.node t l' (g / n ^ (bottom - l') / n) = some a)
    (bound : l' ≤ bottom) : l' ≤ l := by
  by_contra deeper
  have gone := leaf.not_deeper (Nat.lt_of_not_le deeper) bound
  rw [entry, there] at gone
  exact nomatch gone

/-- The entry on the way to a table points to a table. -/
theorem next_ne_none (bound : l' ≤ bottom) (above : l < l') (place : F.node t l (g / n ^ (bottom - l) / n) = some a)
    (there : F.node t l' (g / n ^ (bottom - l') / n) = some b) : F.next l (F.read a (g / n ^ (bottom - l) % n)) ≠ none := by
  intro last
  have leaf : F.Leaf bottom t g l (F.read a (g / n ^ (bottom - l) % n)) :=
    ⟨by omega, by rw [entry, place, Option.map_some], last⟩
  have := leaf.le_of_node there bound
  omega

/-- A descent stops at one entry only. -/
theorem Leaf.unique (left : F.Leaf bottom t g l e) (right : F.Leaf bottom t g l' e') :
    l = l' ∧ e = e' := by
  rcases Nat.lt_trichotomy l l' with less | rfl | less
  · have gone := left.not_deeper less right.level
    rw [right.stored] at gone
    exact nomatch gone
  · exact ⟨rfl, Option.some.inj (left.stored.symm.trans right.stored)⟩
  · have gone := right.not_deeper less left.level
    rw [left.stored] at gone
    exact nomatch gone

/-- A descent from an existing table stops somewhere, if bottom entries point nowhere. -/
theorem exists_leaf_of_node (flat : ∀ e, F.next bottom e = none) (bound : l ≤ bottom)
    (found : F.node t l (g / n ^ (bottom - l) / n) = some a) :
    ∃ l' e, l ≤ l' ∧ F.Leaf bottom t g l' e := by
  obtain ⟨k, rest⟩ : ∃ k, bottom - l = k := ⟨_, rfl⟩
  induction k generalizing l a with
  | zero =>
    have whole : l = bottom := by omega
    subst whole
    have stored : F.entry t l (g / n ^ (l - l)) = some (F.read a (g / n ^ (l - l) % n)) := by
      simp only [entry, found, Option.map_some]
    exact ⟨l, _, Nat.le_refl l, Nat.le_refl l, stored, flat _⟩
  | succ k ih =>
    have stored : F.entry t l (g / n ^ (bottom - l)) =
        some (F.read a (g / n ^ (bottom - l) % n)) := by
      simp only [entry, found, Option.map_some]
    cases target : F.next l (F.read a (g / n ^ (bottom - l) % n)) with
    | none => exact ⟨l, _, Nat.le_refl l, bound, stored, target⟩
    | some b =>
      have child : F.node t (l + 1) (g / n ^ (bottom - (l + 1)) / n) = some b :=
        (node_step (by omega) found).trans target
      obtain ⟨l', e, less, leaf⟩ := ih (by omega) child (by omega)
      exact ⟨l', e, by omega, leaf⟩

/-! ### Two memories -/

/-- A tree depends only on its roots and on the entries of its own tables. -/
theorem node_congr {κ : Type} {G : Forest n κ A E} {u : κ} (top : G.top u = F.top t) (root : ∀ p, G.root u p = F.root t p)
    (next : ∀ l e, G.next l e = F.next l e)
    (read : ∀ l p a, F.node t l p = some a → ∀ i, G.read a i = F.read a i) :
    ∀ l p, G.node u l p = F.node t l p := by
  intro l
  induction l with
  | zero => intro p; simp [node, top, root]
  | succ l ih =>
    intro p
    simp only [node, top, root, ih]
    split
    · rfl
    · cases found : F.node t l (p / n) with
      | none => rfl
      | some a => simp [next, read l _ a found]

theorem entry_congr (nodes : ∀ l p, G.node t l p = F.node t l p)
    (read : ∀ l p a, F.node t l p = some a → ∀ i, G.read a i = F.read a i) (l q : Nat) :
    G.entry t l q = F.entry t l q := by
  unfold entry
  rw [nodes]
  cases found : F.node t l (q / n) with
  | none => rfl
  | some a => simp [read l _ a found]

theorem Leaf.congr (entries : ∀ l q, G.entry t l q = F.entry t l q)
    (next : ∀ l e, G.next l e = F.next l e) :
    G.Leaf bottom t g l e ↔ F.Leaf bottom t g l e := by
  constructor
  · intro leaf
    exact ⟨leaf.level, entries l _ ▸ leaf.stored, next l e ▸ leaf.last⟩
  · intro leaf
    exact ⟨leaf.level, (entries l _).symm ▸ leaf.stored, (next l e).symm ▸ leaf.last⟩

/-- Fewer tables in the same places are still exclusive. -/
theorem Exclusive.mono (exclusive : F.Exclusive)
    (fewer : ∀ t l p a, G.node t l p = some a → F.node t l p = some a) : G.Exclusive :=
  fun _ _ _ _ _ _ _ left right => exclusive (fewer _ _ _ _ left) (fewer _ _ _ _ right)

/-- A tree whose root tables point nowhere consists of them. -/
theorem node_of_flat (positive : 0 < n)
    (flat : ∀ p a, F.root t p = some a → ∀ j < n, F.next (F.top t) (F.read a j) = none)
    (found : F.node t l p = some a) : l = F.top t ∧ F.root t p = some a := by
  rcases Nat.eq_or_lt_of_le (top_le_of_node found) with same | deeper
  · subst same
    rw [node_top] at found
    exact ⟨rfl, found⟩
  · have missing : F.node t (F.top t + 1) (p / n ^ (l - (F.top t + 1))) = none := by
      rw [node_succ (Nat.le_refl _)]
      unfold entry
      rw [node_top]
      cases base : F.root t (p / n ^ (l - (F.top t + 1)) / n) with
      | none => rfl
      | some b => simp [flat _ b base _ (Nat.mod_lt _ positive)]
    rw [node_under_missing (Nat.le_refl _) missing ⟨deeper, rfl⟩] at found
    exact nomatch found

/-- Adding a flat tree of fresh tables keeps a forest exclusive. -/
theorem Exclusive.plant (exclusive : F.Exclusive) (positive : 0 < n)
    (others : ∀ t', t' ≠ t → ∀ l p, G.node t' l p = F.node t' l p)
    (flat : ∀ p a, G.root t p = some a → ∀ j < n, G.next (G.top t) (G.read a j) = none)
    (distinct : ∀ p p' a, G.root t p = some a → G.root t p' = some a → p = p')
    (fresh : ∀ p a, G.root t p = some a → ∀ t' l' p', F.node t' l' p' ≠ some a) :
    G.Exclusive := by
  intro t₁ l₁ p₁ t₂ l₂ p₂ a left right
  by_cases first : t₁ = t
  · subst first
    obtain ⟨level₁, root₁⟩ := node_of_flat positive flat left
    by_cases second : t₂ = t₁
    · subst second
      obtain ⟨level₂, root₂⟩ := node_of_flat positive flat right
      exact ⟨rfl, level₁.trans level₂.symm, distinct _ _ _ root₁ root₂⟩
    · rw [others t₂ second] at right
      exact absurd right (fresh _ _ root₁ _ _ _)
  · by_cases second : t₂ = t
    · subst second
      obtain ⟨level₂, root₂⟩ := node_of_flat positive flat right
      rw [others t₁ first] at left
      exact absurd left (fresh _ _ root₂ _ _ _)
    · rw [others t₁ first] at left
      rw [others t₂ second] at right
      exact exclusive left right

/-! ### Writing one entry -/

section Write

variable [DecidableEq A]

/-- The forest after storing `e` at index `i` of table `a`. -/
def write (F : Forest n ι A E) (a : A) (i : Nat) (e : E) : Forest n ι A E :=
  { F with read := fun b j => if b = a ∧ j = i then e else F.read b j }

@[simp] theorem write_top : (F.write a i e).top = F.top := rfl

@[simp] theorem write_root : (F.write a i e).root = F.root := rfl

@[simp] theorem write_next : (F.write a i e).next = F.next := rfl

@[simp] theorem write_read_same : (F.write a i e).read a i = e := by simp [write]

theorem write_read_other (other : ¬(b = a ∧ g = i)) :
    (F.write a i e).read b g = F.read b g := by
  simp [write, other]

/-- Tables that do not hang below the written entry stay where they are. -/
theorem node_write_of_not_under (exclusive : F.Exclusive) (found : F.node t l p = some a)
    (apart : ¬(t' = t ∧ Under n l (p * n + i) l' p')) :
    (F.write a i e).node t' l' p' = F.node t' l' p' := by
  induction l' generalizing p' with
  | zero => rfl
  | succ l' ih =>
    have parentApart : ¬(t' = t ∧ Under n l (p * n + i) l' (p' / n)) :=
      fun parent => apart ⟨parent.1, parent.2.of_parent⟩
    simp only [node, write_top, write_root, write_next, ih parentApart]
    split
    · rfl
    · cases parent : F.node t' l' (p' / n) with
      | none => rfl
      | some b =>
        have other : ¬(b = a ∧ p' % n = i) := by
          rintro ⟨rfl, offset⟩
          obtain ⟨rfl, rfl, block⟩ := exclusive parent found
          apply apart
          have whole : p' = p * n + i := by
            rw [← block, ← offset, Nat.mul_comm]; exact (Nat.div_add_mod p' n).symm
          rw [whole]
          exact ⟨rfl, .self⟩
        simp [write_read_other other]

/-- The written entry decides which table hangs below it. -/
theorem node_write_child (exclusive : F.Exclusive) (found : F.node t l p = some a)
    (index : i < n) : (F.write a i e).node t (l + 1) (p * n + i) = F.next l e := by
  have kept : (F.write a i e).node t l p = some a := by
    rw [node_write_of_not_under exclusive found (by rintro ⟨-, less, -⟩; omega), found]
  rw [node_child kept index, write_read_same, write_next]

/-- An entry written without a table leaves nothing below it. -/
theorem node_write_under (exclusive : F.Exclusive) (found : F.node t l p = some a)
    (index : i < n) (plain : F.next l e = none) (under : Under n l (p * n + i) l' p') :
    (F.write a i e).node t l' p' = none := by
  have below : (F.write a i e).top t ≤ l := by
    rw [write_top]
    exact top_le_of_node found
  have missing : (F.write a i e).node t (l + 1) (p * n + i) = none := by
    rw [node_write_child exclusive found index, plain]
  exact node_under_missing below missing under

/-- Entries of other numbers, where their table stays in place, read as before. -/
theorem entry_write_of_ne (exclusive : F.Exclusive) (found : F.node t l p = some a)
    (apart : ¬(t' = t ∧ Under n l (p * n + i) l' (q / n)))
    (other : ¬(t' = t ∧ l' = l ∧ q = p * n + i)) :
    (F.write a i e).entry t' l' q = F.entry t' l' q := by
  unfold entry
  rw [node_write_of_not_under exclusive found apart]
  cases place : F.node t' l' (q / n) with
  | none => rfl
  | some b =>
    have away : ¬(b = a ∧ q % n = i) := by
      rintro ⟨rfl, offset⟩
      obtain ⟨rfl, rfl, block⟩ := exclusive place found
      apply other
      refine ⟨rfl, rfl, ?_⟩
      rw [← block, ← offset, Nat.mul_comm]
      exact (Nat.div_add_mod q n).symm
    simp [write_read_other away]

theorem entry_write_same (exclusive : F.Exclusive) (found : F.node t l p = some a)
    (index : i < n) : (F.write a i e).entry t l (p * n + i) = some e := by
  have kept : (F.write a i e).node t l p = some a := by
    rw [node_write_of_not_under exclusive found (by rintro ⟨-, less, -⟩; omega), found]
  rw [entry_of_node kept index, write_read_same]

/-- Below the written entry, a descent now stops there. -/
theorem leaf_write_same (exclusive : F.Exclusive) (found : F.node t l p = some a)
    (index : i < n) (plain : F.next l e = none) (bound : l ≤ bottom)
    (inside : g / n ^ (bottom - l) = p * n + i) : (F.write a i e).Leaf bottom t g l e :=
  ⟨bound, by rw [inside]; exact entry_write_same exclusive found index, plain⟩

/-- Elsewhere, a descent stops where it stopped before. -/
theorem leaf_write_other (exclusive : F.Exclusive) (found : F.node t l p = some a)
    (bound : l ≤ bottom) (outside : ¬(t' = t ∧ g / n ^ (bottom - l) = p * n + i)) :
    (F.write a i e).Leaf bottom t' g l' e' ↔ F.Leaf bottom t' g l' e' := by
  have same : l' ≤ bottom → (F.write a i e).entry t' l' (g / n ^ (bottom - l')) =
      F.entry t' l' (g / n ^ (bottom - l')) := by
    intro level
    apply entry_write_of_ne exclusive found
    · rintro ⟨rfl, less, block⟩
      exact outside ⟨rfl, (under_of_lt less level).2.symm.trans block⟩
    · rintro ⟨rfl, rfl, block⟩
      exact outside ⟨rfl, block⟩
  constructor
  · intro leaf
    exact ⟨leaf.level, same leaf.level ▸ leaf.stored, leaf.last⟩
  · intro leaf
    exact ⟨leaf.level, (same leaf.level).symm ▸ leaf.stored, leaf.last⟩

/-- Tables after a write were there before or hang below the written entry. -/
theorem node_write_cases (exclusive : F.Exclusive) (found : F.node t l p = some a)
    (there : (F.write a i e).node t' l' p' = some b) :
    F.node t' l' p' = some b ∨ t' = t ∧ Under n l (p * n + i) l' p' := by
  by_cases under : t' = t ∧ Under n l (p * n + i) l' p'
  · exact .inr under
  · rw [node_write_of_not_under exclusive found under] at there
    exact .inl there

theorem node_of_write_plain (exclusive : F.Exclusive) (found : F.node t l p = some a)
    (index : i < n) (plain : F.next l e = none)
    (there : (F.write a i e).node t' l' p' = some b) : F.node t' l' p' = some b := by
  rcases node_write_cases exclusive found there with old | ⟨rfl, under⟩
  · exact old
  · rw [node_write_under exclusive found index plain under] at there
    exact nomatch there

theorem Exclusive.write_plain (exclusive : F.Exclusive) (found : F.node t l p = some a)
    (index : i < n) (plain : F.next l e = none) : (F.write a i e).Exclusive :=
  exclusive.mono fun _ _ _ _ => node_of_write_plain exclusive found index plain

/-- Entries after a plain write are the written one or were there before. -/
theorem entry_of_write_plain (exclusive : F.Exclusive) (found : F.node t l p = some a)
    (index : i < n) (plain : F.next l e = none)
    (there : (F.write a i e).entry t' l' q = some e') :
    (t' = t ∧ l' = l ∧ q = p * n + i ∧ e' = e) ∨ F.entry t' l' q = some e' := by
  by_cases same : t' = t ∧ l' = l ∧ q = p * n + i
  · obtain ⟨rfl, rfl, rfl⟩ := same
    rw [entry_write_same exclusive found index] at there
    exact .inl ⟨rfl, rfl, rfl, (Option.some.inj there).symm⟩
  · obtain ⟨b, place, _⟩ := node_of_entry there
    have apart : ¬(t' = t ∧ Under n l (p * n + i) l' (q / n)) := by
      rintro ⟨rfl, under⟩
      rw [node_write_under exclusive found index plain under] at place
      exact nomatch place
    rw [entry_write_of_ne exclusive found apart same] at there
    exact .inr there

section Grow

variable {r : A} (exclusive : F.Exclusive) (found : F.node t l p = some a) (index : i < n)
  (target : F.next l e = some r) (fresh : ∀ t' l' p', F.node t' l' p' ≠ some r)
  (flat : ∀ j < n, F.next (l + 1) (F.read r j) = none)

include exclusive found index target fresh flat

omit flat in
/-- The table that a written entry points to is the one it names. -/
theorem entry_write_grow {j : Nat} (inside : j < n) :
    (F.write a i e).entry t (l + 1) ((p * n + i) * n + j) = some (F.read r j) := by
  have child : (F.write a i e).node t (l + 1) (p * n + i) = some r := by
    rw [node_write_child exclusive found index, target]
  rw [entry_of_node child inside, write_read_other]
  rintro ⟨rfl, _⟩
  exact fresh _ _ _ found

theorem node_write_grow (there : (F.write a i e).node t' l' p' = some b) :
    F.node t' l' p' = some b ∨ t' = t ∧ l' = l + 1 ∧ p' = p * n + i ∧ b = r := by
  rcases node_write_cases exclusive found there with old | ⟨rfl, less, block⟩
  · exact .inl old
  · rcases Nat.eq_or_lt_of_le (show l + 1 ≤ l' from less) with rfl | deeper
    · have same : p' = p * n + i := by simpa using block
      subst same
      rw [node_write_child exclusive found index, target] at there
      exact .inr ⟨rfl, rfl, rfl, (Option.some.inj there).symm⟩
    · have top : (F.write a i e).top t' ≤ l + 1 := by
        rw [write_top]
        have := top_le_of_node found
        omega
      have positive : 0 < n := by omega
      have missing : (F.write a i e).node t' (l + 2) (p' / n ^ (l' - (l + 2))) = none := by
        rw [node_succ top]
        have whole : p' / n ^ (l' - (l + 2)) =
            (p * n + i) * n + p' / n ^ (l' - (l + 2)) % n := by
          rw [← block, show l' - (l + 1) = (l' - (l + 2)) + 1 by omega, Nat.pow_succ,
            ← Nat.div_div_eq_div_mul, Nat.mul_comm]
          exact (Nat.div_add_mod _ n).symm
        rw [whole, entry_write_grow exclusive found index target fresh (Nat.mod_lt _ positive),
          Option.bind_some, write_next, flat _ (Nat.mod_lt _ positive)]
      rw [node_under_missing top missing ⟨deeper, rfl⟩] at there
      exact nomatch there

theorem Exclusive.write_grow : (F.write a i e).Exclusive := by
  intro t₁ l₁ p₁ t₂ l₂ p₂ b left right
  rcases node_write_grow exclusive found index target fresh flat left with
    old₁ | ⟨rfl, rfl, rfl, rfl⟩
  · rcases node_write_grow exclusive found index target fresh flat right with
      old₂ | ⟨rfl, rfl, rfl, rfl⟩
    · exact exclusive old₁ old₂
    · exact absurd old₁ (fresh _ _ _)
  · rcases node_write_grow exclusive found index target fresh flat right with
      old₂ | ⟨rfl, rfl, rfl, _⟩
    · exact absurd old₂ (fresh _ _ _)
    · exact ⟨rfl, rfl, rfl⟩

/-- Below the written entry, a descent now stops in the new table. -/
theorem leaf_write_grow (bound : l + 1 ≤ bottom)
    (inside : g / n ^ (bottom - l) = p * n + i) :
    (F.write a i e).Leaf bottom t g (l + 1) (F.read r (g / n ^ (bottom - (l + 1)) % n)) := by
  have positive : 0 < n := by omega
  have whole : g / n ^ (bottom - (l + 1)) =
      (p * n + i) * n + g / n ^ (bottom - (l + 1)) % n := by
    rw [← inside, show bottom - l = (bottom - (l + 1)) + 1 by omega, Nat.pow_succ,
      ← Nat.div_div_eq_div_mul, Nat.mul_comm]
    exact (Nat.div_add_mod _ n).symm
  refine ⟨bound, ?_, flat _ (Nat.mod_lt _ positive)⟩
  nth_rewrite 1 [whole]
  exact entry_write_grow exclusive found index target fresh (Nat.mod_lt _ positive)

end Grow

end Write

end Forest

end Lib
