import Islet.Rmm.Runs
import Islet.Rmm.Tables

/-! The kinds of descriptors. As long as no block of a gigabyte is mapped, neither by
the host nor by folding, the predicates of the code tell every entry of a live table
apart: RTT_CREATE then knows how to split it and RTT_READ_ENTRY what to report. -/

namespace Islet.Rmm

open Lib Prog Bits Rmi Stage2Translation

variable [Platform] {c₀ c c' : Core} {s t : Machine} {cmd : Command} {a l q : Nat} {rd : Rd} {e : Word}

/-- The predicates by which the code tells the entries of a table of level `l` apart. -/
def S2tte.classes (e : Word) (l : Nat) : List Bool :=
  [isUnassigned e, isAssigned e, isTable e l, isAssignedRam e l, isUnassignedNs e, isAssignedNs e l]

/-- No entry above level 2 gives its pages an address. -/
def Core.NoHugePages (c : Core) : Prop :=
  ∀ {a l q e}, c.forest.entry a l q = some e → l ≤ 1 → S2tte.isTable e l = true ∨ (S2tte.view l e).Vacant

/-! ### Entries -/

theorem Core.NoHugePages.leaf {p b i : Nat} (none : c.NoHugePages) (here : LeafAt c a l p b i) (low : l ≤ 1) :
    (S2tte.view l (c.forest.read b i)).Vacant := by
  have entry := Forest.entry_of_node here.place here.index
  exact (none entry low).resolve_left (by rw [here.leaf]; exact nofun)

theorem TableMove.noHugePages (move : TableMove c₀ cmd c c') (inv : c.Inv) (maps : ¬MapsBlock cmd)
    (folds : ¬FoldsBlocks c₀ cmd) (none : c.NoHugePages) : c'.NoHugePages := by
  intro a' l' q' e stored low
  cases move with
  | same same =>
    rw [same.entry_eq] at stored
    exact none stored low
  | @rewrite c₁ a l p b i v same written rewrites =>
    have place : c₁.forest.node a l p = some b := (same.node_eq a l p).trans rewrites.here.place
    rcases written.entry_of_plain (same.exclusive inv.tables.exclusive) place rewrites.here.index rewrites.plain stored with
      ⟨rfl, rfl, rfl, rfl⟩ | old
    · exact .inr ((rewrites.blocks low (none.leaf rewrites.here low)).resolve_right maps)
    · rw [same.entry_eq] at old
      exact none old low
  | collapse written collapses =>
    rcases written.entry_of_plain inv.tables.exclusive collapses.place collapses.index collapses.plain stored with
      ⟨rfl, rfl, rfl, rfl⟩ | old
    · exact .inr ((collapses.blocks low).resolve_right folds)
    · exact none old low
  | split split eq =>
    subst eq
    rcases split.entry_cases inv stored with old | ⟨rfl, rfl⟩ | ⟨rfl, j, index, rfl⟩
    · exact none old low
    · exact .inl (S2tte.isTable_of_view split.names).1
    · rw [split.entries j index, View.vacant_at]
      exact .inr (none.leaf split.here (by omega))
  | @newRealm a rd _ new =>
    by_cases same : a' = a
    · subst same
      rw [new.entry_same stored]
      exact .inr trivial
    · rw [new.entry_other inv.tables same] at stored
      exact none stored low
  | @endRealm a rd ended =>
    by_cases same : a' = a
    · subst same
      obtain ⟨d, place, _⟩ := Forest.node_of_entry stored
      exact nomatch (ended.node_same _ _).symm.trans place
    · rw [ended.entry_other inv same] at stored
      exact none stored low

/-- In every run without such blocks, no entry above level 2 gives its pages an address. -/
theorem Machine.ReachableVia.noHugePages
    (reached : s.ReachableVia fun s cmd => ¬MapsBlock cmd ∧ ¬FoldsBlocks s.core cmd) : s.core.NoHugePages := by
  refine @Machine.ReachableVia.invariant _ s (fun c cmd => ¬MapsBlock cmd ∧ ¬FoldsBlocks c cmd) Core.NoHugePages reached
    (fun _ => ⟨id, id⟩) ?_ ?_
  · intro s start a l q e stored
    obtain ⟨d, place, _⟩ := Forest.node_of_entry stored
    obtain ⟨rd, realm, _⟩ := Core.realm_of_node place
    exact nomatch (start.realm? a).symm.trans realm
  · rintro c₀ c c' cmd ⟨maps, folds⟩ _ _ inv none move
    exact (move.tables inv).noHugePages inv maps folds none

/-! ### Classes -/

section Classes

omit [Platform]

open S2tte

theorem S2tte.classes_eq (e : Word) (l : Nat) : S2tte.classes e l =
    [decide (descNum e = 0 ∧ hipasNum e = 0 ∧ nsNum e = 0), decide (descNum e = 0 ∧ hipasNum e = 1 ∧ nsNum e = 0),
      decide (l < 3 ∧ descNum e = 3), decide (nsNum e = 0 ∧ (l = 3 ∧ descNum e = 3 ∨ l = 2 ∧ descNum e = 1)),
      decide (descNum e = 0 ∧ hipasNum e = 0 ∧ nsNum e ≠ 0),
      decide (nsNum e ≠ 0 ∧ (l = 3 ∧ descNum e = 3 ∨ l = 2 ∧ descNum e = 1))] := by
  simp only [classes, ← isUnassigned_iff, ← isAssigned_iff, ← isTable_iff, ← isAssignedRam_iff, ← isUnassignedNs_iff,
    ← isAssignedNs_iff, Bool.decide_eq_true]

/-- The views of an entry that the code can classify. -/
def View.Classified (l : Nat) : View → Prop
  | .malformed => False
  | .ram _ => 2 ≤ l
  | .ns _ => 2 ≤ l
  | _ => True

theorem View.Classified.count (known : (view l e).Classified l) : (classes e l).count true = 1 := by
  rw [classes_eq]
  cases meaning : view l e with
  | table addr =>
    obtain ⟨low, desc⟩ := (isTable_iff _ _).mp (isTable_of_view meaning).1
    have inner : l ≠ 3 := by omega
    simp [low, desc, inner]
  | unassigned ripas =>
    obtain ⟨desc, hipas, ns⟩ := (isUnassigned_iff _).mp (isUnassigned_of_view meaning).1
    simp [desc, hipas, ns]
  | assigned pa ripas =>
    obtain ⟨desc, hipas, ns⟩ := (isAssigned_iff _).mp (isAssigned_of_view meaning).1
    simp [desc, hipas, ns]
  | ram pa =>
    obtain ⟨ns, _, _, _, desc⟩ := mapped_of_view meaning
    rw [meaning] at known
    have low : 2 ≤ l := known
    obtain ⟨rfl, leaf⟩ | ⟨rfl, leaf⟩ : l = 3 ∧ descNum e = 3 ∨ l = 2 ∧ descNum e = 1 := by omega
    all_goals simp [leaf, ns]
  | unassignedNs =>
    obtain ⟨desc, hipas, ns⟩ := (isUnassignedNs_iff _).mp (isUnassignedNs_of_view meaning)
    simp [desc, hipas, ns]
  | ns pa =>
    obtain ⟨ns, _, _, _, desc⟩ := ns_of_view meaning
    rw [meaning] at known
    have low : 2 ≤ l := known
    obtain ⟨rfl, leaf⟩ | ⟨rfl, leaf⟩ : l = 3 ∧ descNum e = 3 ∨ l = 2 ∧ descNum e = 1 := by omega
    all_goals simp [leaf, ns]
  | malformed =>
    rw [meaning] at known
    exact known.elim

/-- RTT_CREATE can split every such leaf, unless it is assigned and said to be RAM. -/
theorem View.Classified.splitOf {mapSize : Nat} (known : (view l e).Classified l) (leaf : S2tte.isTable e l = false)
    (sound : ∀ pa, view l e ≠ .assigned pa 1) : Rtt.splitOf e (l + 1) mapSize ≠ none := by
  cases meaning : view l e with
  | table addr => exact nomatch leaf.symm.trans (isTable_of_view meaning).1
  | unassigned ripas => exact splitOf_unassigned (isUnassigned_of_view meaning).1
  | assigned pa ripas =>
    obtain ⟨holds, low, high, _, rfl⟩ := isAssigned_of_view meaning
    obtain ⟨desc, hipas, ns⟩ := (isAssigned_iff _).mp holds
    have notRam : ¬getMaskedValue e invalidRipas = ripasRam := by
      rw [ripas_eq]
      intro ram
      exact sound pa (by rw [meaning, ram]; rfl)
    have other : isUnassigned e = false := by
      rw [← Bool.not_eq_true, isUnassigned_iff]
      omega
    simp [Rtt.splitOf, other, holds, notRam, addrAsBlock?, low, high]
  | ram pa =>
    obtain ⟨ns, _, low, high, desc⟩ := mapped_of_view meaning
    rw [meaning] at known
    have inner : 2 ≤ l := known
    have invalid : descNum e ≠ 0 := by omega
    have mapped : isAssignedRam e l = true := (isAssignedRam_iff _ _).mpr ⟨ns, by omega⟩
    have others : isUnassigned e = false ∧ isAssigned e = false := by
      simp only [← Bool.not_eq_true, isUnassigned_iff, isAssigned_iff]
      omega
    simp [Rtt.splitOf, others.1, others.2, mapped, addrAsBlock?, low, high]
  | unassignedNs =>
    have holds := isUnassignedNs_of_view meaning
    obtain ⟨desc, hipas, ns⟩ := (isUnassignedNs_iff _).mp holds
    have others : isUnassigned e = false ∧ isAssigned e = false ∧ isAssignedRam e l = false := by
      simp only [← Bool.not_eq_true, isUnassigned_iff, isAssigned_iff, isAssignedRam_iff]
      omega
    simp [Rtt.splitOf, others.1, others.2.1, others.2.2, holds]
  | ns pa =>
    obtain ⟨ns, _, low, high, desc⟩ := ns_of_view meaning
    rw [meaning] at known
    have inner : 2 ≤ l := known
    have mapped : isAssignedNs e l = true := (isAssignedNs_iff _ _).mpr ⟨by omega, by omega⟩
    have others : isUnassigned e = false ∧ isAssigned e = false ∧ isAssignedRam e l = false ∧ isUnassignedNs e = false := by
      simp only [← Bool.not_eq_true, isUnassigned_iff, isAssigned_iff, isAssignedRam_iff, isUnassignedNs_iff]
      omega
    simp [Rtt.splitOf, others.1, others.2.1, others.2.2.1, others.2.2.2, mapped, addrAsBlock?, low, high]
  | malformed =>
    rw [meaning] at known
    exact known.elim

/-- The views that the two halves of a realm admit can be classified, those of level 2 and below anyway. -/
theorem View.classified_of_fits {v : View} (fits : v.Protected ∨ v.Unprotected) (vacant : l ≤ 1 → v.Vacant) :
    v.Classified l ∧ ∀ pa, v ≠ .assigned pa 1 := by
  have inner : ¬v.Vacant → 2 ≤ l := fun used => Nat.lt_of_not_le fun low => used (vacant low)
  cases v with
  | table addr => exact (fits.elim id id).elim
  | unassigned ripas => exact ⟨trivial, fun _ => nofun⟩
  | assigned pa ripas =>
    refine ⟨trivial, ?_⟩
    rintro _ ⟨⟩
    rcases fits with zero | fits
    · have zero : (1 : Nat) = 0 ∨ 1 = 2 := zero
      omega
    · exact fits
  | ram pa => exact ⟨inner id, fun _ => nofun⟩
  | unassignedNs => exact ⟨trivial, fun _ => nofun⟩
  | ns pa => exact ⟨inner id, fun _ => nofun⟩
  | malformed => exact (fits.elim id id).elim

end Classes

theorem Core.NoHugePages.classified (none : c.NoHugePages) (inv : c.Inv) (stored : c.forest.entry a l q = some e) :
    (S2tte.view l e).Classified l ∧ ∀ pa, S2tte.view l e ≠ .assigned pa 1 := by
  obtain ⟨_, place, _⟩ := Forest.node_of_entry stored
  obtain ⟨rd, realm, _, high⟩ := inv.realms.realm_of_node place
  cases table : S2tte.isTable e l with
  | true =>
    rw [S2tte.view_of_isTable table]
    exact ⟨trivial, fun _ => nofun⟩
  | false =>
    have fits := inv.tables.pages realm (first_page stored table high)
    have vacant : l ≤ 1 → (S2tte.view l e).Vacant := by
      intro low
      exact (none stored low).resolve_left (by rw [table]; exact nofun)
    refine View.classified_of_fits ?_ vacant
    rw [Rd.Fits] at fits
    split at fits
    · exact .inl fits
    · exact .inr fits

/-- At level 2 the same block is of one class. -/
example : (S2tte.classes (Rtt.unprotectedDesc 0 2) 2).count true = 1 := by decide +kernel

end Islet.Rmm
