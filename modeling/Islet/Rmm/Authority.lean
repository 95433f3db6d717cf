import Islet.Rmm.Progress
import Islet.Rmm.Realms
import Islet.Rmm.Tables

/-! Who decides about the RIPAS of a page. Once a realm is active, the host changes it
only by destroying the page or as the realm itself has asked, unless it folds a table
whose entries are all tables: RTT_FOLD then forgets everything below it. -/

namespace Islet.Rmm

open Lib Prog Bits Rmi Stage2Translation

variable [Platform] {c₀ c : Core} {s t : Machine} {cmd : Command} {a g : Nat} {rd : Rd} {v w : View}

/-- What may happen to a page of an active realm: its RIPAS changes with authority only, and RAM that is
assigned before and after keeps its address. -/
structure KeepsPage (c₀ : Core) (cmd : Command) (a g : Nat) (v w : View) : Prop where
  ripas : w.ripas? = v.ripas? ∨ Authorized c₀ cmd a g w.ripas?
  address : ∀ {x y}, v = .ram x → w = .ram y → y = x

/-- RTT_FOLD of a protected table of tables below which some page is not empty. -/
def FoldsRipas (c : Core) (cmd : Command) (a : Nat) (rd : Rd) : Prop :=
  match cmd with
  | .rttFold _ ipa level => isValidTableCmd rd ipa.toNat level.toNat = true ∧
    ∃ g v, rd.inPar g ∧ FoldsTables c cmd a g ∧ c.Page a g v ∧ v.ripas? ≠ some 0
  | _ => False

/-- What the moves of one command make of a page. -/
theorem Moves.page (moves : Moves c₀ cmd c₀ c) (inv : c₀.Inv) (realm : c₀.realm? a = some rd) (before : c₀.Page a g v)
    (inside : rd.inPar g) (after : c.Page a g w) :
    (w.ripas? = v.ripas? ∨ MayRetype c₀ cmd a g w.ripas?) ∧
      ∀ {x}, v.backing? = some x → w.backing? = none ∨ w.backing? = some x := by
  suffices Moves c₀ cmd c₀ c ∧ ∀ {w}, c.Page a g w → (w.ripas? = v.ripas? ∨ MayRetype c₀ cmd a g w.ripas?) ∧
      ∀ {x}, v.backing? = some x → w.backing? = none ∨ w.backing? = some x from this.2 after
  refine moves.invariant (P := fun c => Moves c₀ cmd c₀ c ∧ ∀ {w}, c.Page a g w →
    (w.ripas? = v.ripas? ∨ MayRetype c₀ cmd a g w.ripas?) ∧
      ∀ {x}, v.backing? = some x → w.backing? = none ∨ w.backing? = some x) inv ⟨.refl, fun {w} page => ?_⟩ ?_
  · cases before.unique page
    exact ⟨.inl rfl, fun names => .inr names⟩
  · rintro c c' inv' ⟨moves, known⟩ move
    refine ⟨moves.tail move, fun {w'} page => ?_⟩
    cases (move.tables inv').page inv' page with
    | created start none =>
      rw [start] at none
      cases none.symm.trans realm
    | @old w page retypes backing =>
      obtain ⟨ripas, address⟩ := known page
      obtain ⟨rd', realm'⟩ := page.realm
      have layout : rd'.layout = rd.layout := by
        rcases moves.later inv realm with gone | ⟨_, found, later⟩
        · cases gone.symm.trans realm'
        · cases found.symm.trans realm'
          exact later.layout
      have inside' : rd'.inPar g := by
        rw [Rd.inPar, Rd.parSize_of_layout layout]
        exact inside
      refine ⟨?_, fun {x} names => ?_⟩
      · rcases retypes realm' inside' with same | may
        · rw [same]
          exact ripas
        · exact .inr may
      · rcases backing with none | same | ⟨rfl, none⟩
        · exact .inl none
        · rw [same]
          exact address names
        · cases before.unique page
          cases names.symm.trans none

/-- A command that changes the RIPAS of a page of an active realm without authority has folded it away. -/
theorem foldsRipas_of_change (inv : s.core.Inv) (realm : s.core.realm? a = some rd) (inside : rd.inPar g)
    (returned : s.exec cmd = some t) (before : s.core.Page a g v) (after : t.core.Page a g w)
    (folds : FoldsTables s.core cmd a g) (empty : w.ripas? = some 0) (changed : w.ripas? ≠ v.ripas?) :
    FoldsRipas s.core cmd a rd := by
  cases cmd with
  | rttFold rdW ipa level =>
    have isRealm : rdW.toNat = a := folds.1
    subst isRealm
    rcases Machine.exec_eq_some.mp returned with done | ⟨e, u, failed, rfl⟩
    · obtain ⟨_, rd', _, _, folded, _⟩ := done.post
        (rttFold_spec (s := s.start) rdW ipa level inv rfl rfl rfl rfl rfl)
      cases realm.symm.trans folded.realm
      exact ⟨folded.accepted, g, v, inside, folds, before, fun zero => changed (empty.trans zero.symm)⟩
    · have same : u.core = s.core :=
        (wp_error (rttFold_spec (s := s.start) rdW ipa level inv rfl rfl rfl rfl rfl)
          failed).2 e rfl
      have after : u.core.Page rdW.toNat g w := after
      rw [same] at after
      cases before.unique after
      exact absurd rfl changed
  | _ => exact folds.elim

/-- RTT_FOLD of a table of tables succeeds and makes the pages below it empty. -/
theorem Machine.foldsTables {rdW ipa level : Word} (inv : s.core.Inv) (realm : s.core.realm? a = some rd)
    (accepted : isValidTableCmd rd ipa.toNat level.toNat = true) (inside : rd.inPar g)
    (tables : FoldsTables s.core (.rttFold rdW ipa level) a g) :
    ∃ t, s.Succeeds (.rttFold rdW ipa level) t ∧ t.core.Page a g (.unassigned 0) := by
  have isRealm : rdW.toNat = a := tables.1
  subst isRealm
  have shape := inv.realms.shape realm
  obtain ⟨low, high, _, aligned⟩ := isValidTableCmd_spec shape accepted
  have inPar : rd.addrInPar ipa.toNat = true :=
    (half_of_below shape (by omega) (by omega) (page_aligned (by omega) aligned) tables.2.1).mp inside
  have ready : ReadyToFold s.core rdW.toNat ipa.toNat level.toNat := ⟨rd, realm, accepted, inPar, tables.2.2⟩
  obtain ⟨t, done, _, rd', _, _, folded, empty⟩ := Machine.succeeds_of_wp s (.rttFold rdW ipa level)
    (rttFold_spec (s := s.start) rdW ipa level inv rfl rfl rfl rfl rfl)
    fun _ _ stops => stops.1.1 ready.foldable
  cases realm.symm.trans folded.realm
  exact ⟨t, done, empty inside tables⟩

theorem FoldsRipas.changes (folds : FoldsRipas s.core cmd a rd) (inv : s.core.Inv) (realm : s.core.realm? a = some rd) :
    ∃ t g v, s.Succeeds cmd t ∧ rd.inPar g ∧ s.core.Page a g v ∧ t.core.Page a g (.unassigned 0) ∧
      v.ripas? ≠ some 0 ∧ ∀ ripas, ¬Authorized s.core cmd a g ripas := by
  cases cmd with
  | rttFold rdW ipa level =>
    obtain ⟨accepted, g, v, inside, tables, page, other⟩ := folds
    obtain ⟨t, done, empty⟩ := Machine.foldsTables inv realm accepted inside tables
    exact ⟨t, g, v, done, inside, page, empty, other, fun _ => id⟩
  | _ => exact folds.elim

theorem Core.HasRealm.inPar (small : c.HasRealm rd) : rd.inPar 0 := by
  rw [Rd.inPar, Rd.parSize, Rd.ipaSize, small.bits]
  decide

/-- An active realm with a page of data. -/
def Sample.active : Machine := .prepared (Action.populate ++ [Action.activate])

theorem Sample.active_via : Sample.active.ReachableVia Prepares := Machine.prepared_via _

/-- The level-2 table of a small realm is folded, if it is full of tables. -/
theorem Core.HasRealm.foldsFull (small : s.core.HasRealm rd) (inv : s.core.Inv)
    (full : ∀ q < 512, ∃ e, s.core.forest.entry (bankAt 0) 2 q = some e ∧ S2tte.isTable e 2 = true) :
    ∃ t, s.Succeeds (.rttFold (BitVec.ofNat 64 (bankAt 0)) 0 2) t ∧ t.core.Page (bankAt 0) 0 (.unassigned 0) := by
  have tables : FoldsTables s.core (.rttFold (BitVec.ofNat 64 (bankAt 0)) 0 2) (bankAt 0) 0 := by
    refine ⟨toNat_bankAt (by omega), rfl, fun i less => ?_⟩
    obtain ⟨e, entry, table⟩ := full i less
    refine ⟨e, table, ?_⟩
    change s.core.forest.entry (bankAt 0) 2 (0 * 512 + i) = some e
    rw [Nat.zero_mul, Nat.zero_add]
    exact entry
  exact Machine.foldsTables inv small.realm small.acceptsFirst small.inPar tables

open Sample in
omit [Platform] in
/-- Such a realm with tables in all entries of level 2. -/
theorem exists_full : ∃ _ : Platform, ∃ (s : Machine) (rd : Rd), s.Reachable ∧ s.core.HasRealm rd ∧ rd.state = .active ∧
    (∀ q < 512, ∃ e, s.core.forest.entry (bankAt 0) 2 q = some e ∧ S2tte.isTable e 2 = true) ∧
    s.core.Page (bankAt 0) 0 (.ram (bankAt 4)) := by
  have reached := active_via.reachable
  have ready : ∀ i < 511, ReadyToDelegate active.core (bankAt (5 + i)) := by decide +kernel
  have spare : active.core.Spare 5 (5 + 511) := by
    refine ⟨by omega, fun i low high => ?_, by decide +kernel⟩
    rw [show i = 5 + (i - 5) by omega]
    exact ready _ (by omega)
  obtain ⟨rd, realm, kind⟩ := (Option.any_eq_true (fun rd => rd.s2StartingLevel = 1 ∧ rd.ipaBits = 39 ∧ rd.state = .active)
    (active.core.realm? (bankAt 0))).mp (by decide +kernel)
  obtain ⟨level, bits, isActive⟩ := of_decide_eq_true kind
  have page : active.core.Page (bankAt 0) 0 (.ram (bankAt 4)) :=
    ⟨3, Rtt.dataDesc (bankAt 4) true 1, ⟨by decide, by decide +kernel, by decide +kernel⟩, by decide⟩
  have node : active.core.forest.node (bankAt 0) 2 0 = some (bankAt 2) := by decide +kernel
  have first : S2tte.isTable (active.core.forest.read (bankAt 2) 0) 2 = true := by decide +kernel
  have others : ∀ q < 512, 1 ≤ q → S2tte.isUnassigned (active.core.forest.read (bankAt 2) q) = true := by decide +kernel
  have entry : ∀ q < 512, active.core.forest.entry (bankAt 0) 2 q = some (active.core.forest.read (bankAt 2) q) := by
    intro q less
    have stored := Forest.entry_of_node node less
    rwa [Nat.zero_mul, Nat.zero_add] at stored
  obtain ⟨t, reached', _, stocked, realms, forest, _⟩ := spare.stock reached 511 (by omega)
  have tabled : t.core.Tabled rd 1 := by
    refine ⟨⟨(realms _).trans realm, level, bits⟩, fun q less => ?_, fun q low high => ?_⟩
    · obtain rfl : q = 0 := by omega
      exact ⟨_, (forest.entry_eq _ _ _).trans (entry 0 (by omega)), first⟩
    · exact ⟨_, (forest.entry_eq _ _ _).trans (entry q high), others q high low⟩
  obtain ⟨u, reached'', full, _, page'⟩ := tabled.exists_full reached' stocked (forest.page_iff.mpr page) 511 (by omega) (by omega)
  exact ⟨platform, u, rd, reached'', full.toHasRealm, isActive, full.tables, page'⟩

end Islet.Rmm
