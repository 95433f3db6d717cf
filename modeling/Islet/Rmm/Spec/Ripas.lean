import Islet.Rmm.Spec.Rtt

/-! RTT_INIT_RIPAS and RTT_SET_RIPAS: loops that rewrite the entries of one table, one
after the other, until they meet an entry of another kind. -/

namespace Islet.Rmm

open Lib Prog Bits Rmi Stage2Translation

variable [Platform] {cmd : Command} {c₀ : Core} {s : Machine} {a : Nat} {rd : Rd}
  {err' : Halt → Machine → Prop}

/-! ### Single entries -/

section Entries

variable {c : Core} {last : Nat} {slot : Slot} {addr : Nat}

/-- All pages below an entry reached from a protected address are protected. -/
theorem Reached.inside (shape : rd.Shape) (reached : Reached c a (addr / 4096) rd.s2StartingLevel 3 slot last)
    (inPar : addr < rd.parSize) {g : Nat}
    (below : Below last (addr / 4096 / 512 ^ (3 - last) / 512) slot.index g) : rd.inPar g := by
  have same : g / 512 ^ (3 - last) = addr / 4096 / 512 ^ (3 - last) := below.trans reached.below.symm
  rw [shape.half reached.low reached.high same]
  unfold Rd.inPar
  omega

/-- The walk that stops at an entry also finds it from its own level. -/
theorem Reached.there (reached : Reached c a (addr / 4096) rd.s2StartingLevel 3 slot last) :
    slot = ⟨slot.table, addr / 4096 / 512 ^ (3 - last) % 512⟩ ∧
      c.forest.node a last (addr / 4096 / 512 ^ (3 - last) / 512) = some slot.table :=
  ⟨reached.slot_eq, reached.place⟩

theorem Reached.leaf_page {top level g : Nat}
    (reached : Reached c a g top level slot last) (pages : level = 3) (shallow : top ≤ 3) :
    c.forest.Leaf 3 a g last (pte c slot) :=
  ⟨reached.high, reached.entry, forest_next_none (reached.leaf pages shallow)⟩

/-- The walk for an aligned address ends where the walks for all pages of the block end. -/
theorem Reached.leaf_of_block {top g : Nat}
    (reached : Reached c a (addr / 4096) top 3 slot last) (shallow : top ≤ 3)
    (aligned : addr % 2 ^ (39 - 9 * last) = 0) (lower : addr ≤ g * 4096) (upper : g * 4096 < addr + 2 ^ (39 - 9 * last)) :
    c.forest.Leaf 3 a g last (pte c slot) := by
  refine ⟨reached.high, ?_, forest_next_none (reached.leaf rfl shallow)⟩
  rw [block_of_bounds reached.high aligned lower upper]
  exact reached.entry

/-- RTT_INIT_RIPAS makes the pages of an entry RAM while the realm is new. -/
theorem Move.initRam {p b i : Nat} (here : LeafAt c a last p b i) (realm : c.realm? a = some rd)
    (inPar : ∀ {g}, Below last p i g → rd.inPar g)
    (isNew : ∃ rd, c₀.realm? a = some rd ∧ rd.state = .new) :
    Move c₀ cmd c (storePte ⟨b, i⟩ Rtt.initRam c) := by
  have view := @Rtt.view_initRam last
  refine .entry here (isTable_of_view_ne (by rw [view]; rfl)) ?_ (.inl (by rw [view]; rfl)) ?_
    fun _ _ => .inl (by rw [view]; exact trivial)
  · intro rd' g realm' below
    cases realm.symm.trans realm'
    rw [Rd.Fits, if_pos (inPar below), view]
    exact show 1 ≤ 2 by omega
  · intro rd' g realm' below _
    exact .inr (.inl isNew)

omit [Platform] in
theorem Rtt.Retyped.isTable {old : View} {ripas : Nat} {new : Word} (retyped : Rtt.Retyped old ripas (S2tte.view last new)) :
    S2tte.isTable new last = false := by
  refine isTable_of_view_ne ?_
  have protect := retyped.protect
  cases view : S2tte.view last new with
  | table addr => rw [view] at protect; exact protect.elim
  | unassigned ripas => rfl
  | assigned pa ripas => rfl
  | ram pa => rfl
  | unassignedNs => rfl
  | ns pa => rfl
  | malformed => rfl

/-- RTT_SET_RIPAS gives the pages of an entry the RIPAS that the realm asked for. -/
theorem Move.setRipas {p b i ripas : Nat} {new flags : Word} (low : 1 ≤ last) (high : last ≤ 3)
    (here : LeafAt c a last p b i) (realm : c.realm? a = some rd)
    (inPar : ∀ {g}, Below last p i g → rd.inPar g) (small : ripas < 2 ^ 64)
    (written : Rtt.ripasStep (c.forest.read b i) (getMasked (c.forest.read b i) (S2tte.blockMask last)) last
      ripas flags = .write new)
    (asked : ∀ {g}, Below last p i g → Authorized c₀ cmd a g (some ripas)) :
    Move c₀ cmd c (storePte ⟨b, i⟩ new c) := by
  have retyped := Rtt.retyped_of_ripasStep low high small written
  refine .entry here retyped.isTable ?_ retyped.backing ?_ fun _ vacant => .inl ?_
  · intro rd' g realm' below
    cases realm.symm.trans realm'
    rw [Rd.Fits, if_pos (inPar below)]
    exact retyped.protect
  · intro rd' g realm' below _
    rw [retyped.ripas]
    exact .inr (.inr (.inl (asked below)))
  · -- a vacant entry has no address to pass on
    have none : (S2tte.view last new).backing? = none := by
      rcases retyped.backing with none | same
      · exact none
      · rw [same]
        cases view : S2tte.view last (c.forest.read b i) with
        | unassigned ripas => rfl
        | unassignedNs => rfl
        | table addr => rfl
        | ns pa => rfl
        | malformed => rfl
        | assigned pa ripas => rw [view] at vacant; exact vacant.elim
        | ram pa => rw [view] at vacant; exact vacant.elim
    have protect := retyped.protect
    cases view : S2tte.view last new with
    | unassigned ripas => exact trivial
    | unassignedNs => exact trivial
    | table addr => rw [view] at protect; exact protect.elim
    | ns pa => rw [view] at protect; exact protect.elim
    | malformed => rw [view] at protect; exact protect.elim
    | assigned pa ripas => rw [view] at none; cases none
    | ram pa => rw [view] at none; cases none

end Entries

/-! ### The end of a table -/

omit [Platform] in
theorem alignedTo_eq {x k : Nat} : Rtt.alignedTo x k = x ↔ x % k = 0 := by
  unfold Rtt.alignedTo Vmsa.alignDown
  constructor
  · intro same
    rw [← same]
    exact Nat.mul_mod_left _ _
  · intro zero
    exact Nat.div_mul_cancel (Nat.dvd_of_mod_eq_zero zero)

omit [Platform] in
/-- The addresses that the entries of a table cover end above each of them, at an entry's start. -/
theorem tableTop_spec (base : Nat) {level size : Nat} (shape : rd.Shape) (high : level ≤ 3)
    (space : rd.tables.spaceSize? level = some size) :
    base < Rtt.alignedTo base size + size ∧ (Rtt.alignedTo base size + size) % 2 ^ (39 - 9 * level) = 0 := by
  have count : 0 < 512 * if level = rd.s2StartingLevel then rd.rttNumStart else 1 := by
    have roots := shape.num_le.1
    split <;> omega
  rw [spaceSize?_eq high space]
  generalize (512 * if level = rd.s2StartingLevel then rd.rttNumStart else 1) = k at count
  have whole : 0 < 2 ^ (39 - 9 * level) * k := Nat.mul_pos (Nat.two_pow_pos _) count
  unfold Rtt.alignedTo Vmsa.alignDown
  constructor
  · have part := Nat.mod_lt base whole
    have split := Nat.div_add_mod' base (2 ^ (39 - 9 * level) * k)
    omega
  · rw [← Nat.succ_mul, Nat.mul_comm, Nat.mul_assoc]
    exact Nat.mul_mod_right _ _

omit [Platform] in
/-- The next entry of an aligned address still starts at an aligned address, and not above an aligned bound. -/
theorem next_aligned {addr bound m : Nat} (aligned : addr % m = 0) (boundAligned : bound % m = 0) (less : addr < bound) :
    (addr + m) % m = 0 ∧ addr + m ≤ bound := by
  obtain ⟨i, rfl⟩ := Nat.dvd_of_mod_eq_zero aligned
  obtain ⟨n, rfl⟩ := Nat.dvd_of_mod_eq_zero boundAligned
  have smaller : i < n := Nat.lt_of_mul_lt_mul_left less
  refine ⟨by rw [Nat.add_mod_right, Nat.mul_mod_right], ?_⟩
  calc m * i + m = m * (i + 1) := by ring
    _ ≤ m * n := Nat.mul_le_mul_left _ smaller

/-! ### RTT_INIT_RIPAS -/

section Init

variable {mapSize top topAddr : Nat} {ok : Nat → Machine → Prop}

/-- One range is measured. -/
theorem wp_measureRipas {β : Type} {x y : Nat} {next : RmmM β} {ok : β → Machine → Prop} (inv : s.core.Inv)
    (realm : s.core.realm? a = some rd)
    (done : wp next ok err'
      { s with
        core := (s.core.setContent a (.rd (rd.measured (.ripas x y)))).emit (.measured a (.ripas x y)) }) :
    wp (ofExcept (HashContext.measureRipasGranule rd x y) >>= fun measured =>
      setRd (granuleAddrToIndex a) measured >>= fun _ =>
        emit (.measured a (.ripas x y)) >>= fun _ => next) ok err' s := by
  have valid := (Core.realm?_eq_some.mp realm).1
  rw [wp_bind, HashContext.measureRipasGranule_ok (inv.realms.hash realm)]
  refine wp_ofExcept nofun fun measured run => ?_
  cases run
  rw [wp_bind, wp_setRd, wp_bind, wp_emit, indexToAddr_granuleAddrToIndex valid]
  exact done

/-- The entries that RTT_INIT_RIPAS takes. -/
def Rtt.TakesInit (e : Word) : Prop := S2tte.isUnassignedEmpty e = true ∨ S2tte.isUnassignedRam e = true

/-- What it leaves of such an entry. -/
def Rtt.initialised (e : Word) : Word := if S2tte.isUnassignedEmpty e then Rtt.initRam else e

omit [Platform] in
theorem Rtt.TakesInit.isTable {e : Word} {l : Nat} (takes : Rtt.TakesInit e) :
    S2tte.isTable (Rtt.initialised e) l = false := by
  unfold Rtt.initialised
  split
  · exact isTable_of_view_ne (by rw [Rtt.view_initRam]; rfl)
  · rcases takes with empty | ram
    · contradiction
    · exact isTable_of_unassigned (Bool.and_eq_true_iff.mp ram).1

/-- The round that RTT_INIT_RIPAS makes at `x` for the step of the given level: the leaf that the walk comes to, which
may be of a deeper level, is initialised, and the rest of what the step covers is as it was. -/
def InitRound (c c' : Core) (a level x : Nat) : Prop :=
  ∃ l e, level ≤ l ∧ c.forest.Leaf 3 a (x / 4096) l e ∧ Rtt.TakesInit e ∧
    (∀ g, x ≤ g * 4096 → g * 4096 < x + 2 ^ (39 - 9 * l) → c'.forest.Leaf 3 a g l (Rtt.initialised e)) ∧
    ∀ g l' e', x + 2 ^ (39 - 9 * l) ≤ g * 4096 → g * 4096 < x + 2 ^ (39 - 9 * level) →
      (c'.forest.Leaf 3 a g l' e' ↔ c.forest.Leaf 3 a g l' e')

theorem InitRound.of_replaced {c c' c'' : Core} {level last addr : Nat} {e : Word} (deep : level ≤ last)
    (aligned : addr % 2 ^ (39 - 9 * last) = 0) (leaf : c.forest.Leaf 3 a (addr / 4096) last e) (takes : Rtt.TakesInit e)
    (replaced : Replaced c c' a addr last e (Rtt.initialised e)) (forest : SameForest c' c'') :
    InitRound c c'' a level addr := by
  refine ⟨last, e, deep, leaf, takes, fun g lower upper => ?_, fun g l' e' lower upper => ?_⟩
  · exact (Forest.Leaf.congr (forest.entry_eq a) fun _ _ => rfl).mpr
      (replaced.leaf_after leaf.level aligned takes.isTable lower upper)
  · exact replaced.kept.of_sameForest forest a g l' e' (by omega)

/-- What is done later, to other addresses, does not matter. -/
theorem InitRound.later {c c' c'' : Core} {level x low high : Nat} (round : InitRound c c' a level x)
    (kept : LeavesKept c' c'' a low high) (after : x + 2 ^ (39 - 9 * level) ≤ low) : InitRound c c'' a level x := by
  obtain ⟨l, e, deep, leaf, takes, made, spared⟩ := round
  have narrow : 2 ^ (39 - 9 * l) ≤ 2 ^ (39 - 9 * level) := Nat.pow_le_pow_right (by omega) (by omega)
  refine ⟨l, e, deep, leaf, takes, fun g lower upper => ?_, fun g l' e' lower upper => ?_⟩
  · exact (kept a g _ _ (by omega)).mpr (made g lower upper)
  · exact (kept a g _ _ (by omega)).trans (spared g l' e' lower upper)

/-- Nor does what was done earlier. -/
theorem InitRound.earlier {c c' c'' : Core} {level x low high : Nat} (round : InitRound c' c'' a level x)
    (kept : LeavesKept c c' a low high) (before : high ≤ x) (aligned : x % 4096 = 0) : InitRound c c'' a level x := by
  obtain ⟨l, e, deep, leaf, takes, made, spared⟩ := round
  have wide : 0 < 2 ^ (39 - 9 * l) := Nat.two_pow_pos _
  refine ⟨l, e, deep, (kept a _ _ _ (by omega)).mp leaf, takes, made, fun g l' e' lower upper => ?_⟩
  exact (spared g l' e' lower upper).trans (kept a g _ _ (by omega))

/-- The consecutive ranges of `n` steps. -/
def ripasRanges (addr step : Nat) : Nat → List (Nat × Nat)
  | 0 => []
  | n + 1 => (addr, addr + step) :: ripasRanges (addr + step) step n

def measuredRanges (rd : Rd) (ranges : List (Nat × Nat)) : Rd :=
  ranges.foldl (fun rd range => rd.measured (.ripas range.1 range.2)) rd

def measuredEvents (a : Nat) (ranges : List (Nat × Nat)) : List Event :=
  ranges.map fun range => .measured a (.ripas range.1 range.2)

/-- `n` rounds from `addr` on, each with its measurement. -/
structure InitRounds (c c' : Core) (a : Nat) (rd : Rd) (level addr n : Nat) : Prop where
  rounds : ∀ k < n, InitRound c c' a level (addr + k * 2 ^ (39 - 9 * level))
  kept : LeavesKept c c' a addr (addr + n * 2 ^ (39 - 9 * level))
  realm : c'.realm? a = some (measuredRanges rd (ripasRanges addr (2 ^ (39 - 9 * level)) n))
  log : c'.log = (measuredEvents a (ripasRanges addr (2 ^ (39 - 9 * level)) n)).reverse ++ c.log

theorem InitRounds.zero {c : Core} {level addr : Nat} (realm : c.realm? a = some rd) : InitRounds c c a rd level addr 0 :=
  ⟨by omega, .refl _ _ _, realm, rfl⟩

/-- One round and its measurement before the others. -/
theorem InitRounds.cons {c c' c'' : Core} {level addr n : Nat} (high : level ≤ 3)
    (aligned : addr % 2 ^ (39 - 9 * level) = 0) (first : InitRound c c' a level addr)
    (kept : LeavesKept c c' a addr (addr + 2 ^ (39 - 9 * level)))
    (log : c'.log = .measured a (.ripas addr (addr + 2 ^ (39 - 9 * level))) :: c.log)
    (rest : InitRounds c' c'' a (rd.measured (.ripas addr (addr + 2 ^ (39 - 9 * level)))) level
      (addr + 2 ^ (39 - 9 * level)) n) :
    InitRounds c c'' a rd level addr (n + 1) := by
  have next : ∀ k, addr + (k + 1) * 2 ^ (39 - 9 * level) = addr + 2 ^ (39 - 9 * level) + k * 2 ^ (39 - 9 * level) := by
    intro k
    ring
  refine ⟨fun k less => ?_, ?_, rest.realm, ?_⟩
  · cases k with
    | zero =>
      rw [Nat.zero_mul, Nat.add_zero]
      exact first.later rest.kept (Nat.le_refl _)
    | succ k =>
      rw [next]
      refine (rest.rounds k (by omega)).earlier kept (Nat.le_add_right _ _) (page_aligned high ?_)
      rw [Nat.add_mul_mod_self_right, Nat.add_mod_right]
      exact aligned
  · rw [next]
    exact kept.trans rest.kept (Nat.le_add_right _ _) (Nat.le_add_right _ _)
  · rw [rest.log, log]
    simp [measuredEvents, ripasRanges]

/-- RTT_INIT_RIPAS can go on at `x`. -/
def InitReady (c : Core) (a level top topAddr x : Nat) : Prop :=
  x < topAddr ∧ x + 2 ^ (39 - 9 * level) ≤ top ∧ ∃ l e, c.forest.Leaf 3 a (x / 4096) l e ∧ Rtt.TakesInit e

theorem InitReady.of_kept {c c' : Core} {level low high x : Nat} (kept : LeavesKept c c' a low high) (after : high ≤ x)
    (aligned : x % 4096 = 0) : InitReady c' a level top topAddr x ↔ InitReady c a level top topAddr x := by
  unfold InitReady
  simp only [kept a (x / 4096) _ _ (show ¬(a = a ∧ low ≤ x / 4096 * 4096 ∧ x / 4096 * 4096 < high) by omega)]

theorem wp_initRipasLoop {level : Nat} (measures : cmd.Measures)
    (isNew₀ : ∃ rd, c₀.realm? a = some rd ∧ rd.state = .new) (high : level ≤ 3) (fuel addr : Nat) (inv : s.core.Inv)
    (realm : s.core.realm? a = some rd) (isNew : rd.state = .new) (inside : top ≤ rd.parSize)
    (aligned : addr % 2 ^ (39 - 9 * level) = 0) (topAligned : topAddr % 2 ^ (39 - 9 * level) = 0) (within : addr ≤ topAddr)
    (enough : topAddr < addr + 2 ^ (39 - 9 * level) * fuel)
    (deep : ∀ {x l e}, addr ≤ x → x < topAddr → s.core.forest.Leaf 3 a (x / 4096) l e → level ≤ l)
    (done : ∀ n t, Kept c₀ cmd s t → (n = 0 → t = s) → InitRounds s.core t.core a rd level addr n →
      (∀ k < n, InitReady s.core a level top topAddr (addr + k * 2 ^ (39 - 9 * level))) →
      ¬InitReady s.core a level top topAddr (addr + n * 2 ^ (39 - 9 * level)) →
      ok (addr + n * 2 ^ (39 - 9 * level)) t) :
    wp (Rtt.initRipasLoop (granuleAddrToIndex a) (2 ^ (39 - 9 * level)) top topAddr fuel addr) ok err' s := by
  have positive : 0 < 2 ^ (39 - 9 * level) := Nat.two_pow_pos _
  induction fuel generalizing s addr rd with
  | zero => omega
  | succ fuel ih =>
    have valid := (Core.realm?_eq_some.mp realm).1
    have shape := inv.realms.shape realm
    have stop : ¬InitReady s.core a level top topAddr addr → ok addr s := fun stops => by
      have last := done 0 s (.of_eq rfl rfl rfl) (fun _ => rfl) (.zero realm) (by omega)
      rw [Nat.zero_mul, Nat.add_zero] at last
      exact last stops
    unfold Rtt.initRipasLoop
    refine wp_if (fun more => ?_) fun ends => stop fun ready => ends ⟨ready.1, ready.2.1⟩
    have half : rd.parSize ≤ rd.ipaSize := Nat.div_le_self _ _
    have small : addr < rd.ipaSize := by omega
    have fits : rd.ipaSize ≤ 2 ^ 48 := Nat.pow_le_pow_right (by omega) shape.bits
    obtain ⟨aligned', within'⟩ := next_aligned aligned topAligned more.1
    have enough' : topAddr < addr + 2 ^ (39 - 9 * level) + 2 ^ (39 - 9 * level) * fuel := by
      rw [Nat.mul_succ] at enough
      omega
    rw [wp_bind, wp_contentRd, indexToAddr_granuleAddrToIndex valid, (Core.realm?_eq_some.mp realm).2.2, wp_bind]
    refine wp_getS2tte realm inv (Nat.le_refl 3) small fun slot last found reached => ?_
    have shallow : rd.s2StartingLevel ≤ 3 := by have := shape.level_le; omega
    have here := reached.leaf_page rfl shallow
    have plain := reached.leaf rfl shallow
    have lower := deep (Nat.le_refl addr) more.1 here
    have inner : addr % 2 ^ (39 - 9 * last) = 0 := Nat.mod_eq_zero_of_dvd
      ((Nat.pow_dvd_pow 2 (by omega)).trans (Nat.dvd_of_mod_eq_zero aligned))
    -- what follows once the entry is RAM, from the state after the write
    have measure : ∀ u : Machine, u.core.Inv → u.core.realm? a = some rd → u.core.log = s.core.log → Kept c₀ cmd s u →
        Rtt.TakesInit (pte s.core slot) →
        Replaced s.core u.core a addr last (pte s.core slot) (Rtt.initialised (pte s.core slot)) →
        wp (ofExcept (HashContext.measureRipasGranule rd addr (addr + 2 ^ (39 - 9 * level))) >>= fun measured =>
          setRd (granuleAddrToIndex a) measured >>= fun _ =>
            emit (.measured a (.ripas addr (addr + 2 ^ (39 - 9 * level)))) >>= fun _ =>
              Rtt.initRipasLoop (granuleAddrToIndex a) (2 ^ (39 - 9 * level)) top topAddr fuel
                (addr + 2 ^ (39 - 9 * level))) ok err' u := by
      intro u inv' realm' log kept takes replaced
      refine wp_measureRipas inv' realm' ?_
      have move : Move c₀ cmd u.core _ :=
        .setRd realm' (.measure (.ripas addr (addr + 2 ^ (39 - 9 * level))) ⟨by omega, by omega⟩ measures isNew)
      have kept' : Kept c₀ cmd s { u with core := _ } :=
        kept.trans ⟨.single move, .of_eq rfl, .refl _⟩
      have now : (u.core.setContent a (.rd (rd.measured (.ripas addr (addr + 2 ^ (39 - 9 * level)))))).realm? a = some _ :=
        (realm?_setRd realm' _ a).trans (if_pos rfl)
      have forest : SameForest u.core ((u.core.setContent a (.rd (rd.measured (.ripas addr
          (addr + 2 ^ (39 - 9 * level)))))).emit (.measured a (.ripas addr (addr + 2 ^ (39 - 9 * level))))) :=
        ((show SameOwners u.core (u.core.setContent a (.rd (rd.measured _))) from
          sameOwners_setRd realm' rfl).sameForest inv'.tables).trans ⟨fun _ => rfl, fun _ _ _ _ _ => rfl⟩
      have narrow : 2 ^ (39 - 9 * last) ≤ 2 ^ (39 - 9 * level) := Nat.pow_le_pow_right (by omega) (by omega)
      have leaves := (replaced.kept.of_sameForest forest).widen (Nat.le_refl addr) (Nat.add_le_add_left narrow addr)
      have round := InitRound.of_replaced lower inner here takes replaced forest
      have pageAligned := page_aligned high aligned'
      have later : ∀ k, (addr + 2 ^ (39 - 9 * level) + k * 2 ^ (39 - 9 * level)) % 4096 = 0 := fun k =>
        page_aligned high (by rw [Nat.add_mul_mod_self_right]; exact aligned')
      have next : ∀ k, addr + (k + 1) * 2 ^ (39 - 9 * level) = addr + 2 ^ (39 - 9 * level) + k * 2 ^ (39 - 9 * level) :=
        fun k => by ring
      refine ih (s := { u with core := _ }) (addr + 2 ^ (39 - 9 * level)) (move.inv inv') now isNew inside aligned' within'
        enough' (fun {x l e} low up leaf => deep (by omega) up ((leaves a _ _ _ (by omega)).mp leaf))
        fun n t more' _ rest ready stops => ?_
      rw [← next]
      refine done (n + 1) t (kept'.trans more') nofun (rest.cons high aligned round leaves (congrArg _ log)) (fun k less => ?_)
        fun again => stops ?_
      · cases k with
        | zero =>
          rw [Nat.zero_mul, Nat.add_zero]
          exact ⟨more.1, more.2, last, _, here, takes⟩
        | succ k =>
          rw [next]
          exact (InitReady.of_kept leaves (Nat.le_add_right _ _) (later k)).mp (ready k (by omega))
      · rw [next] at again
        exact (InitReady.of_kept leaves (Nat.le_add_right _ _) (later n)).mpr again
    dsimp only
    refine wp_if (fun empty => ?_) fun notEmpty => ?_
    · obtain ⟨_, place⟩ := reached.there
      have leaf := reached.leafAt plain
      have move : Move c₀ cmd s.core _ := .initRam leaf realm (reached.inside shape (by omega)) isNew₀
      rw [wp_bind]
      refine wp_setAt realm inv reached.high small place ?_
      rw [if_pos (.inl empty), ← reached.index]
      have replaced := reached.replaced (v := Rtt.initialised (pte s.core slot)) inv plain inner
      rw [show Rtt.initialised (pte s.core slot) = Rtt.initRam from if_pos empty] at replaced
      refine measure { s with core := _, stores := _ } (move.inv inv) ((replaced.realms a).trans realm) rfl
        ⟨.single move, legal_store rfl (.of_invalid ?_), .refl _⟩ (.inl empty) ?_
      · exact ((S2tte.isUnassigned_iff _).mp (Bool.and_eq_true_iff.mp empty).1).1
      rw [show Rtt.initialised (pte s.core slot) = Rtt.initRam from if_pos empty]
      exact replaced
    · refine wp_if (fun takes => ?_) fun refused => stop fun ⟨_, _, l, e, ready, takes⟩ => ?_
      · refine measure s inv realm rfl (.of_eq rfl rfl rfl) takes ?_
        rw [show Rtt.initialised (pte s.core slot) = pte s.core slot from if_neg notEmpty]
        exact ⟨reached.entry, plain, reached.entry, .refl _ _ _, fun _ => rfl⟩
      · rw [(ready.unique here).2] at takes
        exact refused takes

omit [Platform] in
theorem parSize_aligned (shape : rd.Shape) : rd.parSize % 4096 = 0 := by
  have halves := shape.halves
  have level := shape.level_le
  obtain ⟨k, bits⟩ : ∃ k, rd.ipaBits = k + 12 + 1 := ⟨rd.ipaBits - 13, by omega⟩
  rw [Rd.parSize, Rd.ipaSize, bits, Nat.pow_succ, Nat.mul_div_cancel _ (by omega), Nat.pow_add]
  exact Nat.mul_mod_left _ _

/-- In the table that holds the entry for `base`, no address has an entry of a level above. -/
theorem Reached.deep {c : Core} {base size level l x : Nat} {slot : Slot} {e : Word} (realm : c.realm? a = some rd)
    (reached : Reached c a (base / 4096) rd.s2StartingLevel 3 slot level) (space : rd.tables.spaceSize? level = some size)
    (low : base ≤ x) (up : x < Rtt.alignedTo base size + size) (leaf : c.forest.Leaf 3 a (x / 4096) l e) : level ≤ l := by
  obtain ⟨d, place, stored⟩ := Forest.node_of_entry leaf.stored
  have lowest := Forest.top_le_of_node place
  rw [Core.forest_top realm] at lowest
  by_contra above
  have size := spaceSize?_eq reached.high space
  rw [if_neg (by omega), Nat.mul_one] at size
  subst size
  have same : x / (2 ^ (39 - 9 * level) * 512) = base / (2 ^ (39 - 9 * level) * 512) := by
    refine Nat.le_antisymm (Nat.le_of_lt_succ ?_) (Nat.div_le_div_right low)
    rw [Nat.div_lt_iff_lt_mul (Nat.mul_pos (Nat.two_pow_pos _) (by omega)), Nat.succ_mul]
    exact up
  -- the table of `base` is also that of `x`, so that the entry above it on the way is a table
  have there : c.forest.node a level (x / 4096 / 512 ^ (3 - level) / 512) = some slot.table := by
    rw [entry_bytes reached.high, Nat.mul_assoc, ← Nat.div_div_eq_div_mul, ← Nat.div_div_eq_div_mul,
      ← Nat.div_div_eq_div_mul, ← Nat.div_div_eq_div_mul] at same
    rw [same]
    exact reached.place
  have table := table_above reached.high (by omega) place there
  have last := leaf.last
  rw [Core.forest_next, ← stored, table] at last
  exact nomatch last

/-- RTT_INIT_RIPAS accepts its arguments: `level` is that of the entry for `base`, and `topAddr` is where its table
ends. -/
structure InitAccepted (c : Core) (a base top : Nat) (rd : Rd) (level topAddr : Nat) : Prop where
  realm : c.realm? a = some rd
  isNew : rd.state = .new
  ordered : base < top
  valid : isValidRttCmd rd base S2tte.rttPageLevel = true ∧ isValidRttCmd rd top S2tte.rttPageLevel = true
  inPar : rd.addrInPar base = true ∧ rd.addrInPar (top - granuleSize) = true
  leaf : ∃ e, c.forest.Leaf 3 a (base / 4096) level e
  aligned : base % 2 ^ (39 - 9 * level) = 0 ∧ top % 2 ^ (39 - 9 * level) = 0
  table : ∃ size, rd.tables.spaceSize? level = some size ∧ topAddr = Rtt.alignedTo base size + size

theorem InitAccepted.unique {c : Core} {base level level' topAddr' : Nat} {rd' : Rd}
    (first : InitAccepted c a base top rd level topAddr) (second : InitAccepted c a base top rd' level' topAddr') :
    rd' = rd ∧ level' = level ∧ topAddr' = topAddr := by
  obtain rfl : rd' = rd := Option.some.inj (second.realm.symm.trans first.realm)
  obtain rfl : level' = level := (second.leaf.choose_spec.unique first.leaf.choose_spec).1
  obtain ⟨size, space, rfl⟩ := first.table
  obtain ⟨size', space', rfl⟩ := second.table
  obtain rfl : size' = size := Option.some.inj (space'.symm.trans space)
  exact ⟨rfl, rfl, rfl⟩

/-- RTT_INIT_RIPAS has made `n` rounds, as many as could be made. -/
structure HasInit (c : Core) (a base top : Nat) (rd : Rd) (level topAddr n : Nat) (t : Machine) : Prop where
  accepted : InitAccepted c a base top rd level topAddr
  some : 0 < n
  result : t.ret 1 = base + n * 2 ^ (39 - 9 * level)
  rounds : InitRounds c t.core a rd level base n
  ready : ∀ k < n, InitReady c a level top topAddr (base + k * 2 ^ (39 - 9 * level))
  stops : ¬InitReady c a level top topAddr (base + n * 2 ^ (39 - 9 * level))

/-- What is enough for RTT_INIT_RIPAS to succeed. -/
def ReadyForInit (c : Core) (a base top : Nat) : Prop :=
  ∃ rd level topAddr, InitAccepted c a base top rd level topAddr ∧ InitReady c a level top topAddr base

theorem rttInitRipas_spec (rdW baseW topW : Word) {base : Nat} (inv : s.core.Inv) (idle : s.held = [])
    (command : cmd = .rttInitRipas rdW baseW topW) :
    wp (Rmi.rttInitRipas a base top)
      (fun _ t => Kept s.core cmd s t ∧ ∃ rd level topAddr n, HasInit s.core a base top rd level topAddr n t)
      (fun halt t => Stops s.core cmd s (ReadyForInit s.core a base top) halt t ∧
        (∀ e, halt = .error e → t.core = s.core)) s := by
  have early : ∀ {t : Machine} {e : Error}, t.core = s.core → t.trace = s.trace → t.pageTable = s.pageTable →
      (∀ {rd level topAddr}, ¬InitAccepted s.core a base top rd level topAddr) →
      Stops s.core cmd s (ReadyForInit s.core a base top) (.error e) t ∧
        (∀ e', Halt.error e = .error e' → t.core = s.core) := by
    intro t e core trace pageTable refused
    refine ⟨Kept.error (.of_eq core trace pageTable) ?_, fun _ _ => core⟩
    rintro ⟨_, _, _, accepted, _⟩
    exact refused accepted
  unfold Rmi.rttInitRipas
  refine wp_lockRd (fun missing _ => early rfl rfl rfl fun accepted => by cases missing.symm.trans accepted.realm)
    (fun _ held => not_stuck idle held) fun rd realm _ => ?_
  have shape := inv.realms.shape realm
  obtain ⟨valid, _, desc⟩ := Core.realm?_eq_some.mp realm
  rw [wp_bind]
  refine wp_errIf (fun notNew => early rfl rfl rfl fun accepted => ?_) fun isNew => ?_
  · cases realm.symm.trans accepted.realm
    exact notNew accepted.isNew
  replace isNew : rd.state = .new := Classical.not_not.mp isNew
  rw [wp_bind]
  refine wp_errIf (fun unordered => early rfl rfl rfl fun accepted => Nat.not_lt.mpr unordered accepted.ordered)
    fun ordered => ?_
  rw [wp_bind]
  refine wp_errIf (fun bad => early rfl rfl rfl fun accepted => ?_) fun good => ?_
  · cases realm.symm.trans accepted.realm
    simp [accepted.valid, accepted.inPar] at bad
  simp only [Bool.not_eq_true', not_or, Bool.not_eq_false] at good
  obtain ⟨baseOk, topOk, baseIn, topIn⟩ := good
  obtain ⟨_, inside, _⟩ := isValidRttCmd_spec shape baseOk
  obtain ⟨_, _, topPage⟩ := isValidRttCmd_spec shape topOk
  have within : top ≤ rd.parSize := by
    have whole := parSize_aligned shape
    have topPage : top % 4096 = 0 := topPage
    have topIn : top - 4096 < rd.parSize := by simpa [Rd.addrInPar] using topIn
    omega
  have shallow : rd.s2StartingLevel ≤ 3 := by have := shape.level_le; omega
  unfold Rtt.initRipas
  rw [wp_bind, wp_bind, wp_contentRd, indexToAddr_granuleAddrToIndex valid, desc, wp_bind]
  refine wp_getS2tte realm inv (Nat.le_refl 3) inside fun slot level found reached => ?_
  have leaf := reached.leaf_page rfl shallow
  dsimp only
  rw [wp_bind]
  refine wp_mappingSize reached.high ?_
  rw [wp_bind]
  refine wp_errIf (fun unaligned => early rfl rfl rfl fun accepted => unaligned (alignedTo_eq.mpr ?_)) fun aligned => ?_
  · obtain ⟨_, leaf'⟩ := accepted.leaf
    rw [(leaf.unique leaf').1]
    exact accepted.aligned.1
  rw [wp_bind]
  refine wp_errIf (fun unaligned => early rfl rfl rfl fun accepted => unaligned (alignedTo_eq.mpr ?_).symm)
    fun topAligned => ?_
  · obtain ⟨_, leaf'⟩ := accepted.leaf
    rw [(leaf.unique leaf').1]
    exact accepted.aligned.2
  replace aligned := alignedTo_eq.mp (Classical.not_not.mp aligned)
  replace topAligned := alignedTo_eq.mp (Classical.not_not.mp topAligned).symm
  rw [wp_bind]
  refine wp_levelSpaceSize realm inv reached.high fun size space => ?_
  obtain ⟨above, tableAligned⟩ := tableTop_spec base shape reached.high space
  have accepts : InitAccepted s.core a base top rd level (Rtt.alignedTo base size + size) :=
    ⟨realm, isNew, by omega, ⟨baseOk, topOk⟩, ⟨baseIn, topIn⟩, ⟨_, leaf⟩, ⟨aligned, topAligned⟩, size, space, rfl⟩
  have deep := fun {x l e} => reached.deep (l := l) (x := x) (e := e) realm space
  generalize Rtt.alignedTo base size + size = topAddr at above tableAligned accepts deep ⊢
  rw [wp_bind]
  refine wp_initRipasLoop (show cmd.Measures by rw [command]; trivial) ⟨rd, realm, isNew⟩ reached.high _ base inv realm
    isNew within aligned tableAligned (Nat.le_of_lt above) ?_ deep fun n t kept none rounds ready stops => ?_
  · have part := Nat.mod_lt (topAddr - base) (Nat.two_pow_pos (39 - 9 * level))
    have split := Nat.div_add_mod (topAddr - base) (2 ^ (39 - 9 * level))
    rw [Nat.mul_succ]
    omega
  · rcases Nat.eq_zero_or_pos n with rfl | some
    · cases none rfl
      rw [Nat.zero_mul, Nat.add_zero] at stops ⊢
      rw [if_neg (Nat.lt_irrefl base), wp_err]
      refine ⟨Kept.error (.of_eq rfl rfl rfl) ?_, fun _ _ => rfl⟩
      rintro ⟨rd', level', topAddr', accepted, first⟩
      obtain ⟨rfl, rfl, rfl⟩ := accepts.unique accepted
      exact stops first
    · have wide : 0 < n * 2 ^ (39 - 9 * level) := Nat.mul_pos some (Nat.two_pow_pos _)
      rw [if_pos (by omega), wp_pure, wp_setRet]
      exact ⟨⟨kept.moves, kept.legal, kept.pageTable⟩, rd, level, topAddr, n,
        accepts, some, rfl, rounds, ready, stops⟩

end Init

/-! ### RTT_SET_RIPAS -/

section Set

variable {level tableTop top ripas : Nat} {flags : Word} {ok : Nat → Machine → Prop}

/-- Only the contents of tables differ. -/
structure TablesOnly (c c' : Core) : Prop where
  granules : c'.granules = c.granules
  mem : ∀ b, c.stateOf b ≠ .rtt → c'.mem b = c.mem b

omit [Platform] in
theorem TablesOnly.trans {c c' c'' : Core} (first : TablesOnly c c') (second : TablesOnly c' c'') :
    TablesOnly c c'' := by
  refine ⟨second.granules.trans first.granules, fun b other => ?_⟩
  rw [second.mem b, first.mem b other]
  rw [Core.stateOf, Core.granule, first.granules]
  exact other

theorem tablesOnly_storePte {c : Core} {b i : Nat} {v : Word} (table : c.stateOf b = .rtt) :
    TablesOnly c (storePte ⟨b, i⟩ v c) := by
  refine ⟨rfl, fun x other => Core.mem_setContent_of_ne _ ?_⟩
  rintro rfl
  exact other table

/-- A round of `set_ripas` can be made on the entry for `addr`. -/
def RoundReady (c : Core) (a level ripas : Nat) (flags : Word) (addr : Nat) : Prop :=
  ∃ e e', c.forest.Leaf 3 a (addr / 4096) level e ∧ Rtt.RipasRound level ripas flags e e'

/-- The entries of the pages of `[low, high)` are of one level, and a round of `set_ripas` was made on each. -/
def RoundsMade (c c' : Core) (a level ripas : Nat) (flags : Word) (low high : Nat) : Prop :=
  ∀ {g l e}, low ≤ g * 4096 → g * 4096 < high → c.forest.Leaf 3 a g l e →
    l = level ∧ ∃ e', c'.forest.Leaf 3 a g level e' ∧ Rtt.RipasRound level ripas flags e e'

theorem RoundsMade.trans {c c' c'' : Core} {low mid high : Nat} (first : RoundsMade c c' a level ripas flags low mid)
    (second : RoundsMade c' c'' a level ripas flags mid high) (before : LeavesKept c c' a low mid)
    (after : LeavesKept c' c'' a mid high) : RoundsMade c c'' a level ripas flags low high := by
  intro g l e lower upper leaf
  by_cases early : g * 4096 < mid
  · obtain ⟨same, e', leaf', round⟩ := first lower early leaf
    exact ⟨same, e', (after a g level e' (by omega)).mpr leaf', round⟩
  · exact second (by omega) upper ((before a g l e (by omega)).mpr leaf)

theorem RoundsMade.of_sameForest {c c' c'' : Core} {low high : Nat} (rounds : RoundsMade c c' a level ripas flags low high)
    (same : SameForest c' c'') : RoundsMade c c'' a level ripas flags low high := by
  intro g l e lower upper leaf
  obtain ⟨level, e', leaf', round⟩ := rounds lower upper leaf
  exact ⟨level, e', (Forest.Leaf.congr (same.entry_eq a) fun _ _ => rfl).mpr leaf', round⟩

omit [Platform] in
/-- Pages and blocks of 2 MB that stop being RAM are flushed, and a block of a gigabyte is forgotten. -/
theorem ripasTlbi_sound {e new pa : Word} (known : ripas ≤ 1) (fits : (S2tte.view level e).Protected)
    (written : Rtt.ripasStep e pa level ripas flags = .write new) :
    PteSet.Sound ⟨rd.id, level, e, new, Rtt.ripasTlbi rd e level ripas flags⟩ := by
  by_cases invalid : S2tte.descNum e = 0
  · exact .of_invalid invalid
  have notUnassigned : S2tte.isUnassigned e = false := by
    rw [← Bool.not_eq_true, S2tte.isUnassigned_iff]
    exact fun unassigned => invalid unassigned.1
  have notAssigned : S2tte.isAssigned e = false := by
    rw [← Bool.not_eq_true, S2tte.isAssigned_iff]
    exact fun assigned => invalid assigned.1
  -- of the protected descriptors only those of RAM are valid
  obtain ⟨base, ram⟩ : ∃ base, S2tte.view level e = .ram base := by
    cases meaning : S2tte.view level e with
    | unassigned _ => cases notUnassigned.symm.trans (S2tte.isUnassigned_of_view meaning).1
    | assigned _ _ => cases notAssigned.symm.trans (S2tte.isAssigned_of_view meaning).1
    | ram base => exact ⟨base, rfl⟩
    | _ =>
      rw [meaning] at fits
      exact fits.elim
  obtain ⟨own, _, low, high, desc⟩ := S2tte.mapped_of_view ram
  obtain rfl | rfl : ripas = 0 ∨ ripas = 1 := by omega
  · rw [Rtt.ripasStep_zero] at written
    rw [Rtt.ripasTlbi, if_pos (by decide)]
    simp only [S2tte.isUnassignedEmpty, S2tte.isUnassignedDestroyed, S2tte.isAssignedDestroyed, notUnassigned, notAssigned,
      Bool.false_and, Bool.or_self, Bool.false_eq_true, if_false] at written ⊢
    by_cases mapped : S2tte.isAssignedRam e level = true
    · rw [if_pos mapped]
      refine .of_flushes (.inl rfl) fun forgotten => ?_
      rcases forgotten with ⟨_, host, _⟩ | ⟨above, _⟩
      · exact ((S2tte.isAssignedNs_iff _ _).mp host).1 own
      · change level = 1 at above
        rw [S2tte.isAssignedRam_iff] at mapped
        omega
    · rw [if_neg mapped] at written ⊢
      cases written
      obtain ⟨rfl, block⟩ : level = 1 ∧ S2tte.descNum e = 1 := by
        rw [S2tte.isAssignedRam_iff] at mapped
        omega
      have new : 0#64 ≠ e := by
        rintro rfl
        exact absurd block (by decide)
      refine iff_of_false (fun flushes => ?_) fun known => known (.inr ⟨rfl, block⟩)
      rcases flushes ⟨.inr ⟨block, .inl rfl⟩, new⟩ with other | other
      · cases other
      · cases other
  · rw [Rtt.ripasStep_one] at written
    simp only [S2tte.isUnassignedEmpty, S2tte.isUnassignedDestroyed, S2tte.isAssignedEmpty, S2tte.isAssignedDestroyed,
      notUnassigned, notAssigned, Bool.false_and, Bool.false_eq_true, if_false] at written
    cases written

theorem wp_setRipasLoop (fuel addr : Nat) (inv : s.core.Inv) (realm : s.core.realm? a = some rd)
    (low : 1 ≤ level) (high : level ≤ 3) (inside : top ≤ rd.parSize) (known : ripas ≤ 1)
    (aligned : addr % 2 ^ (39 - 9 * level) = 0) (topAligned : top % 2 ^ (39 - 9 * level) = 0)
    (tableAligned : tableTop % 2 ^ (39 - 9 * level) = 0) (within : addr ≤ tableTop)
    (enough : tableTop < addr + 2 ^ (39 - 9 * level) * fuel)
    (asked : ∀ {g}, addr ≤ g * 4096 → g * 4096 < top → Authorized c₀ cmd a g (some ripas))
    (same : ¬(addr < tableTop ∧ addr < top ∧ RoundReady s.core a level ripas flags addr) → ok addr s)
    (later : ∀ out t, addr < out → out ≤ top → Kept c₀ cmd s t → TablesOnly s.core t.core →
      LeavesKept s.core t.core a addr out → RoundsMade s.core t.core a level ripas flags addr out → ok out t) :
    wp (Rtt.setRipasLoop rd level (2 ^ (39 - 9 * level)) tableTop top ripas flags fuel addr) ok err' s := by
  have positive : 0 < 2 ^ (39 - 9 * level) := Nat.pow_pos (by omega)
  induction fuel generalizing s addr with
  | zero => omega
  | succ fuel ih =>
    have shape := inv.realms.shape realm
    unfold Rtt.setRipasLoop
    refine wp_if (fun more => ?_) fun done => same fun ready => done ⟨ready.1, ready.2.1⟩
    have half : rd.parSize ≤ rd.ipaSize := Nat.div_le_self _ _
    -- both ends are aligned, so the whole block is below them
    obtain ⟨aligned', whole⟩ := next_aligned aligned topAligned more.2
    have within' := (next_aligned aligned tableAligned more.1).2
    have enough' : tableTop < addr + 2 ^ (39 - 9 * level) + 2 ^ (39 - 9 * level) * fuel := by
      rw [Nat.mul_succ] at enough
      omega
    have rest : ∀ {g}, addr + 2 ^ (39 - 9 * level) ≤ g * 4096 → g * 4096 < top →
        Authorized c₀ cmd a g (some ripas) := fun low high => asked (by omega) high
    rw [wp_bind]
    refine wp_getS2tte realm inv (Nat.le_refl 3) (by omega) fun slot last found reached => ?_
    dsimp only
    have shallow : rd.s2StartingLevel ≤ 3 := by have := shape.level_le; omega
    have found := reached.leaf_page rfl shallow
    refine wp_if (fun other => same ?_) fun here => ?_
    · rintro ⟨_, _, _, _, ready, _⟩
      exact other (ready.unique found).1
    obtain rfl : level = last := Classical.not_not.mp here
    rw [wp_bind]
    refine wp_addrAsBlock low high ?_
    have plain := reached.leaf rfl shallow
    have leaf := reached.leafAt plain
    obtain ⟨_, place⟩ := reached.there
    have entry : pte s.core slot = s.core.forest.read slot.table slot.index := rfl
    have unique : ∀ {g l e}, addr ≤ g * 4096 → g * 4096 < addr + 2 ^ (39 - 9 * level) → s.core.forest.Leaf 3 a g l e →
        l = level ∧ e = pte s.core slot := fun lower upper found =>
      found.unique (reached.leaf_of_block shallow aligned lower upper)
    split
    · rename_i new written
      have move : Move c₀ cmd s.core _ := .setRipas low high leaf realm (reached.inside shape (by omega)) (by omega)
        written fun below => by
          obtain ⟨lower, upper⟩ := block_bounds high aligned (below.trans reached.below.symm)
          exact asked lower (by omega)
      have fits := (Rd.fits_at _).mp (inv.tables.pages realm ⟨_, _, found, rfl⟩)
      rw [Rd.Fits, if_pos (by unfold Rd.inPar; omega)] at fits
      have sound : PteSet.Sound ⟨rd.id, _, _, _, _⟩ := ripasTlbi_sound known fits written
      have kept : Kept c₀ cmd s { s with core := _, stores := _ :: s.stores } :=
        ⟨.single move, legal_store rfl sound, .refl _⟩
      have only := @tablesOnly_storePte _ s.core slot.table slot.index new (inv.tables.tables place).2
      have replaced := reached.replaced (v := new) inv plain aligned
      have retyped := Rtt.retyped_of_ripasStep low high (by omega) written
      have leaves := replaced.kept
      have made : RoundsMade s.core (storePte slot new s.core) a level ripas flags addr (addr + 2 ^ (39 - 9 * level)) := by
        intro g l e lower upper found
        obtain ⟨rfl, rfl⟩ := unique lower upper found
        exact ⟨rfl, new, replaced.leaf_after high aligned retyped.isTable lower upper, .inl written⟩
      rw [wp_bind]
      refine wp_setAt realm inv high (by omega) place ?_
      rw [← reached.index]
      refine ih (s := { s with core := _, stores := _ }) (addr + 2 ^ (39 - 9 * level)) (move.inv inv) ?_ aligned' within' enough' rest
        (fun _ => later _ _ (by omega) whole kept only leaves made)
        fun out t greater below more others rest rounds => later out t (by omega) below (kept.trans more)
          (only.trans others) (leaves.trans rest (by omega) (by omega)) (made.trans rounds leaves rest)
      refine (realm?_setContent ?_ a).trans realm
      rw [(inv.tables.tables place).2]
      simp
    · rename_i skips
      have made : RoundsMade s.core s.core a level ripas flags addr (addr + 2 ^ (39 - 9 * level)) := by
        intro g l e lower upper found
        obtain ⟨rfl, rfl⟩ := unique lower upper found
        exact ⟨rfl, _, found, .inr ⟨skips, rfl⟩⟩
      exact ih (addr + 2 ^ (39 - 9 * level)) inv realm aligned' within' enough' rest
        (fun _ => later _ _ (by omega) whole (.of_eq rfl rfl rfl) ⟨rfl, fun _ _ => rfl⟩ (.refl _ _ _) made)
        fun out t greater below more others rest rounds => later out t (by omega) below more others
          ((LeavesKept.refl _ _ _).trans rest (by omega) (by omega)) (made.trans rounds (.refl _ _ _) rest)
    · rename_i stops
      refine same ?_
      rintro ⟨_, _, e, e', ready, round⟩
      rw [(ready.unique found).2] at round
      rcases round with written | ⟨skips, _⟩
      · cases stops.symm.trans written
      · cases stops.symm.trans skips
    · rename_i unreachable
      exact absurd unreachable (Rtt.ripasStep_reachable known)

/-- RTT_SET_RIPAS comes to an entry of level 0, which is none that it can give an address. -/
def RipasAtRoot (c : Core) (a base top : Nat) : Prop :=
  (∃ e, c.forest.Leaf 3 a (base / 4096) 0 e) ∧ base % 2 ^ 39 = 0 ∧ top % 2 ^ 39 = 0 ∧ base < top

/-- `set_ripas` gets past the first entry. -/
def RipasReady (c : Core) (a base top ripas : Nat) (flags : Word) : Prop :=
  ∃ level, 1 ≤ level ∧ base % 2 ^ (39 - 9 * level) = 0 ∧ top % 2 ^ (39 - 9 * level) = 0 ∧ base < top ∧
    RoundReady c a level ripas flags base

theorem wp_setRipas {base : Nat} (inv : s.core.Inv) (realm : s.core.realm? a = some rd)
    (inPar : base < rd.parSize) (inside : top ≤ rd.parSize) (known : ripas ≤ 1)
    (asked : ∀ {g}, base ≤ g * 4096 → g * 4096 < top → Authorized c₀ cmd a g (some ripas))
    (panics : RipasAtRoot s.core a base top → err' .panic s)
    (bad : ¬RipasAtRoot s.core a base top → ¬RipasReady s.core a base top ripas flags → ∀ e, err' (.error e) s)
    (later : ∀ out t, ¬RipasAtRoot s.core a base top → base < out → out ≤ top → Kept c₀ cmd s t →
      TablesOnly s.core t.core → LeavesKept s.core t.core a base out →
      (∃ level, 1 ≤ level ∧ level ≤ 3 ∧ RoundsMade s.core t.core a level ripas flags base out) → ok out t) :
    wp (Rtt.setRipas rd base top ripas flags) ok err' s := by
  have half : rd.parSize ≤ rd.ipaSize := Nat.div_le_self _ _
  have shape := inv.realms.shape realm
  have shallow : rd.s2StartingLevel ≤ 3 := by have := shape.level_le; omega
  unfold Rtt.setRipas
  rw [wp_bind]
  refine wp_getS2tte realm inv (Nat.le_refl 3) (by omega) fun slot level found reached => ?_
  have leaf := reached.leaf_page rfl shallow
  have atRoot : RipasAtRoot s.core a base top → level = 0 := fun ⟨⟨_, root⟩, _⟩ => (leaf.unique root).1
  have ready : ∀ {l}, RoundReady s.core a l ripas flags base → l = level := fun ⟨_, _, found, _⟩ => (found.unique leaf).1
  dsimp only
  rw [wp_bind]
  refine wp_mappingSize reached.high ?_
  rw [wp_bind]
  refine wp_errIf (fun unaligned => bad (fun root => ?_) (fun ⟨l, _, aligned, _, _, round⟩ => ?_) _) fun aligned => ?_
  · rw [atRoot root] at unaligned
    exact unaligned (alignedTo_eq.mpr root.2.1)
  · rw [ready round] at aligned
    exact unaligned (alignedTo_eq.mpr aligned)
  rw [wp_bind]
  refine wp_errIf (fun unaligned => bad (fun root => ?_) (fun ⟨l, _, _, aligned, _, round⟩ => ?_) _)
    fun topAligned => ?_
  · rw [atRoot root] at unaligned
    exact unaligned (alignedTo_eq.mpr root.2.2.1)
  · rw [ready round] at aligned
    exact unaligned (alignedTo_eq.mpr aligned)
  replace aligned := alignedTo_eq.mp (Classical.not_not.mp aligned)
  replace topAligned := alignedTo_eq.mp (Classical.not_not.mp topAligned)
  rw [wp_bind]
  refine wp_levelSpaceSize realm inv reached.high fun size space => ?_
  obtain ⟨above, tableAligned⟩ := tableTop_spec base shape reached.high space
  generalize Rtt.alignedTo base size + size = tableTop at above tableAligned ⊢
  rw [wp_bind]
  rcases Nat.eq_zero_or_pos level with rfl | low
  · -- the first round needs the address of an entry of level 0
    unfold Rtt.setRipasLoop
    refine wp_if (fun more => ?_) fun done => ?_
    · rw [wp_bind]
      refine wp_getS2tte realm inv (Nat.le_refl 3) (by omega) fun slot' last found' _ => ?_
      cases found.symm.trans found'
      dsimp only
      rw [if_neg (fun differs => differs rfl), wp_bind]
      exact panics ⟨⟨_, leaf⟩, aligned, topAligned, more.2⟩
    · rw [wp_pure, if_neg (Nat.lt_irrefl base)]
      exact bad (fun root => done ⟨above, root.2.2.2⟩) (fun ⟨_, _, _, _, less, _⟩ => done ⟨above, less⟩) _
  · have notRoot : ¬RipasAtRoot s.core a base top := fun root => by have := atRoot root; omega
    refine wp_setRipasLoop _ base inv realm low reached.high inside known aligned topAligned tableAligned
      (Nat.le_of_lt above) ?_ asked ?_ ?_
    · have part := Nat.mod_lt (tableTop - base) (Nat.two_pow_pos (39 - 9 * level))
      have split := Nat.div_add_mod (tableTop - base) (2 ^ (39 - 9 * level))
      rw [Nat.mul_succ]
      omega
    · intro stuck
      rw [if_neg (Nat.lt_irrefl base)]
      refine bad notRoot (fun ⟨l, _, _, _, less, round⟩ => ?_) _
      rw [ready round] at round
      exact stuck ⟨above, less, round⟩
    · intro out t greater below kept only leaves rounds
      rw [if_pos greater]
      exact later out t notRoot greater below kept only leaves ⟨level, low, reached.high, rounds⟩

/-- RTT_SET_RIPAS has moved the cursor of the REC from `base` to `out`, and has changed no entry outside of that. -/
structure RipasSet (c : Core) (a recAddr base top out : Nat) (t : Machine) : Prop where
  start : (c.mem recAddr).asRec.ripas.addr = base
  grows : base < out
  within : out ≤ top
  result : t.ret 1 = out
  cursor : (t.core.mem recAddr).asRec =
    { (c.mem recAddr).asRec with ripas := { (c.mem recAddr).asRec.ripas with addr := out } }
  leaves : LeavesKept c t.core a base out

/-- The handler of RTT_SET_RIPAS accepts its arguments, and goes on to `set_ripas`. -/
structure RipasAccepted (c : Core) (a recAddr base top : Nat) : Prop where
  other : a ≠ recAddr
  isRec : validateAddr recAddr = true ∧ c.stateOf recAddr = .recCtx
  realm : ∃ rd, c.realm? a = some rd ∧
    (∃ o, (c.mem recAddr).asRec.owner = some o ∧ (c.mem o).asRd.vmid = rd.id) ∧
    rd.addrInPar base = true ∧ rd.addrInPar (top - granuleSize) = true
  cursor : (c.mem recAddr).asRec.ripas.addr = base ∧ top ≤ (c.mem recAddr).asRec.ripas.endAddr
  aligned : isGranuleAligned base = true ∧ isGranuleAligned top = true ∧ granuleSize ≤ top

theorem RipasAccepted.within {c : Core} {recAddr base : Nat} (accepted : RipasAccepted c a recAddr base top)
    (realm : c.realm? a = some rd) (shape : rd.Shape) : top ≤ rd.parSize := by
  obtain ⟨rd', realm', _, _, topIn⟩ := accepted.realm
  cases realm.symm.trans realm'
  have whole := parSize_aligned shape
  have topIn : top - 4096 < rd.parSize := by simpa [Rd.addrInPar] using topIn
  have topAligned : top % 4096 = 0 := by simpa [isGranuleAligned] using accepted.aligned.2.1
  omega

/-- How RTT_SET_RIPAS ends if it does not succeed: with an error, unless it comes to an entry of level 0. -/
def RipasStops (c : Core) (a recAddr base top : Nat) (halt : Halt) (t : Machine) : Prop :=
  match halt with
  | .error _ => t.core = c ∧ (RipasAccepted c a recAddr base top → ¬RipasAtRoot c a base top)
  | .panic => RipasAtRoot c a base top
  | _ => False

/-- What is enough for RTT_SET_RIPAS to succeed. -/
def ReadyForRipas (c : Core) (a recAddr base top : Nat) : Prop :=
  RipasAccepted c a recAddr base top ∧
    RipasReady c a base top (c.mem recAddr).asRec.ripas.state (c.mem recAddr).asRec.ripas.flags

theorem rttSetRipas_spec (rdW recW baseW topW : Word) {recAddr base : Nat} (inv : s.core.Inv) (idle : s.held = [])
    (rdEq : rdW.toNat = a) (recEq : recW.toNat = recAddr) (command : cmd = .rttSetRipas rdW recW baseW topW) :
    wp (Rmi.rttSetRipas a recAddr base top)
      (fun _ t => Kept s.core cmd s t ∧ RipasAccepted s.core a recAddr base top ∧
        ∃ out, RipasSet s.core a recAddr base top out t ∧ ¬RipasAtRoot s.core a base top ∧
          ∃ level, 1 ≤ level ∧ level ≤ 3 ∧ RoundsMade s.core t.core a level (s.core.mem recAddr).asRec.ripas.state
            (s.core.mem recAddr).asRec.ripas.flags base out)
      (fun halt t => Stops s.core cmd s (ReadyForRipas s.core a recAddr base top) halt t ∧
        RipasStops s.core a recAddr base top halt t) s := by
  have early : ∀ {t : Machine} {e : Error}, t.core = s.core → t.trace = s.trace → t.pageTable = s.pageTable →
      ¬RipasAccepted s.core a recAddr base top →
      Stops s.core cmd s (ReadyForRipas s.core a recAddr base top) (.error e) t ∧
        RipasStops s.core a recAddr base top (.error e) t :=
    fun core trace pageTable refused =>
      ⟨Kept.error (.of_eq core trace pageTable) fun ready => refused ready.1, core, fun accepted => absurd accepted refused⟩
  unfold Rmi.rttSetRipas
  rw [wp_bind]
  refine wp_errIf (fun same => early rfl rfl rfl fun accepted => absurd same accepted.other) fun other => ?_
  refine wp_lockRd (fun missing _ => early rfl rfl rfl fun accepted => ?_) (fun _ held => not_stuck idle held)
    fun rd realm _ => ?_
  · obtain ⟨rd, realm, _⟩ := accepted.realm
    cases missing.symm.trans realm
  obtain ⟨validA, stateA, _⟩ := Core.realm?_eq_some.mp realm
  have shape := inv.realms.shape realm
  rw [wp_bind]
  refine wp_getGranuleIf (fun bad _ => early rfl rfl rfl fun accepted => absurd accepted.isRec bad)
    (fun valid held => absurd held ?_) fun valid state _ => ?_
  · simp only [idle]
    exact free_of_ne validA valid (Ne.symm other)
  have ok := inv.recs recAddr valid state
  obtain ⟨o, owner, _⟩ := ok.owner
  rw [wp_bind, wp_contentRec, indexToAddr_granuleAddrToIndex valid, wp_bind]
  simp only
  generalize rEq : (s.core.mem recAddr).asRec = r at ok owner ⊢
  refine wp_recRealmid owner ?_
  rw [wp_bind]
  refine wp_errIf (fun foreign => early rfl rfl rfl fun accepted => ?_) fun mine => ?_
  · obtain ⟨rd', realm', ⟨o', owner', mine⟩, _⟩ := accepted.realm
    cases realm.symm.trans realm'
    rw [rEq] at owner'
    cases owner.symm.trans owner'
    exact absurd mine foreign
  rw [wp_bind]
  refine wp_errIf (fun bad => early rfl rfl rfl fun accepted => ?_) fun asked => ?_
  · have cursor := accepted.cursor
    rw [rEq] at cursor
    exact absurd cursor (by omega)
  rw [wp_bind]
  refine wp_errIf (fun bad => early rfl rfl rfl fun accepted => ?_) fun accepted => ?_
  · obtain ⟨rd', realm', _, baseIn, topIn⟩ := accepted.realm
    cases realm.symm.trans realm'
    obtain ⟨baseAligned, topAligned, low⟩ := accepted.aligned
    simp only [baseAligned, topAligned, baseIn, topIn, Bool.not_true, Bool.false_eq_true, false_or, or_false] at bad
    omega
  simp only [not_or, ne_eq, Classical.not_not, Nat.not_lt, Bool.not_eq_true', Bool.not_eq_false] at asked accepted
  obtain ⟨baseAligned, topAligned, baseIn, low, topIn⟩ := accepted
  have accepts : RipasAccepted s.core a recAddr base top :=
    ⟨other, ⟨valid, state⟩, ⟨rd, realm, ⟨o, by rw [rEq]; exact owner, Classical.not_not.mp mine⟩, baseIn, topIn⟩,
      by rw [rEq]; exact asked, baseAligned, topAligned, low⟩
  have within := accepts.within realm shape
  have baseIn : base < rd.parSize := by simpa [Rd.addrInPar] using baseIn
  have authorized : ∀ {g}, base ≤ g * 4096 → g * 4096 < top →
      Authorized s.core cmd a g (some r.ripas.state) := by
    intro g lower upper
    rw [command, Authorized, rdEq, recEq, rEq]
    exact ⟨rfl, by omega, by omega, rfl⟩
  have answers : AnswersRipas cmd recAddr := by
    rw [command]
    exact recEq
  rw [wp_bind]
  refine wp_setRipas inv realm baseIn within ok.ripas authorized ?_ ?_ ?_
  · intro root
    refine ⟨Kept.panic (.of_eq rfl rfl rfl) ?_, root⟩
    rintro ⟨_, l, low, _, _, _, _, _, leaf, _⟩
    obtain ⟨_, atRoot⟩ := root.1
    have := (leaf.unique atRoot).1
    omega
  · intro notRoot stuck e
    refine ⟨Kept.error (.of_eq rfl rfl rfl) fun ready => stuck ?_, rfl, fun _ => notRoot⟩
    have ready := ready.2
    rwa [rEq] at ready
  · rintro out t notRoot greater below kept only leaves ⟨level, lowest, highest, rounds⟩
    rw [wp_bind, wp_setRet, wp_setRec, indexToAddr_granuleAddrToIndex valid]
    have mem : (t.core.mem recAddr).asRec = r := by
      rw [only.mem recAddr (by simp [state]), rEq]
    have stateT : t.core.stateOf recAddr = .recCtx := by
      rw [Core.stateOf, Core.granule, only.granules]
      exact state
    subst mem
    have move : Move s.core cmd t.core _ :=
      .setRec valid stateT (.progress out answers (by omega) (by omega)) ⟨rfl, rfl, rfl, id⟩
    have tables : ∀ content, SameForest t.core (t.core.setContent recAddr content) := fun _ =>
      (sameOwners_setContent (by simp [stateT]) (by simp [stateT])).sameForest
        (kept.moves.inv inv).tables
    refine ⟨⟨kept.moves.tail move, kept.legal.trans (.of_eq rfl), kept.pageTable⟩, accepts, out,
      ⟨?_, greater, below, rfl, ?_, leaves.of_sameForest (tables _)⟩, notRoot, level, lowest, highest,
      rounds.of_sameForest (tables _)⟩
    · rw [rEq]
      exact asked.1
    · rw [rEq]
      exact congrArg Content.asRec (Core.mem_setContent_same _)

end Set

end Islet.Rmm
