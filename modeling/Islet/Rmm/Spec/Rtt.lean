import Islet.Rmm.Spec.Data

/-! The commands that make and destroy tables, and the commands on single entries. -/

namespace Islet.Rmm

open Lib Prog Bits Rmi Stage2Translation

variable [Platform] {cmd : Command} {s : Machine} {α : Type} {ok : α → Machine → Prop}
  {err' : Halt → Machine → Prop} {a : Nat} {rd : Rd}

/-! ### RTT_CREATE -/

section RttCreate

variable {ipa rtt level : Nat}

/-- What is enough for RTT_CREATE to succeed: an unassigned entry to split. -/
def ReadyToSplit (c : Core) (a rtt ipa level : Nat) : Prop :=
  ∃ rd, c.realm? a = some rd ∧ isValidTableCmd rd ipa level = true ∧
    (validateAddr rtt = true ∧ c.stateOf rtt = .delegated) ∧
    ∃ e, c.forest.entry a (level - 1) (ipa / 4096 / 512 ^ (3 - (level - 1))) = some e ∧
      S2tte.isUnassigned e = true

/-- What is enough in general: an entry that `create` knows how to split. -/
def Splittable (c : Core) (a rtt ipa level : Nat) : Prop :=
  ∃ rd, c.realm? a = some rd ∧ isValidTableCmd rd ipa level = true ∧
    (validateAddr rtt = true ∧ c.stateOf rtt = .delegated) ∧
    ∃ e, c.forest.entry a (level - 1) (ipa / 4096 / 512 ^ (3 - (level - 1))) = some e ∧
      S2tte.isTable e (level - 1) = false ∧ Rtt.splitOf e level (2 ^ (39 - 9 * level)) ≠ none

/-- RTT_CREATE has split the entry that covers `ipa` in the level above. -/
def HasSplit (c c' : Core) (a rtt ipa level : Nat) : Prop :=
  ∃ b page, Split c a (level - 1) (ipa / 4096 / 512 ^ (3 - (level - 1)) / 512) b
      (ipa / 4096 / 512 ^ (3 - (level - 1)) % 512) rtt page ∧
    c' = splitCore c b (ipa / 4096 / 512 ^ (3 - (level - 1)) % 512) rtt page

omit [Platform] in
theorem splitOf_unassigned {e : Word} {mapSize : Nat} (unassigned : S2tte.isUnassigned e = true) :
    Rtt.splitOf e level mapSize ≠ none := by
  have noDesc : S2tte.isInvalidRipas e = false := by
    rw [← Bool.not_eq_true, S2tte.isInvalidRipas_iff]
    exact fun both => both.1 ((S2tte.isUnassigned_iff _).mp unassigned).1
  unfold Rtt.splitOf
  simp [unassigned, noDesc]

theorem ReadyToSplit.splittable {c : Core} (ready : ReadyToSplit c a rtt ipa level) : Splittable c a rtt ipa level := by
  obtain ⟨rd, realm, accepted, fresh, e, entry, unassigned⟩ := ready
  exact ⟨rd, realm, accepted, fresh, e, entry, isTable_of_unassigned unassigned, splitOf_unassigned unassigned⟩

/-- The table that RTT_CREATE has put in the place of an entry, in terms of what `create` computes from that entry. -/
structure SplitInto (c c' : Core) (a ipa level : Nat) (parent flags pa : Word) (step : Nat) : Prop where
  low : 1 ≤ level
  high : level ≤ 3
  aligned : ipa % 2 ^ (39 - 9 * (level - 1)) = 0
  before : c.forest.entry a (level - 1) (ipa / 4096 / 512 ^ (3 - (level - 1))) = some parent
  leaf : S2tte.isTable parent (level - 1) = false
  split : Rtt.splitOf parent level (2 ^ (39 - 9 * level)) = some (flags, pa, step)
  after : ∀ j < 512, c'.forest.entry a level (ipa / 4096 / 512 ^ (3 - (level - 1)) * 512 + j) =
    some (Rtt.tablePage flags pa step j)
  kept : LeavesKept c c' a ipa (ipa + 2 ^ (39 - 9 * (level - 1)))

/-- The entry above `ipa` is a leaf that RTT_CREATE does not know how to split. -/
def Unsplittable (c : Core) (a ipa level : Nat) : Prop :=
  1 ≤ level ∧ level ≤ 3 ∧ ∃ e mapSize,
    c.forest.entry a (level - 1) (ipa / 4096 / 512 ^ (3 - (level - 1))) = some e ∧
      S2tte.isTable e (level - 1) = false ∧ Rtt.splitOf e level mapSize = none

omit [Platform] in
/-- A block of RAM that becomes a table is flushed, and a block of the host is forgotten. -/
theorem splitTlbi_sound {parent : Word} {l mapSize : Nat} {cut : Word × Word × Nat} (inner : l < 3)
    (valid : validateAddr rtt = true) (split : Rtt.splitOf parent (l + 1) mapSize = some cut) :
    PteSet.Sound ⟨rd.id, l, parent, Rtt.tableDesc rtt, Rtt.splitTlbi rd parent (l + 1)⟩ := by
  by_cases invalid : S2tte.descNum parent = 0
  · exact .of_invalid invalid
  have notUnassigned : S2tte.isUnassigned parent = false := by
    rw [← Bool.not_eq_true, S2tte.isUnassigned_iff]
    exact fun unassigned => invalid unassigned.1
  have notAssigned : S2tte.isAssigned parent = false := by
    rw [← Bool.not_eq_true, S2tte.isAssigned_iff]
    exact fun assigned => invalid assigned.1
  have notVacant : S2tte.isUnassignedNs parent = false := by
    rw [← Bool.not_eq_true, S2tte.isUnassignedNs_iff]
    exact fun vacant => invalid vacant.1
  unfold Rtt.splitTlbi
  simp only [Rtt.splitOf, notUnassigned, notAssigned, notVacant, Nat.add_sub_cancel, Bool.false_eq_true, if_false,
    Bool.or_self] at split ⊢
  by_cases ram : S2tte.isAssignedRam parent l = true
  · rw [if_pos ram]
    refine .of_flushes (.inl rfl) fun forgotten => ?_
    obtain ⟨own, desc⟩ := (S2tte.isAssignedRam_iff _ _).mp ram
    rcases forgotten with ⟨_, mapped, _⟩ | ⟨level, _⟩
    · exact ((S2tte.isAssignedNs_iff _ _).mp mapped).1 own
    · change l = 1 at level
      omega
  · rw [if_neg ram] at split ⊢
    by_cases mapped : S2tte.isAssignedNs parent l = true
    · obtain ⟨_, desc⟩ := (S2tte.isAssignedNs_iff _ _).mp mapped
      obtain ⟨rfl, block⟩ : l = 2 ∧ S2tte.descNum parent = 1 := by omega
      have address := validateAddr_iff.mp valid
      have table : S2tte.isTable (Rtt.tableDesc rtt) 2 = true :=
        (S2tte.isTable_of_view (Rtt.view_tableDesc (by omega) (by omega) inner)).1
      have new : Rtt.tableDesc rtt ≠ parent := by
        intro same
        rw [same, S2tte.isTable_iff] at table
        omega
      refine iff_of_false (fun flushes => ?_) fun known => known (.inl ⟨rfl, mapped, table⟩)
      rcases flushes ⟨.inr ⟨block, .inr rfl⟩, new⟩ with other | other
      · exact nomatch other
      · exact nomatch other
    · rw [if_neg mapped] at split
      exact nomatch split

theorem rttCreate_spec (cmd : Command) (inv : s.core.Inv) (idle : s.held = []) :
    wp (Rmi.rttCreate a rtt ipa level)
      (fun _ t => HasSplit s.core t.core a rtt ipa level ∧ Kept s.core cmd s t ∧
        ∃ parent flags pa step, SplitInto s.core t.core a ipa level parent flags pa step ∧
          s.StoresPte t (level - 1) parent (Rtt.tableDesc rtt))
      (fun halt t => Stops s.core cmd s (Splittable s.core a rtt ipa level) halt t ∧
        (halt = .panic → Unsplittable s.core a ipa level)) s := by
  have early : ∀ {t : Machine} {e : Error}, Kept s.core cmd s t → ¬Splittable s.core a rtt ipa level →
      Stops s.core cmd s (Splittable s.core a rtt ipa level) (.error e) t ∧
        (Halt.error e = .panic → Unsplittable s.core a ipa level) :=
    fun kept notReady => ⟨kept.error notReady, nofun⟩
  unfold Rmi.rttCreate
  refine wp_lockRd (fun none _ => early (.of_eq rfl rfl rfl) ?_) (fun _ held => not_stuck idle held)
    fun rd realm _ => ?_
  · rintro ⟨rd, realm, _⟩
    rw [none] at realm
    exact nomatch realm
  obtain ⟨validA, stateA, _⟩ := Core.realm?_eq_some.mp realm
  have shape := inv.realms.shape realm
  rw [wp_bind]
  refine wp_errIf (fun bad => early (.of_eq rfl rfl rfl) ?_) fun accepted => ?_
  · rintro ⟨rd', realm', accepted, _⟩
    cases realm.symm.trans realm'
    simp [accepted] at bad
  obtain ⟨low, high, inside, aligned⟩ := isValidTableCmd_spec shape (by simpa using accepted)
  obtain ⟨l, rfl⟩ : ∃ l, level = l + 1 := ⟨level - 1, by omega⟩
  rw [wp_bind]
  refine wp_errIf (fun same => early (.of_eq rfl rfl rfl) ?_) fun other => ?_
  · rintro ⟨_, _, _, ⟨_, fresh⟩, _⟩
    rw [same, stateA] at fresh
    exact nomatch fresh
  rw [wp_bind]
  refine wp_getGranuleIf (fun bad _ => early (.of_eq rfl rfl rfl) ?_) (fun valid held => absurd held ?_)
    fun valid state _ => ?_
  · rintro ⟨_, _, _, fresh, _⟩
    exact bad fresh
  · simp only [idle]
    exact free_of_ne validA valid other
  rw [wp_bind]
  refine wp_mapSecure valid fun pt safe => ?_
  have kept : ∀ {t : Machine}, t.core = s.core → t.trace = s.trace → t.pageTable = pt →
      Kept s.core cmd s t := by
    intro t core trace pageTable
    exact ⟨by rw [core], .of_eq trace, by rw [pageTable]; exact safe⟩
  unfold Rtt.create
  simp only [wp_bind, Nat.add_sub_cancel]
  refine wp_getS2tte realm inv (by omega) inside fun slot last found reached => ?_
  dsimp only
  rw [wp_bind]
  refine wp_errIf (fun bad => early (kept rfl rfl rfl) ?_) fun here => ?_
  · rintro ⟨_, _, _, _, e, entry, leaf, _⟩
    obtain ⟨level, same⟩ := reached.at_entry (by omega) (by omega) entry
    rcases bad with above | table
    · exact above level
    · rw [same, level] at table
      exact nomatch leaf.symm.trans table
  simp only [ne_eq, not_or, Classical.not_not, Bool.not_eq_true] at here
  obtain ⟨rfl, leaf⟩ := here
  have leafAt := reached.leafAt leaf
  obtain ⟨b, i⟩ := slot
  obtain rfl : i = ipa / 4096 / 512 ^ (3 - last) % 512 := reached.index
  rw [wp_bind]
  refine wp_mappingSize (by omega) ?_
  rw [wp_bind]
  refine wp_orPanic (fun none => ⟨Kept.panic (kept rfl rfl rfl) ?_, fun _ => ?_⟩) fun cut split => ?_
  · rintro ⟨_, _, _, _, e, entry, _, known⟩
    rw [Nat.add_sub_cancel, reached.entry] at entry
    cases entry
    exact known none
  · exact ⟨by omega, by omega, _, _, by rw [Nat.add_sub_cancel, reached.entry], leaf, none⟩
  obtain ⟨flags, pa, step⟩ := cut
  unfold Rtt.createPgtblAt
  dsimp only
  rw [wp_bind, wp_bind]
  have address := validateAddr_iff.mp valid
  refine wp_errIf (fun zero => absurd zero (by omega)) fun _ => ?_
  rw [wp_setPage]
  have done : Split s.core a last (ipa / 4096 / 512 ^ (3 - last) / 512) b
      (ipa / 4096 / 512 ^ (3 - last) % 512) rtt (Rtt.tablePage flags pa step) := by
    refine ⟨leafAt, by omega, valid, state, fun j index => ?_⟩
    exact Rtt.view_tablePage (by omega) high split index
  have notRd : s.core.stateOf rtt ≠ .rd := by rw [state]; exact nofun
  have filled : (s.core.setContent rtt (.raw (Rtt.tablePage flags pa step))).Inv :=
    inv.setContent notRd (by rw [state]; exact nofun) (by rw [state]; exact nofun)
  refine wp_setAt ((realm?_setContent notRd a).trans realm) filled (by omega) inside (done.place inv) ?_
  have apart : b ≠ rtt := fun same => done.freshTable inv a last _ (same ▸ done.place inv)
  have old := @read_setContent_of_ne _ s.core _ _ (.raw (Rtt.tablePage flags pa step)) apart
    (ipa / 4096 / 512 ^ (3 - last) % 512)
  have number : ipa / 4096 / 512 ^ (3 - last) / 512 * 512 + ipa / 4096 / 512 ^ (3 - last) % 512 =
      ipa / 4096 / 512 ^ (3 - last) := by omega
  refine ⟨⟨b, _, done, rfl⟩, ⟨.single (.split done), legal_storeState rfl ?_ (.inl ⟨state, nofun⟩), safe⟩, _, flags, pa, step,
    ⟨by omega, high, aligned, reached.entry, leaf, split, fun j below => ?_, ?_⟩, rd.id,
    Rtt.splitTlbi rd (pte s.core ⟨b, ipa / 4096 / 512 ^ (3 - last) % 512⟩) (last + 1), ?_⟩
  · rw [old]
    exact splitTlbi_sound (by omega) valid split
  · have stored := done.entry_new inv below
    rwa [number] at stored
  · exact ((done.written inv).leavesKept filled (done.place inv) fun below =>
      block_bounds (by omega) aligned (below.trans number)).after_sameForest (done.sameForest inv)
  · exact congrArg (PteSet.mk _ _ · _ _ :: s.stores) old

end RttCreate

/-! ### RTT_DESTROY -/

section RttDestroy

variable {ipa level : Nat}

omit [Platform] in
theorem isTable_of_view_ne {e : Word} {l : Nat} (leaf : (S2tte.view l e).isTable = false) :
    S2tte.isTable e l = false := by
  rw [← Bool.not_eq_true]
  intro table
  rw [S2tte.view_of_isTable table] at leaf
  exact nomatch leaf

omit [Platform] in
/-- The pages below an entry are in the half that the address of the entry is in. -/
theorem half_of_below {l g : Nat} (shape : rd.Shape) (low : rd.s2StartingLevel ≤ l) (high : l ≤ 3)
    (aligned : ipa % 4096 = 0) (same : g / 512 ^ (3 - l) = ipa / 4096 / 512 ^ (3 - l)) :
    rd.inPar g ↔ rd.addrInPar ipa = true := by
  rw [shape.half low high same]
  unfold Rd.inPar Rd.addrInPar
  rw [decide_eq_true_eq, Nat.div_mul_cancel (Nat.dvd_of_mod_eq_zero aligned)]

omit [Platform] in
/-- What aligned to a level is aligned to pages. -/
theorem page_aligned {l : Nat} (high : l ≤ 3) (aligned : ipa % 2 ^ (39 - 9 * l) = 0) : ipa % 4096 = 0 := by
  have split : 2 ^ (39 - 9 * l) = 2 ^ 12 * 2 ^ (27 - 9 * l) := by
    rw [← Nat.pow_add]
    congr 1
    omega
  rw [split] at aligned
  exact Nat.mod_eq_zero_of_dvd (Dvd.dvd.trans ⟨_, rfl⟩ (Nat.dvd_of_mod_eq_zero aligned))

/-- The table that a table descriptor leads to. -/
theorem Reached.child {c : Core} {g top level last : Nat} {slot : Slot}
    (reached : Reached c a g top level slot last) (table : S2tte.isTable (pte c slot) last = true) :
    c.forest.node a (last + 1) (g / 512 ^ (3 - last) / 512 * 512 + g / 512 ^ (3 - last) % 512) =
      some (S2tte.outAddr (pte c slot) 3) := by
  have index := reached.index
  have offset : slot.index < 512 := by
    rw [index]
    exact Nat.mod_lt _ (by omega)
  rw [← index, Forest.node_child reached.place offset, Core.forest_next]
  exact if_pos table

theorem Reached.rejoin {c : Core} {g top level last : Nat} {slot : Slot}
    (_ : Reached c a g top level slot last) :
    g / 512 ^ (3 - last) / 512 * 512 + g / 512 ^ (3 - last) % 512 = g / 512 ^ (3 - last) :=
  Nat.div_add_mod' _ 512

/-- A destroyed table leaves pages of the RIPAS `destroyed`, or unassigned unprotected ones. -/
theorem Move.destroyTable {c₀ c : Core} {rdW ipaW levelW : Word} {l p i b r q : Nat}
    (command : cmd = .rttDestroy rdW ipaW levelW) (realm : c.realm? a = some rd)
    (half : ∀ {g}, g / 512 ^ (3 - l) = q → (rd.inPar g ↔ rd.addrInPar ipa = true))
    (place : c.forest.node a l p = some b) (index : i < 512) (here : q = p * 512 + i)
    (child : c.forest.node a (l + 1) (p * 512 + i) = some r) :
    Move c₀ cmd c (setStateCore (granuleAddrToIndex r) .delegated
      (storePte ⟨b, i⟩ (Rtt.destroyedDesc (rd.addrInPar ipa)) c)) := by
  subst here
  have view := @Rtt.view_destroyedDesc l (rd.addrInPar ipa)
  refine .dropTable place index child ?_ ?_ ?_ ?_ fun _ => .inl ?_
  · refine isTable_of_view_ne ?_
    rw [view]
    split <;> rfl
  · intro rd' g realm' below
    cases realm.symm.trans realm'
    unfold Rd.Fits
    rw [view]
    simp only [half below]
    split
    · exact Nat.le_refl 2
    · exact trivial
  · intro g pa below backing
    rw [view, backing_at] at backing
    split at backing <;> exact nomatch backing
  · intro rd' g w realm' below page inPar
    cases realm.symm.trans realm'
    subst command
    rw [view, if_pos ((half below).mp inPar)]
    exact .inr (.inr (.inl rfl))
  · rw [view]
    split <;> exact trivial

omit [Platform] in
/-- Of a table that is taken away all translations are flushed. -/
theorem PteSet.Sound.of_table {set : PteSet} (table : S2tte.isTable set.old set.level = true) (flushes : set.Flushes) :
    set.Sound := by
  obtain ⟨_, desc⟩ := (S2tte.isTable_iff _ _).mp table
  refine .of_flushes flushes fun forgotten => ?_
  rcases forgotten with ⟨_, mapped, _⟩ | ⟨_, block⟩
  · rw [S2tte.isAssignedNs_iff] at mapped
    omega
  · omega

theorem rttDestroy_spec (rdW ipaW levelW : Word) (inv : s.core.Inv) (idle : s.held = [])
    (command : cmd = .rttDestroy rdW ipaW levelW) :
    wp (Rmi.rttDestroy a ipa level) (fun _ t => Kept s.core cmd s t) (Stops s.core cmd s False) s := by
  unfold Rmi.rttDestroy
  refine wp_lockRd (fun _ _ => Kept.error (.of_eq rfl rfl rfl) id) (fun _ held => not_stuck idle held)
    fun rd realm _ => ?_
  obtain ⟨validA, stateA, _⟩ := Core.realm?_eq_some.mp realm
  have shape := inv.realms.shape realm
  rw [wp_bind]
  refine wp_errIf (fun _ => Kept.error (.of_eq rfl rfl rfl) id) fun accepted => ?_
  obtain ⟨low, high, inside, aligned⟩ := isValidTableCmd_spec shape (by simpa using accepted)
  obtain ⟨l, rfl⟩ : ∃ l, level = l + 1 := ⟨level - 1, by omega⟩
  simp only [Nat.add_sub_cancel] at aligned
  rw [wp_bind]
  unfold Rtt.destroy
  refine wp_inScope ?_
  rw [wp_bind, Nat.add_sub_cancel]
  refine wp_getS2tte realm inv (by omega) inside fun slot last found reached => ?_
  dsimp only
  refine wp_if (fun _ => ?_) fun here => ?_
  · rw [wp_bind]
    refine (Quiet.skipNonLiveEntries rd ipa last).wp (fun top => ?_)
      fun halt free => Kept.stops (.of_eq rfl rfl rfl) id free
    rw [wp_bind, wp_setRet, wp_err]
    exact Kept.error (.of_eq rfl rfl rfl) id
  simp only [ne_eq, Bool.not_eq_true', not_or, Classical.not_not, Bool.not_eq_false] at here
  obtain ⟨rfl, table⟩ := here
  have child := reached.child table
  obtain ⟨valid, state⟩ := inv.tables.tables child
  have other : S2tte.outAddr (pte s.core slot) 3 ≠ a := by
    intro same
    rw [same, stateA] at state
    cases state
  have aligned' := page_aligned (by omega) aligned
  have half : ∀ {g}, g / 512 ^ (3 - last) = ipa / 4096 / 512 ^ (3 - last) →
      (rd.inPar g ↔ rd.addrInPar ipa = true) := half_of_below shape (by omega) (by omega) aligned'
  obtain ⟨b, i⟩ := slot
  obtain rfl : i = ipa / 4096 / 512 ^ (3 - last) % 512 := reached.index
  have index : ipa / 4096 / 512 ^ (3 - last) % 512 < 512 := Nat.mod_lt _ (by omega)
  simp only [S2tte.rttPageLevel]
  rw [wp_bind]
  refine wp_addrAsBlock (by omega) (by omega) ?_
  rw [S2tte.toNat_blockMask (by omega) (by omega), wp_bind]
  refine wp_getGranuleIf_free valid state ?_ ?_
  · simp only [idle]
    exact free_of_ne validA valid other
  rw [wp_bind]
  refine (Quiet.isLiveRtt rd ipa (last + 1)).wp (fun live => ?_)
    fun halt free => Kept.stops (.of_eq rfl rfl rfl) id free
  refine wp_if (fun _ => ?_) fun _ => ?_
  · rw [wp_bind, wp_setRet, wp_err]
    exact Kept.error (.of_eq rfl rfl rfl) id
  rw [wp_bind]
  refine wp_ipaToPteSet realm inv found ?_
  rw [wp_bind, wp_setGranule]
  have move : Move s.core cmd s.core _ :=
    .destroyTable command realm half reached.place index reached.rejoin.symm child
  have legal := Eq.trans_ne state (show GranuleState.rtt ≠ .delegated by simp)
  have sound : PteSet.Sound ⟨rd.id, last, pte s.core ⟨b, ipa / 4096 / 512 ^ (3 - last) % 512⟩,
      Rtt.destroyedDesc (rd.addrInPar ipa), if rd.addrInPar ipa then .leaf rd.id else .breakdown rd.id⟩ := by
    refine .of_table table ?_
    cases rd.addrInPar ipa
    · exact .inr rfl
    · exact .inl rfl
  rw [wp_bind]
  refine (Quiet.skipNonLiveEntries rd ipa last).wp (fun top => ?_)
    fun halt free => Kept.stops (.single move rfl sound (.inr ⟨legal, rfl⟩) rfl) id free
  rw [wp_pure]
  simp only [wp_bind, wp_setRet]
  exact .single move rfl sound (.inr ⟨legal, rfl⟩) rfl

end RttDestroy

/-! ### Unprotected entries -/

section Unprotected

variable {ipa level : Nat}

/-- The return registers report the entry of level `last` that was found. -/
structure Reports (t : Machine) (last : Nat) (view : Nat × Word × Nat) : Prop where
  level : t.ret 1 = last
  state : t.ret 2 = view.1
  desc : t.ret 3 = view.2.1.toNat
  ripas : t.ret 4 = view.2.2

/-- RTT_READ_ENTRY has found an entry and reported it. -/
structure HasRead (c : Core) (a ipa level : Nat) (t : Machine) : Prop where
  same : t.core = c
  found : ∃ rd slot last view, c.realm? a = some rd ∧ isValidRttCmd rd ipa level = true ∧
    Reached c a (ipa / 4096) rd.s2StartingLevel level slot last ∧ Rtt.entryView (pte c slot) last = some view ∧
    Reports t last view

/-- What is enough for RTT_READ_ENTRY to report the entry of the level asked for. -/
def ReadyToRead (c : Core) (a ipa level : Nat) : Prop :=
  ∃ rd, c.realm? a = some rd ∧ isValidRttCmd rd ipa level = true ∧
    ∃ e, c.forest.entry a level (ipa / 4096 / 512 ^ (3 - level)) = some e ∧ Rtt.entryView e level ≠ none

/-- A walk to a level with an entry for the address stops there. -/
theorem Reached.stands {c : Core} {slot : Slot} {last : Nat} {e : Word} (realm : c.realm? a = some rd)
    (reached : Reached c a (ipa / 4096) rd.s2StartingLevel level slot last) (high : level ≤ 3)
    (entry : c.forest.entry a level (ipa / 4096 / 512 ^ (3 - level)) = some e) :
    last = level ∧ pte c slot = e := by
  obtain ⟨b, place, _⟩ := Forest.node_of_entry entry
  have low := Forest.top_le_of_node place
  rw [Core.forest_top realm] at low
  exact reached.at_entry low high entry

theorem rttReadEntry_spec (cmd : Command) (inv : s.core.Inv) (idle : s.held = []) :
    wp (Rmi.rttReadEntry a ipa level) (fun _ t => Kept s.core cmd s t ∧ HasRead s.core a ipa level t)
      (Stops s.core cmd s (ReadyToRead s.core a ipa level)) s := by
  unfold Rmi.rttReadEntry
  refine wp_lockRd (fun missing _ => Kept.error (.of_eq rfl rfl rfl) fun ⟨_, realm, _⟩ => ?_)
    (fun _ held => not_stuck idle held) fun rd realm _ => ?_
  · exact nomatch missing.symm.trans realm
  have shape := inv.realms.shape realm
  rw [wp_bind]
  refine wp_errIf (fun bad => Kept.error (.of_eq rfl rfl rfl) fun ⟨rd', realm', valid, _⟩ => ?_) fun accepted => ?_
  · cases realm.symm.trans realm'
    simp [valid] at bad
  have accepted : isValidRttCmd rd ipa level = true := by simpa using accepted
  obtain ⟨high, inside, _⟩ := isValidRttCmd_spec shape accepted
  unfold Rtt.readEntry
  rw [wp_bind, wp_bind]
  refine wp_getS2tte realm inv high inside fun slot last found reached => ?_
  dsimp only
  rw [wp_bind]
  refine wp_orPanic (fun unknown => Kept.panic (.of_eq rfl rfl rfl) fun ⟨_, _, _, e, entry, known⟩ => ?_)
    fun view known => ?_
  · obtain ⟨rfl, rfl⟩ := reached.stands realm high entry
    exact known unknown
  obtain ⟨state, desc, ripas⟩ := view
  simp only [wp_bind, wp_pure, wp_setRet]
  exact ⟨.of_eq rfl rfl rfl, rfl, rd, slot, last, _, realm, accepted, reached, known, rfl, rfl, rfl, rfl⟩

omit [Platform] in
theorem View.Unprotected.plain {v : View} (unprotected : v.Unprotected) :
    v.isTable = false ∧ v.backing? = none := by
  cases v with
  | unassigned ripas => exact ⟨rfl, rfl⟩
  | unassignedNs => exact ⟨rfl, rfl⟩
  | ns pa => exact ⟨rfl, rfl⟩
  | table addr => exact unprotected.elim
  | assigned pa ripas => exact unprotected.elim
  | ram pa => exact unprotected.elim
  | malformed => exact unprotected.elim

/-- An entry of the unprotected half may take any view of that half. -/
theorem Move.unprotected {c₀ c : Core} {l p b i : Nat} {v : Word} (here : LeafAt c a l p b i)
    (realm : c.realm? a = some rd) (outside : ∀ {g}, Below l p i g → ¬rd.inPar g)
    (view : (S2tte.view l v).Unprotected) (blocks : l ≤ 1 → (S2tte.view l v).Vacant ∨ MapsBlock cmd) :
    Move c₀ cmd c (storePte ⟨b, i⟩ v c) := by
  refine .entry here (isTable_of_view_ne view.plain.1) ?_ (.inl view.plain.2) ?_ fun low _ => blocks low
  · intro rd' g realm' below
    cases realm.symm.trans realm'
    rw [Rd.Fits, if_neg (outside below)]
    exact view
  · intro rd' g realm' below inPar
    cases realm.symm.trans realm'
    exact absurd inPar (outside below)

/-- All pages below an entry reached from an unprotected address are unprotected. -/
theorem Reached.outside {c : Core} {last : Nat} {slot : Slot} (shape : rd.Shape)
    (reached : Reached c a (ipa / 4096) rd.s2StartingLevel level slot last) (aligned : ipa % 4096 = 0)
    (unprotected : ¬rd.addrInPar ipa = true) {g : Nat}
    (below : Below last (ipa / 4096 / 512 ^ (3 - last) / 512) slot.index g) : ¬rd.inPar g := by
  have same : g / 512 ^ (3 - last) = ipa / 4096 / 512 ^ (3 - last) := below.trans reached.below.symm
  rw [half_of_below shape reached.low reached.high aligned same]
  exact unprotected

/-- What RTT_MAP_UNPROTECTED asks for. -/
def ReadyToMap (c : Core) (a ipa level : Nat) (host : Word) : Prop :=
  S2tte.isHostNsValid host level = true ∧ ∃ rd, c.realm? a = some rd ∧ isValidRttCmd rd ipa level = true ∧
    ¬rd.addrInPar ipa = true ∧
    ∃ e, c.forest.entry a level (ipa / 4096 / 512 ^ (3 - level)) = some e ∧ S2tte.isUnassigned e = true

/-- RTT_MAP_UNPROTECTED has mapped an unassigned entry. -/
structure HasMapped (c c' : Core) (a ipa level : Nat) (host : Word) : Prop where
  granules : c'.granules = c.granules
  accepted : S2tte.isHostNsValid host level = true
  realm : ∃ rd, c.realm? a = some rd ∧ isValidRttCmd rd ipa level = true ∧ ¬rd.addrInPar ipa = true
  replaced : ∃ old, S2tte.isUnassigned old = true ∧
    Replaced c c' a ipa level old (Rtt.unprotectedDesc host level)

theorem rttMapUnprotected_spec {host : Word} (rdW ipaW levelW : Word) (inv : s.core.Inv) (idle : s.held = [])
    (levelEq : levelW.toNat = level) (command : cmd = .rttMapUnprotected rdW ipaW levelW host) :
    wp (Rmi.rttMapUnprotected a ipa level host)
      (fun _ t => Kept s.core cmd s t ∧ HasMapped s.core t.core a ipa level host)
      (Stops s.core cmd s (ReadyToMap s.core a ipa level host)) s := by
  unfold Rmi.rttMapUnprotected
  rw [wp_bind]
  refine wp_errIf (fun bad => Kept.error (.of_eq rfl rfl rfl) fun ready => ?_) fun hostValid => ?_
  · simp [ready.1] at bad
  have hostValid : S2tte.isHostNsValid host level = true := by simpa using hostValid
  refine wp_lockRd (fun missing _ => Kept.error (.of_eq rfl rfl rfl) fun ⟨_, rd, realm, _⟩ => ?_)
    (fun _ held => not_stuck idle held) fun rd realm _ => ?_
  · exact nomatch missing.symm.trans realm
  have shape := inv.realms.shape realm
  rw [wp_bind]
  refine wp_errIf (fun bad => Kept.error (.of_eq rfl rfl rfl) fun ⟨_, rd', realm', valid, _⟩ => ?_) fun accepted => ?_
  · cases realm.symm.trans realm'
    simp [valid] at bad
  have accepted : isValidRttCmd rd ipa level = true := by simpa using accepted
  obtain ⟨high, inside, aligned⟩ := isValidRttCmd_spec shape accepted
  unfold Rtt.mapUnprotected
  rw [wp_bind]
  refine wp_errIf (fun bad => Kept.error (.of_eq rfl rfl rfl) fun ⟨_, rd', realm', _, outside, _⟩ => ?_)
    fun unprotected => ?_
  · cases realm.symm.trans realm'
    exact outside bad
  rw [wp_bind]
  refine wp_getS2tte realm inv high inside fun slot last found reached => ?_
  dsimp only
  rw [wp_bind]
  refine wp_errIf (fun above => Kept.error (.of_eq rfl rfl rfl) fun ⟨_, _, _, _, _, e, entry, _⟩ => ?_) fun here => ?_
  · exact above (reached.stands realm high entry).1.symm
  obtain rfl : level = last := Classical.not_not.mp here
  rw [wp_bind]
  refine wp_errIf (fun used => Kept.error (.of_eq rfl rfl rfl) fun ⟨_, _, _, _, _, e, entry, free⟩ => ?_)
    fun unassigned => ?_
  · rw [(reached.stands realm high entry).2] at used
    simp [free] at used
  have unassigned : S2tte.isUnassigned (pte s.core slot) = true := by simpa using unassigned
  refine wp_ipaToPteSet realm inv found ?_
  have plain : S2tte.isTable (pte s.core slot) level = false := isTable_of_unassigned unassigned
  obtain ⟨pa, view⟩ := Rtt.view_unprotectedDesc hostValid
  refine ⟨⟨.single (.unprotected (reached.leafAt plain) realm
    (reached.outside shape (page_aligned high aligned) unprotected) ?_ fun low => .inr ?_), legal_store rfl (.of_invalid ((S2tte.isUnassigned_iff _).mp unassigned).1), .refl _⟩,
    rfl, hostValid, ⟨rd, realm, accepted, unprotected⟩, _, unassigned, reached.replaced inv plain aligned⟩
  · rw [view]
    exact trivial
  · rw [command]
    exact levelEq.trans_le low

/-- What RTT_UNMAP_UNPROTECTED asks for. -/
def ReadyToUnmap (c : Core) (a ipa level : Nat) : Prop :=
  2 ≤ level ∧ ∃ rd, c.realm? a = some rd ∧ isValidRttCmd rd ipa level = true ∧ ¬rd.addrInPar ipa = true ∧
    ∃ e, c.forest.entry a level (ipa / 4096 / 512 ^ (3 - level)) = some e ∧ S2tte.isAssignedNs e level = true

theorem rttUnmapUnprotected_spec (cmd : Command) (inv : s.core.Inv) (idle : s.held = []) :
    wp (Rmi.rttUnmapUnprotected a ipa level)
      (fun _ t => Kept s.core cmd s t ∧ 2 ≤ level ∧ ∃ old, S2tte.isAssignedNs old level = true ∧
        Replaced s.core t.core a ipa level old (Rtt.destroyedDesc false) ∧
        s.StoresPte t level old (Rtt.destroyedDesc false))
      (Stops s.core cmd s (ReadyToUnmap s.core a ipa level)) s := by
  unfold Rmi.rttUnmapUnprotected
  refine wp_lockRd (fun missing _ => Kept.error (.of_eq rfl rfl rfl) fun ready => ?_)
    (fun _ held => not_stuck idle held) fun rd realm _ => ?_
  · obtain ⟨_, _, realm, _⟩ := ready
    cases missing.symm.trans realm
  have shape := inv.realms.shape realm
  rw [wp_bind]
  refine wp_errIf (fun bad => Kept.error (.of_eq rfl rfl rfl) fun ready => ?_) fun accepted => ?_
  · obtain ⟨low, rd', realm', valid, _⟩ := ready
    cases realm.symm.trans realm'
    have high := (isValidRttCmd_spec shape valid).1
    simp only [S2tte.rttMinBlockLevel, S2tte.rttPageLevel, valid, Bool.not_true, Bool.false_eq_true, or_false] at bad
    omega
  simp only [Bool.not_eq_true', not_or, Bool.not_eq_false] at accepted
  obtain ⟨low, _, accepted⟩ := accepted
  obtain ⟨high, inside, aligned⟩ := isValidRttCmd_spec shape accepted
  unfold Rtt.unmapUnprotected
  rw [wp_bind, wp_bind]
  refine wp_errIf (fun bad => Kept.error (.of_eq rfl rfl rfl) fun ready => ?_) fun unprotected => ?_
  · obtain ⟨_, rd', realm', _, outside, _⟩ := ready
    cases realm.symm.trans realm'
    exact outside bad
  rw [wp_bind]
  refine wp_getS2tte realm inv high inside fun slot last found reached => ?_
  dsimp only
  refine wp_if (fun other => ?_) fun here => ?_
  · have notReady : ¬ReadyToUnmap s.core a ipa level := by
      rintro ⟨_, _, _, _, _, e, entry, mapped⟩
      obtain ⟨rfl, rfl⟩ := reached.stands realm high entry
      simp [mapped] at other
    rw [wp_bind]
    refine (Quiet.skipNonLiveEntries rd ipa last).wp (fun top => ?_)
      fun halt free => Kept.stops (.of_eq rfl rfl rfl) notReady free
    rw [wp_bind, wp_setRet, wp_err]
    exact Kept.error (.of_eq rfl rfl rfl) notReady
  simp only [ne_eq, Bool.not_eq_true', not_or, Classical.not_not, Bool.not_eq_false] at here
  obtain ⟨rfl, mapped⟩ := here
  rw [wp_bind]
  refine wp_ipaToPteSet realm inv found ?_
  have plain : S2tte.isTable (pte s.core slot) level = false :=
    isTable_of_view_ne (by rw [S2tte.view_of_isAssignedNs mapped]; rfl)
  have leaf := reached.leafAt plain
  have move : Move s.core cmd s.core _ :=
    .unprotected leaf realm (reached.outside shape (page_aligned high aligned) unprotected)
      (by rw [Rtt.view_destroyedDesc]; exact trivial : (S2tte.view level (Rtt.destroyedDesc false)).Unprotected)
      fun _ => .inl (by rw [Rtt.view_destroyedDesc]; exact trivial)
  have realm' : (storePte slot (Rtt.destroyedDesc false) s.core).realm? a = some rd := by
    refine (realm?_setContent ?_ a).trans realm
    rw [(inv.tables.tables leaf.place).2]
    simp
  have replaced := reached.replaced (v := Rtt.destroyedDesc false) inv plain aligned
  obtain ⟨_, there, _⟩ := Option.map_eq_some_iff.mp replaced.after
  refine wp_skipNonLiveEntries realm' (move.inv inv) high inside aligned there fun top _ => ?_
  rw [wp_setRet]
  refine ⟨⟨.single move, legal_store rfl (.of_flushes (.inl rfl) fun forgotten => ?_), .refl _⟩, Nat.not_lt.mp low, _,
    mapped, replaced, _, _, rfl⟩
  rcases forgotten with ⟨_, _, table⟩ | ⟨level, _⟩
  · cases table.symm.trans (isTable_of_view_ne (by rw [Rtt.view_destroyedDesc]; rfl))
  · change _ = 1 at level
    exact low (level.trans_lt (by decide))

end Unprotected

end Islet.Rmm
