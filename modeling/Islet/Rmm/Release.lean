import Islet.Rmm.Translation

/-! Memory that realms give back: what DATA_DESTROY returns of what DATA_CREATE took, and how a
command that finds nothing to release tells the host where to go on. -/

namespace Islet.Rmm

open Lib Prog Bits Rmi Stage2Translation

variable [Platform] {s t w : Machine} {c c' : Core} {a ipa pa top : Nat} {rd : Rd} {cmd : Command}

/-! ### DATA_CREATE and DATA_DESTROY -/

/-- The command puts the granule `target` behind the page of `ipa`. -/
def Command.CreatesData (cmd : Command) (rd target ipa : Word) : Prop :=
  (∃ src flags, cmd = .dataCreate rd target ipa src flags) ∨ cmd = .dataCreateUnknown rd target ipa

/-- The page of `ipa` has lost its granule `pa`, which is free and blank. -/
structure Core.Released (c c' : Core) (a ipa pa top : Nat) : Prop where
  entry : ∃ old new, c.forest.entry a 3 (ipa / 4096) = some old ∧ c'.forest.entry a 3 (ipa / 4096) = some new ∧
    (S2tte.view 3 old = .ram pa ∧ S2tte.view 3 new = .unassigned S2tte.ripasDestroyed.toNat ∨
      ∃ ripas, S2tte.view 3 old = .assigned pa ripas ∧ S2tte.view 3 new = .unassigned ripas)
  others : ∀ a' l q, ¬(a' = a ∧ l = 3 ∧ q = ipa / 4096) → c'.forest.entry a' l q = c.forest.entry a' l q
  freed : c'.Has pa .delegated
  states : ∀ b, validateAddr b = true → b ≠ pa → c'.stateOf b = c.stateOf b
  wiped : c'.mem pa = .raw .zero
  memory : ∃ b, c.forest.node a 3 (ipa / 4096 / 512) = some b ∧
    (∀ i, i ≠ ipa / 4096 % 512 → (c'.mem b).words i = (c.mem b).words i) ∧ ∀ x, x ≠ pa → x ≠ b → c'.mem x = c.mem x
  beyond : ipa < top
  dead : ∀ x, ipa ≤ x → x < top → ∃ e, c'.forest.entry a 3 (x / 4096) = some e ∧ S2tte.isLive e = false

omit [Platform] in
theorem S2tte.isLive_of_isUnassigned {e : Word} (free : S2tte.isUnassigned e = true) : S2tte.isLive e = false := by
  obtain ⟨desc, hipas, _⟩ := (S2tte.isUnassigned_iff e).mp free
  have other : S2tte.isAssigned e = false := by
    rw [← Bool.not_eq_true, S2tte.isAssigned_iff]
    omega
  simp [S2tte.isLive, S2tte.isAssignedEmpty, S2tte.isAssignedDestroyed, other, S2tte.descType_eq, S2tte.lxInvalid, desc]

omit [Platform] in
theorem S2tte.isLive_of_valid {e : Word} (valid : S2tte.descNum e ≠ 0) : S2tte.isLive e = true := by
  simp [S2tte.isLive, S2tte.descType_eq, S2tte.lxInvalid, valid]

omit [Platform] in
/-- The entry of a page with a granule is live. -/
theorem S2tte.isLive_of_backing {e : Word} (fits : (S2tte.view 3 e).Protected)
    (named : (S2tte.view 3 e).backing? = some pa) : S2tte.isLive e = true := by
  cases view : S2tte.view 3 e with
  | ram base =>
    obtain ⟨_, _, _, _, desc⟩ := S2tte.mapped_of_view view
    exact S2tte.isLive_of_valid (by omega)
  | assigned base ripas =>
    obtain ⟨held, _, _, _, same⟩ := S2tte.isAssigned_of_view view
    rw [view] at fits
    have value : S2tte.ripasNum e = 0 ∨ S2tte.ripasNum e = 2 := same ▸ fits
    rcases value with empty | destroyed
    · have field : getMaskedValue e S2tte.invalidRipas = S2tte.ripasEmpty := S2tte.ripas_eq.mpr empty
      simp [S2tte.isLive, S2tte.isAssignedEmpty, held, field]
    · have field : getMaskedValue e S2tte.invalidRipas = S2tte.ripasDestroyed := S2tte.ripas_eq.mpr destroyed
      simp [S2tte.isLive, S2tte.isAssignedDestroyed, held, field]
  | table _ => rw [view] at named; cases named
  | unassigned _ => rw [view] at named; cases named
  | unassignedNs => rw [view] at named; cases named
  | ns _ => rw [view] at named; cases named
  | malformed => rw [view] at named; cases named

omit [Platform] in
/-- What DATA_DESTROY leaves is not live. -/
theorem Rtt.isLive_dataGoneDesc (e : Word) : S2tte.isLive (Rtt.dataGoneDesc e) = false :=
  S2tte.isLive_of_isUnassigned (S2tte.isUnassigned_of_view (Rtt.view_dataGoneDesc 3 e)).1

theorem HasDestroyed.released (gone : HasDestroyed c c' a ipa pa top) : c.Released c' a ipa pa top := by
  obtain ⟨old, before, named, after⟩ := gone.entry
  have meaning := Rtt.view_dataGoneDesc 3 old
  refine ⟨⟨old, _, before, after, ?_⟩, gone.others, ⟨gone.granule.1, ?_⟩, fun b valid other => ?_, gone.wiped,
    gone.table, ?_, gone.skips.dead⟩
  · rcases data_entry fun refused => taken_of_backing named (refused.resolve_left (Nat.lt_irrefl 3)) with
      ⟨view, ram⟩ | ⟨view, notRam⟩
    · rw [view] at named
      rw [if_pos ram] at meaning
      cases named
      exact .inl ⟨view, meaning⟩
    · rw [view] at named
      rw [if_neg (by rw [notRam]; exact nofun)] at meaning
      cases named
      exact .inr ⟨_, view, meaning⟩
  · rw [gone.states pa gone.granule.1, if_pos rfl]
  · rw [gone.states b valid, if_neg other]
  · exact gone.skips.progress _ after (Rtt.isLive_dataGoneDesc old)

/-- DATA_DESTROY of a page that has a granule succeeds. -/
theorem Machine.destroysData (rd ipa : Word) (inv : s.core.Inv) (ready : ReadyForDestroy s.core rd.toNat ipa.toNat) :
    ∃ t, s.Succeeds (.dataDestroy rd ipa) t ∧
      HasDestroyed s.core t.core rd.toNat ipa.toNat (t.ret 1) (t.ret 2) := by
  obtain ⟨t, done, post⟩ := Machine.succeeds_of_wp s (.dataDestroy rd ipa)
    (dataDestroy_spec (s := s.start) rd ipa inv rfl rfl) fun _ _ stops => stops.1 ready
  exact ⟨t, done, post.2⟩

theorem Core.Page.of_bottom {g : Nat} {e : Word} (entry : c.forest.entry a 3 g = some e) : c.Page a g (S2tte.view 3 e) :=
  ⟨3, e, leaf_of_bottom entry, by rw [Nat.sub_self, Nat.pow_zero, Nat.mod_one, View.at_zero]⟩

omit [Platform] in
theorem View.Unprotected.backing?_eq_none {v : View} (outside : v.Unprotected) : v.backing? = none := by
  cases v <;> first | rfl | exact outside.elim

/-- Only protected pages have granules. -/
theorem Core.Backed.ready {ipa : Word} (backed : c.Backed a ipa.toNat pa) (inv : c.Inv)
    (aligned : ipa.toNat % 4096 = 0) : ReadyForDestroy c a ipa.toNat := by
  obtain ⟨e, entry, named⟩ := backed
  obtain ⟨rd, realm⟩ := (Core.Page.of_bottom entry).realm
  have fits := inv.tables.pages realm (Core.Page.of_bottom entry)
  have below : ipa.toNat < rd.parSize := by
    by_contra above
    rw [Rd.Fits, if_neg (by unfold Rd.inPar; omega)] at fits
    cases named.symm.trans fits.backing?_eq_none
  have inside : ipa.toNat < rd.ipaSize := below.trans_le (Nat.div_le_self _ _)
  exact ⟨⟨rd, realm, decide_eq_true below, (inv.realms.shape realm).isValidRttCmd_page aligned inside⟩,
    pa, e, entry, named⟩

/-- The RIPAS of an unassigned page is one of three. -/
theorem Core.Inv.ripas_le {g : Nat} {e : Word} (inv : c.Inv) (entry : c.forest.entry a 3 g = some e)
    (free : S2tte.isUnassigned e = true) : (S2tte.getRipas e).toNat ≤ 2 := by
  obtain ⟨rd, realm⟩ := (Core.Page.of_bottom entry).realm
  have fits := inv.tables.pages realm (Core.Page.of_bottom entry)
  rw [S2tte.view_of_isUnassigned free, Rd.Fits] at fits
  rw [show (S2tte.getRipas e).toNat = S2tte.ripasNum e from Rtt.toNat_ripas e]
  split at fits
  · exact fits
  · exact fits.trans_le (Nat.zero_le 2)

/-- The entry that a successful DATA_CREATE leaves. -/
theorem Machine.Succeeds.backed {rdW targetW ipaW : Word} (done : s.Succeeds cmd t)
    (creates : cmd.CreatesData rdW targetW ipaW) (inv : s.core.Inv) :
    ipaW.toNat % 4096 = 0 ∧ t.core.Backed rdW.toNat ipaW.toNat targetW.toNat := by
  rcases creates with ⟨src, flags, rfl⟩ | rfl
  · obtain ⟨_, ⟨desc, copies⟩, _, data⟩ :=
      done.post (dataCreate_spec (s := s.start) rdW targetW ipaW src flags inv rfl rfl rfl rfl rfl rfl)
    have address := validateAddr_iff.mp copies.target.1
    refine ⟨(validateIpa_spec (inv.realms.shape copies.realm) copies.ipa).2.1, _, data.entry, ?_⟩
    rw [Rtt.view_dataDesc false (by omega) (by omega) (by decide), if_neg (by simp)]
    rfl
  · obtain ⟨_, unknown⟩ :=
      done.post (dataCreateUnknown_spec (s := s.start) (.dataCreateUnknown rdW targetW ipaW) inv rfl)
    obtain ⟨old, free, replaced⟩ := unknown.replaced
    have address := validateAddr_iff.mp unknown.free.1
    have before := replaced.before
    have after := replaced.after
    rw [Nat.sub_self, Nat.pow_zero, Nat.div_one] at before after
    refine ⟨unknown.aligned, _, after, ?_⟩
    rw [Rtt.view_dataDesc true (by omega) (by omega) (inv.ripas_le before free)]
    split <;> rfl

theorem Machine.Reachable.later (reached : s.Reachable) (run : Relation.ReflTransGen Machine.Step s t) : t.Reachable := by
  induction run with
  | refl => exact reached
  | tail _ next ih => exact ih.step next

/-- A command walks to the entry for `ipa` at `level`, and reports in a register how far the host may go on. -/
structure TopQuery where
  rd : Nat
  ipa : Nat
  level : Nat
  register : Nat

def Command.topQuery? : Command → Option TopQuery
  | .dataDestroy rd ipa => some ⟨rd.toNat, ipa.toNat, S2tte.rttPageLevel, 2⟩
  | .rttUnmapUnprotected rd ipa level => some ⟨rd.toNat, ipa.toNat, level.toNat, 1⟩
  | .rttDestroy rd ipa level => some ⟨rd.toNat, ipa.toNat, level.toNat - 1, 2⟩
  | _ => none

/-- The arguments pass the checks of the handler. -/
def Command.InputOk (cmd : Command) (rd : Rd) : Prop :=
  match cmd with
  | .dataDestroy _ ipa => rd.addrInPar ipa.toNat = true ∧ isValidRttCmd rd ipa.toNat S2tte.rttPageLevel = true
  | .rttUnmapUnprotected _ ipa level => S2tte.rttMinBlockLevel ≤ level.toNat ∧ level.toNat ≤ S2tte.rttPageLevel ∧
    isValidRttCmd rd ipa.toNat level.toNat = true ∧ rd.addrInPar ipa.toNat = false
  | .rttDestroy _ ipa level => isValidTableCmd rd ipa.toNat level.toNat = true
  | _ => False

/-- The host gets on if it resumes at `top`: this is beyond `ipa`, and the entries of the level in between are dead. -/
def Core.Resumes (c : Core) (a level ipa top : Nat) : Prop :=
  ipa < top ∧ ∀ x, ipa ≤ x → x < top → ∃ e, c.forest.entry a level (x / 2 ^ (39 - 9 * level)) = some e ∧
    S2tte.isLive e = false

/-- The command has ended with the error for level `l`, and register `k` takes the host on if `ipa` is the start of what
an entry of this level covers. -/
def ReportsTop (c : Core) (a ipa k l : Nat) (halt : Halt) (t : Machine) : Prop :=
  halt = .error (.rmiErrorRtt l) ∧ (c.Resumes a l ipa (t.ret k) ↔ ipa % 2 ^ (39 - 9 * l) = 0)

/-- The report of a walk that has ended at a dead entry. The error comes also if no top is computed, and then the
register keeps its zero. -/
theorem wp_reportsTop {α : Type} {ok : α → Machine → Prop} {level last k : Nat} {slot : Slot}
    (realm : s.core.realm? a = some rd) (inv : s.core.Inv) (inside : ipa < rd.ipaSize)
    (reached : Reached s.core a (ipa / 4096) rd.s2StartingLevel level slot last)
    (dead : S2tte.isLive (pte s.core slot) = false) (unset : s.ret k = 0) :
    wp (do
      let top ← Rtt.skipNonLiveEntries rd ipa last
      setRet k top
      err (.rmiErrorRtt last) : RmmM α) ok (ReportsTop s.core a ipa k last) s := by
  have high := reached.high
  rw [wp_bind]
  by_cases aligned : ipa % 2 ^ (39 - 9 * last) = 0
  · refine wp_skipNonLiveEntries realm inv high inside aligned reached.place fun top skips => ?_
    rw [wp_bind, wp_setRet, wp_err]
    refine ⟨rfl, iff_of_true ?_ aligned⟩
    have entry := reached.entry
    rw [Nat.div_div_eq_div_mul, ← entry_bytes high] at entry
    dsimp only
    rw [Function.update_self]
    exact ⟨skips.progress _ entry dead, skips.dead⟩
  · unfold Rtt.skipNonLiveEntries
    rw [wp_bind]
    refine wp_mappingSize high ?_
    rw [wp_bind]
    refine wp_errIf (fun _ => ⟨rfl, iff_of_false ?_ aligned⟩) fun whole => absurd ?_ aligned
    · rintro ⟨beyond, _⟩
      rw [unset] at beyond
      exact nomatch beyond
    · exact alignedTo_eq.mp (Decidable.not_not.mp whole)

section Reports

variable {level last : Nat} {slot : Slot} (realm : s.core.realm? a = some rd) (inv : s.core.Inv) (idle : s.held = [])
  (unset : ∀ k, s.ret k = 0) (dead : S2tte.isLive (pte s.core slot) = false)
include realm inv idle unset dead

theorem dataDestroy_reports (inPar : rd.addrInPar ipa = true)
    (accepted : isValidRttCmd rd ipa S2tte.rttPageLevel = true)
    (found : rd.tables.walk s.core ipa S2tte.rttPageLevel false = .found slot last) :
    wp (Rmi.dataDestroy a ipa) (fun _ _ => False) (ReportsTop s.core a ipa 2 last) s := by
  unfold Rmi.dataDestroy
  refine wp_lockRd (fun missing _ => by cases missing.symm.trans realm) (fun _ held => not_stuck idle held)
    fun rd' realm' _ => ?_
  cases realm.symm.trans realm'
  obtain ⟨_, inside, _⟩ := isValidRttCmd_spec (inv.realms.shape realm) accepted
  rw [wp_bind]
  refine wp_errIf (fun refused => by simp [inPar, accepted] at refused) fun _ => ?_
  rw [wp_bind]
  unfold Rtt.dataDestroy
  dsimp only
  rw [wp_bind]
  refine wp_getS2tte realm inv (Nat.le_refl 3) inside fun slot' last' found' reached => ?_
  cases found.symm.trans found'
  refine wp_if (fun _ => wp_reportsTop realm inv inside reached dead (unset 2)) fun taken => ?_
  -- at the bottom, an entry that is taken is live
  obtain rfl : last = 3 := by
    have := reached.high
    have low : ¬last < 3 := fun above => taken (.inl above)
    omega
  have entry := reached.entry
  rw [Nat.sub_self, Nat.pow_zero, Nat.div_one] at entry
  have fits := inv.tables.pages realm (Core.Page.of_bottom entry)
  rw [Rd.Fits, if_pos (inPar_of_addrInPar inPar)] at fits
  have live : S2tte.isLive (pte s.core slot) = true := by
    rcases data_entry taken with ⟨view, _⟩ | ⟨view, _⟩
    · exact S2tte.isLive_of_backing fits (congrArg View.backing? view)
    · exact S2tte.isLive_of_backing fits (congrArg View.backing? view)
  cases dead.symm.trans live

theorem rttUnmapUnprotected_reports (low : S2tte.rttMinBlockLevel ≤ level) (high : level ≤ S2tte.rttPageLevel)
    (accepted : isValidRttCmd rd ipa level = true) (outside : rd.addrInPar ipa = false)
    (found : rd.tables.walk s.core ipa level false = .found slot last) :
    wp (Rmi.rttUnmapUnprotected a ipa level) (fun _ _ => False) (ReportsTop s.core a ipa 1 last) s := by
  unfold Rmi.rttUnmapUnprotected
  refine wp_lockRd (fun missing _ => nomatch missing.symm.trans realm) (fun _ held => not_stuck idle held)
    fun rd' realm' _ => ?_
  cases realm.symm.trans realm'
  obtain ⟨_, inside, _⟩ := isValidRttCmd_spec (inv.realms.shape realm) accepted
  rw [wp_bind]
  refine wp_errIf (fun refused => ?_) fun _ => ?_
  · rcases refused with below | above | bad
    · exact absurd below (Nat.not_lt.mpr low)
    · exact absurd above (Nat.not_lt.mpr high)
    · rw [accepted] at bad
      exact nomatch bad
  rw [wp_bind]
  unfold Rtt.unmapUnprotected
  rw [wp_bind]
  refine wp_errIf (fun bad => nomatch outside.symm.trans bad) fun _ => ?_
  rw [wp_bind]
  refine wp_getS2tte realm inv high inside fun slot' last' found' reached => ?_
  cases found.symm.trans found'
  refine wp_if (fun _ => wp_reportsTop realm inv inside reached dead (unset 1)) fun taken => ?_
  simp only [ne_eq, Bool.not_eq_true', not_or, Classical.not_not, Bool.not_eq_false] at taken
  obtain ⟨_, leaf⟩ := (S2tte.isAssignedNs_iff _ _).mp taken.2
  exact nomatch dead.symm.trans (S2tte.isLive_of_valid (by omega))

theorem rttDestroy_reports (accepted : isValidTableCmd rd ipa level = true)
    (found : rd.tables.walk s.core ipa (level - 1) false = .found slot last) :
    wp (Rmi.rttDestroy a ipa level) (fun _ _ => False) (ReportsTop s.core a ipa 2 last) s := by
  unfold Rmi.rttDestroy
  refine wp_lockRd (fun missing _ => nomatch missing.symm.trans realm) (fun _ held => not_stuck idle held)
    fun rd' realm' _ => ?_
  cases realm.symm.trans realm'
  obtain ⟨_, high, inside, _⟩ := isValidTableCmd_spec (inv.realms.shape realm) accepted
  rw [wp_bind]
  refine wp_errIf (fun refused => by simp [accepted] at refused) fun _ => ?_
  rw [wp_bind]
  unfold Rtt.destroy
  refine wp_inScope ?_
  rw [wp_bind]
  refine wp_getS2tte realm inv (by omega) inside fun slot' last' found' reached => ?_
  cases found.symm.trans found'
  refine wp_if (fun _ => wp_reportsTop realm inv inside reached dead (unset 2)) fun taken => ?_
  simp only [ne_eq, Bool.not_eq_true', not_or, Classical.not_not, Bool.not_eq_false] at taken
  obtain ⟨_, table⟩ := (S2tte.isTable_iff _ _).mp taken.2
  exact nomatch dead.symm.trans (S2tte.isLive_of_valid (by rw [table]; exact nofun))

end Reports

/-- A host whose command has ended at a dead entry can go on at the top that it is told, exactly if its address is the
start of what this entry covers. -/
theorem Machine.Reachable.walk_top {query : TopQuery} {last : Nat} {slot : Slot} (reached : s.Reachable)
    (asks : cmd.topQuery? = some query) (realm : s.core.realm? query.rd = some rd) (accepted : cmd.InputOk rd)
    (found : rd.tables.walk s.core query.ipa query.level false = .found slot last)
    (dead : S2tte.isLive (pte s.core slot) = false) :
    ∃ t, s.handle cmd = (.error (.error (.rmiErrorRtt last)), t) ∧
      (s.core.Resumes query.rd last query.ipa (t.ret query.register) ↔ query.ipa % 2 ^ (39 - 9 * last) = 0) := by
  have spec : wp cmd.handler (fun _ _ => False) (ReportsTop s.core query.rd query.ipa query.register last) s.start := by
    cases cmd with
    | dataDestroy rdW ipaW =>
      cases asks
      exact dataDestroy_reports (s := s.start) realm reached.inv rfl (fun _ => rfl) dead accepted.1 accepted.2 found
    | rttUnmapUnprotected rdW ipaW levelW =>
      cases asks
      exact rttUnmapUnprotected_reports (s := s.start) realm reached.inv rfl (fun _ => rfl) dead accepted.1 accepted.2.1
        accepted.2.2.1 accepted.2.2.2 found
    | rttDestroy rdW ipaW levelW =>
      cases asks
      exact rttDestroy_reports (s := s.start) realm reached.inv rfl (fun _ => rfl) dead accepted found
    | _ => exact nomatch asks
  obtain ⟨halt, t, stopped, rfl, top⟩ := stops_of_wp spec
  exact ⟨t, stopped, top⟩

/-- The walk for a page ends at a dead entry of level 1. -/
def Core.endsDead (c : Core) (rd : Rd) (ipa : Nat) : Bool :=
  match rd.tables.walk c ipa S2tte.rttPageLevel false with
  | .found slot 1 => !S2tte.isLive (pte c slot)
  | _ => false

theorem Core.exists_slot {c : Core} (ends : c.endsDead rd ipa = true) :
    ∃ slot, rd.tables.walk c ipa S2tte.rttPageLevel false = .found slot 1 ∧ S2tte.isLive (pte c slot) = false := by
  unfold Core.endsDead at ends
  split at ends
  · rename_i slot found
    exact ⟨slot, found, by simpa using ends⟩
  · exact nomatch ends

open Sample in
omit [Platform] in
/-- The first page of such a realm: the host may go on at the next gigabyte. -/
theorem walk_top_gigabyte : ∃ _ : Platform, ∃ (s t : Machine) (rd : Rd) (rdW : Word), s.Reachable ∧
    s.core.realm? rdW.toNat = some rd ∧ (Command.dataDestroy rdW 0).InputOk rd ∧
    s.handle (.dataDestroy rdW 0) = (.error (.error (.rmiErrorRtt 1)), t) ∧
    s.core.Resumes rdW.toNat 1 0 (t.ret 2) := by
  have reached := created_via.reachable
  obtain ⟨rd, realm, kind⟩ := (Option.any_eq_true (fun rd => rd.addrInPar 0 ∧ isValidRttCmd rd 0 S2tte.rttPageLevel ∧
    created.core.endsDead rd 0) (created.core.realm? (bankAt 0))).mp (by decide +kernel)
  obtain ⟨inPar, valid, ends⟩ := of_decide_eq_true kind
  obtain ⟨slot, found, dead⟩ := Core.exists_slot ends
  have accepted : (Command.dataDestroy (BitVec.ofNat 64 (bankAt 0)) 0).InputOk rd := ⟨inPar, valid⟩
  obtain ⟨t, stopped, resumes⟩ := reached.walk_top rfl realm accepted found dead
  exact ⟨platform, created, t, rd, BitVec.ofNat 64 (bankAt 0), reached, realm, accepted, stopped, resumes.mpr rfl⟩

open Sample in
omit [Platform] in
/-- For the second page the register is not set. -/
theorem walk_top_unset : ∃ _ : Platform, ∃ (s t : Machine) (rd : Rd) (rdW : Word) (slot : Slot), s.Reachable ∧
    s.core.realm? rdW.toNat = some rd ∧ (Command.dataDestroy rdW 0x1000).InputOk rd ∧
    rd.tables.walk s.core 0x1000 S2tte.rttPageLevel false = .found slot 1 ∧ S2tte.isLive (pte s.core slot) = false ∧
    s.handle (.dataDestroy rdW 0x1000) = (.error (.error (.rmiErrorRtt 1)), t) ∧
    ¬s.core.Resumes rdW.toNat 1 0x1000 (t.ret 2) := by
  obtain ⟨rd, realm, kind⟩ := (Option.any_eq_true (fun rd => rd.addrInPar 0x1000 ∧
    isValidRttCmd rd 0x1000 S2tte.rttPageLevel ∧ created.core.endsDead rd 0x1000) (created.core.realm? (bankAt 0))).mp
    (by decide +kernel)
  obtain ⟨inPar, valid, ends⟩ := of_decide_eq_true kind
  obtain ⟨slot, found, dead⟩ := Core.exists_slot ends
  have stopped : created.handle (.dataDestroy (BitVec.ofNat 64 (bankAt 0)) 0x1000) = (.error (.error (.rmiErrorRtt 1)), _) :=
    Machine.handle_of_result (by decide +kernel)
  have top : (created.handle (.dataDestroy (BitVec.ofNat 64 (bankAt 0)) 0x1000)).2.ret 2 = 0 := by decide +kernel
  refine ⟨platform, created, _, rd, BitVec.ofNat 64 (bankAt 0), slot, created_via.reachable, realm, ⟨inPar, valid⟩, found,
    dead, stopped, fun resumes => ?_⟩
  exact absurd (top ▸ resumes.1) (by decide)

end Islet.Rmm
