import Islet.Rmm.RipasChange

/-! RTT_SET_RIPAS page by page: what becomes of the RIPAS, the HIPAS and the granule of each page that the loop gets
past, which descriptors it leaves, and the entry that it cannot deal with. -/

namespace Islet.Rmm

open Lib Prog Bits Rmi Stage2Translation

variable [Platform] {s t : Machine} {rd : Rd} {a g : Nat}

/-! ### Only the RIPAS -/

/-- The host IPA state of a protected page. -/
inductive Hipas where
  | unassigned
  | assigned
  deriving DecidableEq, Repr

namespace View

def hipas? : View → Option Hipas
  | .unassigned _ => some .unassigned
  | .assigned _ _ => some .assigned
  | .ram _ => some .assigned
  | _ => none

/-- A page `v` has become `w`: only the RIPAS differs, and DESTROYED has gone only if that was asked for. -/
structure RipasOnly (v w : View) (ripas : Nat) (flags : Word) : Prop where
  ripas : w.ripas? = some ripas
  hipas : w.hipas? = v.hipas?
  backing : w.backing? = v.backing?
  destroyed : v.ripas? = some 2 → w ≠ v → flags &&& Rtt.changeDestroyed ≠ 0

end View

/-- The entry of the page has a granule, and `set_ripas` for EMPTY takes it for one that has none: it is ASSIGNED EMPTY,
or a block of level 1. -/
def Core.LosesGranule (c : Core) (a g ripas : Nat) : Prop :=
  ripas = 0 ∧ ∃ l e, c.forest.Leaf 3 a g l e ∧
    ((∃ pa, S2tte.view l e = .assigned pa 0) ∨ l = 1 ∧ ∃ pa, S2tte.view l e = .ram pa)

section Rounds

variable {level ripas k : Nat} {flags e e' : Word}

omit [Platform] in
/-- What EMPTY leaves of an entry that is known to have a granule. -/
theorem Rtt.view_emptied (low : 1 ≤ level) (high : level ≤ 3) :
    S2tte.view level (4#64 ||| getMasked e (S2tte.blockMask level)) = .assigned (S2tte.outAddr e level) 0 := by
  have view := Rtt.view_assignedEmptyDesc (e := e) low high
  rwa [show bitsInReg S2tte.invalidRipas S2tte.ripasEmpty ||| bitsInReg S2tte.invalidHipas S2tte.assigned = 4#64 by decide]
    at view

omit [Platform] in
theorem Rtt.view_zero : S2tte.view level 0#64 = .unassigned 0 := Rtt.view_attr (by decide) (by decide)

omit [Platform] in
/-- A granule that is lost makes more than the RIPAS differ. -/
theorem View.not_ripasOnly {pa : Nat} {v : View} (backed : v.backing? = some pa) :
    ¬v.RipasOnly (.unassigned 0) ripas flags := fun only => nomatch only.backing.trans backed

omit [Platform] in
/-- A round of `set_ripas` changes only the RIPAS, unless the entry loses its granule. -/
theorem Rtt.RipasRound.ripasOnly (asked : ripas ≤ 1) (protect : (S2tte.view level e).Protected)
    (round : Rtt.RipasRound level ripas flags e e') :
    ((S2tte.view level e).at_ k).RipasOnly ((S2tte.view level e').at_ k) ripas flags ↔
      ¬(ripas = 0 ∧ ((∃ pa, S2tte.view level e = .assigned pa 0) ∨ level = 1 ∧ ∃ pa, S2tte.view level e = .ram pa)) := by
  cases before : S2tte.view level e with
  | table addr => rw [before] at protect; exact protect.elim
  | unassignedNs => rw [before] at protect; exact protect.elim
  | ns pa => rw [before] at protect; exact protect.elim
  | malformed => rw [before] at protect; exact protect.elim
  | unassigned r =>
    rw [before] at protect
    obtain ⟨after, flag⟩ := Rtt.round_unassigned before asked protect round
    rw [after]
    exact ⟨fun _ => by simp, fun _ => ⟨rfl, rfl, rfl, fun two _ => flag (Option.some.inj two)⟩⟩
  | assigned pa r =>
    rw [before] at protect
    obtain ⟨after, flag⟩ := Rtt.round_assigned before asked protect round
    obtain ⟨_, low, high, rfl, _⟩ := S2tte.isAssigned_of_view before
    obtain rfl | rfl : ripas = 0 ∨ ripas = 1 := by omega
    · rcases protect with rfl | rfl
      · rw [after, if_pos rfl, if_neg (by omega), Rtt.view_zero]
        exact iff_of_false (View.not_ripasOnly rfl) fun loses => loses ⟨rfl, .inl ⟨_, rfl⟩⟩
      · rw [after, if_pos rfl, if_pos rfl, Rtt.view_emptied low high]
        exact iff_of_true ⟨rfl, rfl, rfl, fun _ _ => flag rfl⟩ (by simp)
    · rw [after, if_neg (by omega), Rtt.view_ramDesc (by split <;> simp) low high]
      exact iff_of_true ⟨rfl, rfl, rfl, fun two _ => flag (Option.some.inj two)⟩ (by simp)
  | ram pa =>
    have after := Rtt.round_ram before asked round
    obtain ⟨_, rfl, low, high, _⟩ := S2tte.mapped_of_view before
    obtain rfl | rfl : ripas = 0 ∨ ripas = 1 := by omega
    · rw [if_neg (by omega)] at after
      by_cases outer : level = 1
      · rw [after, if_pos outer, Rtt.view_zero]
        exact iff_of_false (View.not_ripasOnly rfl) fun loses => loses ⟨rfl, .inr ⟨outer, _, rfl⟩⟩
      · rw [after, if_neg outer, Rtt.view_emptied low high]
        exact iff_of_true ⟨rfl, rfl, rfl, nofun⟩ (by simp [outer])
    · rw [after, if_pos rfl, before]
      exact iff_of_true ⟨rfl, rfl, rfl, nofun⟩ (by simp)

end Rounds

/-! ### Requests -/

/-- What the realm has asked for through the REC. -/
def Machine.ripasAsked (s : Machine) (recW : Word) : Nat := (s.core.mem recW.toNat).asRec.ripas.state

def Machine.ripasFlags (s : Machine) (recW : Word) : Word := (s.core.mem recW.toNat).asRec.ripas.flags

/-- The registers of RSI_IPA_STATE_SET. -/
def ripasRegisters (base top ripas : Word) : Nat → Word := fun i =>
  if i = 0 then BitVec.ofNat 64 Rsi.ipaStateSetCmd else if i = 1 then base else if i = 2 then top
  else if i = 3 then ripas else 0

/-- The descriptor of the page that has a granule but is empty. -/
abbrev idleDesc : Word := Rtt.dataDesc (bankAt 39) true 0

omit [Platform] in
theorem view_idleDesc : S2tte.view 3 idleDesc = .assigned (bankAt 39) 0 := by decide

/-- The realm has asked for a RIPAS for that page. -/
def Sample.asked (ripas : Word) : Machine := Sample.calling (ripasRegisters 0x1000 0x2000 ripas)

/-- The host carries the request out. -/
def Sample.setsIdle : Command :=
  .rttSetRipas (BitVec.ofNat 64 (bankAt 0)) (BitVec.ofNat 64 (bankAt 5)) 0x1000 0x2000

section Runs

variable {rdW recW baseW topW : Word}

/-- The rounds that a successful RTT_SET_RIPAS has made. -/
structure Machine.RipasRuns (s t : Machine) (rdW recW baseW topW : Word) : Prop where
  accepted : RipasAccepted s.core rdW.toNat recW.toNat baseW.toNat topW.toNat
  known : s.ripasAsked recW ≤ 1
  within : t.ret 1 ≤ topW.toNat
  rounds : ∃ level, 1 ≤ level ∧ level ≤ 3 ∧ RoundsMade s.core t.core rdW.toNat level (s.ripasAsked recW) (s.ripasFlags recW)
    baseW.toNat (t.ret 1)

theorem Machine.Succeeds.ripasRuns (done : s.Succeeds (.rttSetRipas rdW recW baseW topW) t) (inv : s.core.Inv) :
    s.RipasRuns t rdW recW baseW topW := by
  obtain ⟨_, accepted, out, set, _, rounds⟩ :=
    done.post (rttSetRipas_spec (s := s.start) rdW recW baseW topW inv rfl rfl rfl rfl)
  have within := set.within
  rw [← set.result] at rounds within
  exact ⟨accepted, (inv.recs _ accepted.isRec.1 accepted.isRec.2).ripas, within, rounds⟩

/-- The entries of the pages below the top are of the protected half. -/
theorem Machine.RipasRuns.protect {l : Nat} {e : Word} (runs : s.RipasRuns t rdW recW baseW topW) (inv : s.core.Inv)
    (upper : g * 4096 < t.ret 1) (leaf : s.core.forest.Leaf 3 rdW.toNat g l e) : (S2tte.view l e).Protected := by
  obtain ⟨rd, realm, _⟩ := runs.accepted.realm
  have inside := runs.accepted.within realm (inv.realms.shape realm)
  have fits := (Rd.fits_at _).mp (inv.tables.pages realm ⟨l, e, leaf, rfl⟩)
  have inPar : rd.inPar g := show g * 4096 < rd.parSize from by have := runs.within; omega
  rwa [Rd.Fits, if_pos inPar] at fits

/-- Of every page that RTT_SET_RIPAS has dealt with only the RIPAS has changed, exactly if its entry is not one that
loses its granule. -/
theorem Machine.Reachable.ripas_only {v : View} (reached : s.Reachable)
    (done : s.Succeeds (.rttSetRipas rdW recW baseW topW) t) (lower : baseW.toNat ≤ g * 4096) (upper : g * 4096 < t.ret 1)
    (before : s.core.Page rdW.toNat g v) :
    (∃ w, t.core.Page rdW.toNat g w ∧ v.RipasOnly w (s.ripasAsked recW) (s.ripasFlags recW)) ↔
      ¬s.core.LosesGranule rdW.toNat g (s.ripasAsked recW) := by
  have runs := done.ripasRuns reached.inv
  obtain ⟨l, e, leaf, rfl⟩ := before
  obtain ⟨level, low, high, rounds⟩ := runs.rounds
  obtain ⟨rfl, e', leaf', round⟩ := rounds lower upper leaf
  have only := round.ripasOnly (k := g % 512 ^ (3 - l)) runs.known (runs.protect reached.inv upper leaf)
  have after : t.core.Page rdW.toNat g ((S2tte.view l e').at_ (g % 512 ^ (3 - l))) := ⟨l, e', leaf', rfl⟩
  constructor
  · rintro ⟨w, found, holds⟩ ⟨empty, l', e'', leaf'', loses⟩
    obtain ⟨rfl, rfl⟩ := leaf''.unique leaf
    rw [found.unique after] at holds
    exact only.mp holds ⟨empty, loses⟩
  · intro keeps
    exact ⟨_, after, only.mpr fun loses => keeps ⟨loses.1, l, e, leaf, loses.2⟩⟩

open Sample in
omit [Platform] in
/-- A page with a granule is made RAM. -/
theorem ripas_only_idle : ∃ _ : Platform, ∃ (s t : Machine) (rdW recW : Word), s.Reachable ∧
    s.Succeeds (.rttSetRipas rdW recW 0x1000 0x2000) t ∧ 0x1000 < t.ret 1 ∧
    s.core.Page rdW.toNat 1 (.assigned (bankAt 39) 0) ∧ ¬s.core.LosesGranule rdW.toNat 1 (s.ripasAsked recW) ∧
    ∃ w, t.core.Page rdW.toNat 1 w ∧
      (View.assigned (bankAt 39) 0).RipasOnly w (s.ripasAsked recW) (s.ripasFlags recW) := by
  have reached : (asked 1).Reachable := (calling_via (by decide +kernel)).reachable
  have done : (asked 1).Succeeds setsIdle _ := Machine.succeeds_of_result (by decide +kernel)
  have grows : 0x1000 < ((asked 1).handle setsIdle).2.ret 1 := by decide +kernel
  have asks : (asked 1).ripasAsked (BitVec.ofNat 64 (bankAt 5)) = 1 := by decide +kernel
  have leaf : (asked 1).core.forest.Leaf 3 (BitVec.ofNat 64 (bankAt 0)).toNat 1 3 idleDesc :=
    ⟨by decide, by decide +kernel, Core.forest_next_bottom _ (Nat.le_refl 3)⟩
  have page : (asked 1).core.Page (BitVec.ofNat 64 (bankAt 0)).toNat 1 (.assigned (bankAt 39) 0) :=
    ⟨3, idleDesc, leaf, by rw [view_idleDesc]; rfl⟩
  have keeps : ¬(asked 1).core.LosesGranule (BitVec.ofNat 64 (bankAt 0)).toNat 1
      ((asked 1).ripasAsked (BitVec.ofNat 64 (bankAt 5))) := by
    rw [asks]
    exact fun loses => nomatch loses.1
  exact ⟨platform, asked 1, _, _, _, reached, done, grows, page, keeps,
    (reached.ripas_only done (by decide) grows page).mpr keeps⟩

open Sample in
omit [Platform] in
/-- EMPTY takes the granule from a page that is already empty. -/
theorem ripas_takes_granule : ∃ _ : Platform, ∃ (s t : Machine) (rdW recW : Word), s.Reachable ∧
    s.Succeeds (.rttSetRipas rdW recW 0x1000 0x2000) t ∧ 0x1000 < t.ret 1 ∧
    s.core.Page rdW.toNat 1 (.assigned (bankAt 39) 0) ∧ t.core.Page rdW.toNat 1 (.unassigned 0) := by
  have reached : (asked 0).Reachable := (calling_via (by decide +kernel)).reachable
  have done : (asked 0).Succeeds setsIdle _ := Machine.succeeds_of_result (by decide +kernel)
  have grows : 0x1000 < ((asked 0).handle setsIdle).2.ret 1 := by decide +kernel
  have before : (asked 0).core.forest.Leaf 3 (BitVec.ofNat 64 (bankAt 0)).toNat 1 3 idleDesc :=
    ⟨by decide, by decide +kernel, Core.forest_next_bottom _ (Nat.le_refl 3)⟩
  have after : ((asked 0).handle setsIdle).2.core.forest.Leaf 3 (BitVec.ofNat 64 (bankAt 0)).toNat 1 3 0#64 :=
    ⟨by decide, by decide +kernel, Core.forest_next_bottom _ (Nat.le_refl 3)⟩
  refine ⟨platform, asked 0, _, _, _, reached, done, grows, ⟨3, idleDesc, before, ?_⟩, 3, 0#64, after, ?_⟩
  · rw [view_idleDesc]
    rfl
  · rw [Rtt.view_zero]
    rfl

end Runs

/-! ### Descriptors of assigned RAM -/

section Descriptors

variable {rdW : Word} {ripas : Nat} {e e' : Word}

/-- RTT_SET_RIPAS has dealt with a page whose entry of level 3 was `e` and is `e'`. -/
structure Machine.SetsPage (s t : Machine) (rdW : Word) (g ripas : Nat) (e e' : Word) : Prop where
  reached : s.Reachable
  done : ∃ recW baseW topW, s.Succeeds (.rttSetRipas rdW recW baseW topW) t ∧ s.ripasAsked recW = ripas ∧
    baseW.toNat ≤ g * 4096 ∧ g * 4096 < t.ret 1
  before : s.core.forest.Leaf 3 rdW.toNat g 3 e
  after : t.core.forest.Leaf 3 rdW.toNat g 3 e'

theorem Machine.SetsPage.round (sets : s.SetsPage t rdW g ripas e e') :
    ripas ≤ 1 ∧ ∃ flags, Rtt.RipasRound 3 ripas flags e e' := by
  obtain ⟨recW, baseW, topW, done, rfl, lower, upper⟩ := sets.done
  have runs := done.ripasRuns sets.reached.inv
  obtain ⟨level, _, _, rounds⟩ := runs.rounds
  obtain ⟨rfl, e'', after, round⟩ := rounds lower upper sets.before
  rw [(after.unique sets.after).2] at round
  exact ⟨runs.known, _, round⟩

omit [Platform] in
/-- The access flag tells the descriptors of DATA_CREATE_UNKNOWN from those of RTT_SET_RIPAS. -/
theorem Rtt.af_dataDesc (target : Nat) : getMaskedValue (Rtt.dataDesc target true S2tte.ripasRam) S2tte.af ≠ 0 := by
  unfold Rtt.dataDesc
  rw [if_neg (fun both => both.2 rfl), getMaskedValue_or, show getMaskedValue (bitsInReg S2tte.af 1) S2tte.af = 1 by decide]
  intro zero
  exact absurd (BitVec.or_eq_zero_iff.mp zero).2 (by decide)

omit [Platform] in
theorem Rtt.af_block {f : Word} (clear : getMaskedValue f S2tte.af = 0) :
    getMaskedValue (f ||| getMasked e (S2tte.blockMask 3)) S2tte.af = 0 := by
  rw [getMaskedValue_or, clear, getMaskedValue_getMasked_of_disjoint _ (by decide)]
  rfl

/-- What DATA_CREATE_UNKNOWN writes where the RIPAS is RAM. -/
theorem Machine.Reachable.data_descriptor {target ipa old : Word} (reached : s.Reachable)
    (done : s.Succeeds (.dataCreateUnknown rdW target ipa) t)
    (before : s.core.forest.Leaf 3 rdW.toNat (ipa.toNat / 4096) 3 old) (ram : S2tte.isUnassignedRam old = true) :
    t.core.forest.Leaf 3 rdW.toNat (ipa.toNat / 4096) 3 (Rtt.dataDesc target.toNat true S2tte.ripasRam) := by
  obtain ⟨_, has⟩ := done.post (dataCreateUnknown_spec (s := s.start) (.dataCreateUnknown rdW target ipa) reached.inv rfl)
  obtain ⟨old', _, replaced⟩ := has.replaced
  cases before.stored.symm.trans replaced.before
  have ripas : S2tte.getRipas old = S2tte.ripasRam := beq_iff_eq.mp (Bool.and_eq_true_iff.mp ram).2
  refine ⟨Nat.le_refl 3, ?_, Core.forest_next_bottom _ (Nat.le_refl 3)⟩
  rw [← ripas]
  exact replaced.after

/-- A page that has become RAM through RTT_SET_RIPAS never has the descriptor that DATA_CREATE_UNKNOWN writes for its
granule. If it was RAM before it was made EMPTY, it has its old descriptor back exactly if that had nothing but the
address and what RTT_SET_RIPAS writes. -/
theorem Machine.SetsPage.ram_descriptor (sets : s.SetsPage t rdW g 1 e e') :
    ((S2tte.isAssignedEmpty e = true ∨ S2tte.isAssignedDestroyed e = true →
        e' = Rtt.dataDesc (S2tte.outAddr e 3) true S2tte.ripasRam) ↔
      ¬(S2tte.isAssignedEmpty e = true ∨ S2tte.isAssignedDestroyed e = true)) ∧
    ∀ {original flags}, S2tte.isAssignedRam original 3 = true → Rtt.RipasRound 3 0 flags original e →
      (e' = original ↔ getMasked original (~~~S2tte.addrBlkL3) = 0x27#64) := by
  obtain ⟨known, flags, round⟩ := sets.round
  have differs : S2tte.isAssignedEmpty e = true ∨ S2tte.isAssignedDestroyed e = true →
      e' ≠ Rtt.dataDesc (S2tte.outAddr e 3) true S2tte.ripasRam := by
    intro holds same
    have isEntry : S2tte.isAssigned e = true := by
      rcases holds with holds | holds
      · exact (Bool.and_eq_true_iff.mp holds).1
      · exact (Bool.and_eq_true_iff.mp holds).1
    have before : S2tte.view 3 e = .assigned (S2tte.outAddr e 3) (S2tte.ripasNum e) :=
      S2tte.view_of_isAssigned isEntry (by omega) (by omega)
    obtain ⟨empty, destroyed, _⟩ := Rtt.assigned_predicates before
    have ripas : S2tte.ripasNum e = 0 ∨ S2tte.ripasNum e = 2 := by simpa [empty, destroyed] using holds
    have written := (Rtt.round_assigned before known ripas round).1
    rw [if_neg (by omega)] at written
    refine Rtt.af_dataDesc (S2tte.outAddr e 3) ?_
    rw [← same, written]
    exact Rtt.af_block (by split <;> decide)
  refine ⟨⟨fun same holds => differs holds (same holds), fun other holds => absurd holds other⟩, ?_⟩
  intro original flags' mapped emptied
  have old := S2tte.view_of_isAssignedRam mapped
  have first := Rtt.round_ram old (by omega) emptied
  rw [if_neg (by omega), if_neg (by omega)] at first
  have between : S2tte.view 3 e = .assigned (S2tte.outAddr original 3) 0 := by
    rw [first]
    exact Rtt.view_emptied (by omega) (by omega)
  have second := (Rtt.round_assigned between known (.inl rfl) round).1
  rw [if_neg (by omega), if_neg (by omega), first, getMasked_or, Rtt.leafDescType_eq, if_pos rfl,
    show getMasked 4#64 (S2tte.blockMask 3) = 0#64 by decide, BitVec.zero_or,
    show getMasked (getMasked original (S2tte.blockMask 3)) (S2tte.blockMask 3) = getMasked original S2tte.addrBlkL3 by
      rw [getMasked, getMasked, BitVec.and_assoc, BitVec.and_self]; rfl] at second
  rw [second]
  exact or_getMasked_eq_iff (by decide)

open Sample in
omit [Platform] in
/-- The page that has a granule but is empty is made RAM. -/
theorem Sample.exists_setsPage : ∃ _ : Platform, ∃ s t : Machine,
    s.SetsPage t (BitVec.ofNat 64 (bankAt 0)) 1 1 idleDesc 0x80027027#64 := by
  have reached : (asked 1).Reachable := (calling_via (by decide +kernel)).reachable
  have done : (asked 1).Succeeds setsIdle _ := Machine.succeeds_of_result (by decide +kernel)
  refine ⟨platform, asked 1, _, reached, ⟨_, _, _, done, by decide +kernel, by decide, by decide +kernel⟩, ?_, ?_⟩
  · exact ⟨by decide, by decide +kernel, Core.forest_next_bottom _ (Nat.le_refl 3)⟩
  · exact ⟨by decide, by decide +kernel, Core.forest_next_bottom _ (Nat.le_refl 3)⟩

open Sample in
omit [Platform] in
/-- An empty page made RAM. -/
theorem ram_descriptor_idle : ∃ _ : Platform, ∃ (s t : Machine) (rdW e' : Word), s.SetsPage t rdW 1 1 idleDesc e' ∧
    ¬(S2tte.isAssignedEmpty idleDesc = true ∨ S2tte.isAssignedDestroyed idleDesc = true →
      e' = Rtt.dataDesc (S2tte.outAddr idleDesc 3) true S2tte.ripasRam) := by
  obtain ⟨platform, s, t, sets⟩ := exists_setsPage
  exact ⟨platform, s, t, _, _, sets, fun same => sets.ram_descriptor.1.mp same (by decide)⟩

open Sample in
omit [Platform] in
/-- The page of a granule that DATA_CREATE_UNKNOWN would have made RAM does not get that descriptor. -/
theorem ram_descriptors_differ : ∃ _ : Platform, ∃ (s t : Machine) (rdW e' original : Word),
    s.SetsPage t rdW 1 1 idleDesc e' ∧ S2tte.isAssignedEmpty idleDesc = true ∧
    original = Rtt.dataDesc (S2tte.outAddr idleDesc 3) true S2tte.ripasRam ∧ S2tte.isAssignedRam original 3 = true ∧
    Rtt.RipasRound 3 0 0 original idleDesc ∧ e' ≠ original := by
  obtain ⟨platform, s, t, sets⟩ := exists_setsPage
  refine ⟨platform, s, t, _, _, _, sets, by decide, rfl, by decide, .inl ?_, by decide⟩
  rfl

end Descriptors

/-! ### Entries of level 0 -/

section Root

variable {rdW recW baseW topW : Word}

theorem Machine.Reachable.ripas_stuck (reached : s.Reachable)
    (accepted : RipasAccepted s.core rdW.toNat recW.toNat baseW.toNat topW.toNat)
    (root : RipasAtRoot s.core rdW.toNat baseW.toNat topW.toNat) : s.exec (.rttSetRipas rdW recW baseW topW) = none := by
  have spec : wp (Command.rttSetRipas rdW recW baseW topW).handler _ _ s.start :=
    rttSetRipas_spec rdW recW baseW topW reached.inv rfl rfl rfl rfl
  refine Option.eq_none_iff_forall_ne_some.mpr fun t returned => ?_
  rcases Machine.exec_eq_some.mp returned with done | ⟨e, u, failed, _⟩
  · obtain ⟨_, _, _, _, notRoot, _⟩ := done.post spec
    exact notRoot root
  · exact (wp_error spec failed).2.2 accepted root

/-- RTT_SET_RIPAS with arguments that its handler accepts returns, exactly if it does not come to an entry of level 0. -/
theorem Machine.Reachable.ripas_returns (reached : s.Reachable)
    (accepted : RipasAccepted s.core rdW.toNat recW.toNat baseW.toNat topW.toNat) :
    (∃ t, s.exec (.rttSetRipas rdW recW baseW topW) = some t) ↔
      ¬RipasAtRoot s.core rdW.toNat baseW.toNat topW.toNat := by
  have spec : wp (Command.rttSetRipas rdW recW baseW topW).handler _ _ s.start :=
    rttSetRipas_spec rdW recW baseW topW reached.inv rfl rfl rfl rfl
  constructor
  · rintro ⟨t, returned⟩ root
    exact nomatch (reached.ripas_stuck accepted root).symm.trans returned
  · intro notRoot
    cases ended : s.handle (.rttSetRipas rdW recW baseW topW) with
    | mk outcome u =>
      cases outcome with
      | ok _ => exact ⟨u, Machine.exec_eq_some.mpr (.inl ended)⟩
      | error halt =>
        have stops := (wp_error spec ended).2
        cases halt with
        | error e => exact ⟨_, Machine.exec_eq_some.mpr (.inr ⟨e, u, ended, rfl⟩)⟩
        | panic => exact absurd stops notRoot
        | deadlock => exact stops.elim
        | diverge => exact stops.elim

open Sample in
omit [Platform] in
/-- A request for one page. -/
theorem ripas_returns_idle : ∃ _ : Platform, ∃ (s : Machine) (rdW recW : Word), s.Reachable ∧
    RipasAccepted s.core rdW.toNat recW.toNat 0x1000 0x2000 ∧ ¬RipasAtRoot s.core rdW.toNat 0x1000 0x2000 ∧
    ∃ t, s.exec (.rttSetRipas rdW recW 0x1000 0x2000) = some t := by
  have reached : (asked 1).Reachable := (calling_via (by decide +kernel)).reachable
  have done : (asked 1).Succeeds setsIdle _ := Machine.succeeds_of_result (by decide +kernel)
  have accepted := (done.ripasRuns reached.inv).accepted
  have notRoot : ¬RipasAtRoot (asked 1).core (BitVec.ofNat 64 (bankAt 0)).toNat (0x1000 : Word).toNat (0x2000 : Word).toNat :=
    fun root => absurd root.2.1 (by decide)
  exact ⟨platform, asked 1, _, _, reached, accepted, notRoot, (reached.ripas_returns accepted).mpr notRoot⟩

/-- A realm with a root of level 0 and no other tables, which can run. -/
def Sample.wide : Machine :=
  .prepared (Action.delegates 22 ++ Action.newRealm 0 40 ++ Action.newRec 1 0 5 ++ [Action.activate, .write hostPage .zero])

theorem Sample.wide_via : Sample.wide.ReachableVia Prepares := Machine.prepared_via _

/-- It has asked for its whole protected half to be RAM. -/
def Sample.asksWide : Command := .recEnter (BitVec.ofNat 64 (bankAt 5)) (BitVec.ofNat 64 hostPage)
  [.call (ripasRegisters 0 0x8000000000 1)]

open Sample in
omit [Platform] in
/-- A request for all that the first entry of a root of level 0 covers. -/
theorem ripas_panics : ∃ _ : Platform, ∃ (s : Machine) (rdW recW : Word), s.Reachable ∧
    RipasAccepted s.core rdW.toNat recW.toNat 0 0x8000000000 ∧
    s.exec (.rttSetRipas rdW recW 0 0x8000000000) = none := by
  let s := wide.next asksWide
  have reached : s.Reachable := (wide_via.enters (Machine.exec_next (by decide +kernel))).reachable
  obtain ⟨rd, realm, kind⟩ := (Option.any_eq_true (fun rd => (s.core.mem (bankAt 0)).asRd.vmid = rd.id ∧ rd.addrInPar 0 ∧
    rd.addrInPar (0x8000000000 - granuleSize)) (s.core.realm? (bankAt 0))).mp (by decide +kernel)
  obtain ⟨vmid, first, last⟩ := of_decide_eq_true kind
  have accepted : RipasAccepted s.core (BitVec.ofNat 64 (bankAt 0)).toNat (BitVec.ofNat 64 (bankAt 5)).toNat 0
      0x8000000000 := ⟨by decide, by decide +kernel, ⟨rd, realm, ⟨bankAt 0, by decide +kernel, vmid⟩, first, last⟩,
        by decide +kernel, by decide⟩
  exact ⟨platform, s, _, _, reached, accepted, by decide +kernel⟩

end Root

end Islet.Rmm
