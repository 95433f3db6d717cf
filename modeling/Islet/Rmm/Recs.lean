import Islet.Rmm.Effects
import Islet.Rmm.Progress

/-! RECs and the realms they belong to. The reference count of a realm is a byte, so
that it counts the RECs of the realm only while there are few of them; as long as it
does, every REC belongs to a realm that exists. -/

namespace Islet.Rmm

open Lib Prog Bits Rmi Stage2Translation

variable [Platform] {c₀ c c' : Core} {s t : Machine} {cmd : Command} {a o r : Nat} {rd : Rd}

/-- REC_CREATE only while the realm has fewer than 255 RECs. -/
def FewRecs (c : Core) (cmd : Command) : Prop := ∀ a, CreatesRec cmd a → c.numRecs a < 255

/-- No realm has more RECs than its count can hold, and every REC belongs to a realm that exists. -/
structure Core.RecsCounted (c : Core) : Prop where
  few : ∀ a, c.numRecs a ≤ 255
  owned : ∀ {r}, c.Has r .recCtx → ∃ o rd, (c.mem r).asRec.owner = some o ∧ c.realm? o = some rd

theorem numRecs_pos (has : c.Has r .recCtx) (owner : (c.mem r).asRec.owner = some o) : 0 < c.numRecs o := by
  refine Finset.card_pos.mpr ⟨granuleAddrToIndex r, Finset.mem_filter.mpr ?_⟩
  refine ⟨Finset.mem_range.mpr (granuleAddrToIndex_lt has.1), has.2, ?_⟩
  rw [indexToAddr_granuleAddrToIndex has.1]
  exact owner

theorem Core.RecsCounted.refCount (counted : c.RecsCounted) (inv : c.Inv) (valid : validateAddr a = true) :
    (c.refCount a).toNat = c.numRecs a := by
  have few := counted.few a
  rw [inv.counts.recs valid, BitVec.toNat_ofNat, Nat.mod_eq_of_lt (by omega)]

/-- The realm of a REC does not end. -/
theorem Core.RecsCounted.busy (counted : c.RecsCounted) (inv : c.Inv) (has : c.Has r .recCtx)
    (owner : (c.mem r).asRec.owner = some o) (realm : c.realm? o = some rd) : c.refCount o ≠ 0 := by
  intro zero
  have some := numRecs_pos has owner
  rw [← counted.refCount inv (Core.realm?_eq_some.mp realm).1, zero] at some
  exact absurd some (Nat.lt_irrefl 0)

theorem Core.RecsCounted.stays (counted : c.RecsCounted) (inv : c.Inv) (effect : Effect c₀ cmd c c')
    (has : c.Has r .recCtx) (owner : (c.mem r).asRec.owner = some o) (realm : c.realm? o = some rd) :
    ∃ rd', c'.realm? o = some rd' ∧ rd'.layout = rd.layout :=
  (effect.realm_stays inv realm).resolve_right (counted.busy inv has owner realm)

theorem Effect.counted (effect : Effect c₀ cmd c c') (inv : c.Inv) (few : FewRecs c₀ cmd) (counted : c.RecsCounted) :
    c'.RecsCounted := by
  refine ⟨fun a => ?_, fun {r} has => ?_⟩
  · rcases effect.numRecs inv a with less | ⟨rfl, creates, _, _, _, new⟩
    · exact less.trans (counted.few a)
    · have := few a creates
      rw [new.numRecs_same]
      omega
  · -- a REC that was there keeps its owner
    have stays : ∀ {rc : Rec}, c.stateOf r = .recCtx → rc.owner = (c.mem r).asRec.owner →
        ∃ o rd, rc.owner = some o ∧ c'.realm? o = some rd := by
      intro rc before same
      obtain ⟨o, rd, owner, realm⟩ := counted.owned ⟨has.1, before⟩
      obtain ⟨rd', realm', _⟩ := counted.stays inv effect ⟨has.1, before⟩ owner realm
      exact ⟨o, rd', same.trans owner, realm'⟩
    cases effect.recMove has.1 has.2 with
    | kept before same _ => exact stays before (by rw [same])
    | step before _ fixed after _ => exact stays before (by rw [after]; exact fixed.owner)
    | enter before _ _ same _ => exact stays before (by rw [same])
    | created _ _ _ after owner _ _ realm _ =>
      obtain ⟨rd, realm⟩ := realm
      exact ⟨_, rd, by rw [after]; exact owner, realm⟩

/-- A command that creates no REC leaves few of them, and REC_CREATE does nothing if it fails. -/
theorem Machine.few_or_same (inv : s.core.Inv) (returned : s.exec cmd = some t)
    (few : ∀ u, s.Succeeds cmd u → FewRecs s.core cmd) : FewRecs s.core cmd ∨ t.core = s.core := by
  rcases Machine.exec_eq_some.mp returned with done | ⟨e, u, failed, rfl⟩
  · exact .inl (few t done)
  · cases cmd with
    | recCreate desc rc ptr =>
      exact .inr ((wp_error (recCreate_spec (s := s.start) desc rc ptr inv rfl rfl rfl rfl rfl) failed).2.1 e rfl)
    | _ => exact .inl fun _ => False.elim

/-- Runs in which REC_CREATE never succeeds with 255 RECs in place. -/
def Machine.ReachableFew (s : Machine) : Prop :=
  s.ReachableVia fun s cmd => ∀ t, s.Succeeds cmd t → FewRecs s.core cmd

/-- What is kept by the moves of every command that keeps RECs few holds in every state of such a run. -/
theorem Machine.ReachableFew.invariant {P : Core → Prop} (reached : s.ReachableFew)
    (initially : ∀ {s : Machine}, s.Initial → P s.core)
    (move : ∀ {c₀ c c' : Core} {cmd : Command}, FewRecs c₀ cmd → c₀.Inv → P c₀ → c.Inv → P c →
      Move c₀ cmd c c' → P c') : P s.core := by
  induction reached with
  | initial start => exact initially start
  | @command s t reached cmd meets returned ih =>
    have inv := reached.reachable.inv
    rcases Machine.few_or_same inv returned meets with few | same
    · exact (Machine.exec_moves inv returned).invariant inv ih fun inv' before next => move few inv ih inv' before next
    · rw [same]
      exact ih
  | @hostWrite s reached addr page valid outside ih =>
    have inv := reached.reachable.inv
    exact move (fun _ => False.elim) inv ih inv ih (Move.hostWrite inv valid outside page)

theorem Machine.Initial.counted (start : s.Initial) : s.core.RecsCounted := by
  refine ⟨fun a => ?_, fun has => nomatch (start.stateOf _).symm.trans has.2⟩
  rw [start.numRecs]
  omega

theorem Machine.ReachableFew.counted (reached : s.ReachableFew) : s.core.RecsCounted :=
  reached.invariant (P := Core.RecsCounted) Machine.Initial.counted
    fun few _ _ inv counted move => (move.effect inv).counted inv few counted

/-- A realm has at most as many RECs as it has been given. -/
def Core.Indexed (c : Core) : Prop := ∀ {a rd}, c.realm? a = some rd → c.numRecs a ≤ rd.recIndex

theorem RdStep.recIndex {rd' : Rd} {events : List Event} (step : RdStep c cmd a rd rd' events) :
    rd'.recIndex = rd.recIndex := by
  cases step <;> rfl

theorem Core.RecsCounted.numRecs_eq_zero (counted : c.RecsCounted) (none : c.realm? a = none) : c.numRecs a = 0 := by
  refine Finset.card_eq_zero.mpr (Finset.filter_eq_empty_iff.mpr fun i inside owned => ?_)
  have bound := Finset.mem_range.mp inside
  have has : c.Has (indexToAddr i) .recCtx :=
    ⟨validateAddr_indexToAddr bound, by rw [Core.stateOf, Core.granule, granuleAddrToIndex_indexToAddr bound]; exact owned.1⟩
  obtain ⟨o, rd, owner, realm⟩ := counted.owned has
  cases owner.symm.trans owned.2
  cases none.symm.trans realm

theorem Effect.indexed (effect : Effect c₀ cmd c c') (inv : c.Inv) (counted : c.RecsCounted) (indexed : c.Indexed) :
    c'.Indexed := by
  intro a rd' realm
  rcases effect.numRecs inv a with less | ⟨_, _, _, rd, _, new⟩
  · refine less.trans ?_
    cases effect.realm inv a with
    | kept same _ => exact indexed (same.symm.trans realm)
    | step before after step _ =>
      cases after.symm.trans realm
      rw [step.recIndex]
      exact indexed before
    | addRec before _ _ after _ =>
      cases after.symm.trans realm
      exact (indexed before).trans (Nat.le_succ _)
    | metadata before _ _ after _ _ _ =>
      cases after.symm.trans realm
      exact (indexed before).trans (Nat.le_refl _)
    | created _ _ before _ _ _ =>
      rw [counted.numRecs_eq_zero before]
      exact Nat.zero_le _
    | ended _ after _ _ => exact nomatch after.symm.trans realm
  · obtain ⟨page, after, _⟩ := new.realm_same
    cases after.symm.trans realm
    rw [new.numRecs_same]
    exact Nat.succ_le_succ (indexed new.realm)

theorem Machine.ReachableFew.indexed (reached : s.ReachableFew) : s.core.Indexed := by
  refine (reached.invariant (P := fun c => c.RecsCounted ∧ c.Indexed) ?_ ?_).2
  · intro s start
    refine ⟨start.counted, fun {a rd} realm => ?_⟩
    rw [start.realm?] at realm
    exact nomatch realm
  · rintro c₀ c c' cmd few _ _ inv ⟨counted, indexed⟩ move
    exact ⟨(move.effect inv).counted inv few counted, (move.effect inv).indexed inv counted fun realm => indexed realm⟩

/-- No realm has been given more than 255 RECs. -/
def Core.FewCreated (c : Core) : Prop := ∀ {a rd}, c.realm? a = some rd → rd.recIndex ≤ 255

/-- The command leaves no realm that has been given more than 255 RECs. -/
def CreatesFew (s : Machine) (cmd : Command) : Prop := ∀ t, s.exec cmd = some t → t.core.FewCreated

theorem CreatesFew.few (creates : CreatesFew s cmd) (inv : s.core.Inv) (indexed : s.core.Indexed) :
    ∀ t, s.Succeeds cmd t → FewRecs s.core cmd := by
  intro t done
  cases cmd with
  | recCreate desc rc ptr =>
    rintro a rfl
    obtain ⟨_, _, _, rd, new, _⟩ :=
      done.post (recCreate_spec (s := s.start) desc rc ptr inv rfl rfl rfl rfl rfl)
    obtain ⟨page, after, _⟩ := new.realm_same
    have bound : rd.recIndex + 1 ≤ 255 := creates t done.exec after
    have := indexed new.realm
    omega
  | _ => exact fun _ => False.elim

/-- If at most 255 RECs are ever created per realm, none is created with 255 RECs in place. -/
theorem Machine.ReachableVia.few (reached : s.ReachableVia CreatesFew) : s.ReachableFew := by
  induction reached with
  | initial start => exact .initial start
  | command reached cmd meets returned ih =>
    exact .command ih cmd (meets.few reached.reachable.inv fun realm => ih.indexed realm) returned
  | hostWrite _ addr page valid outside ih => exact .hostWrite ih addr page valid outside

theorem Machine.exec_fewCreated (inv : s.core.Inv) (returned : s.exec cmd = some t) (few : s.core.FewCreated)
    (room : ∀ {a rd}, CreatesRec cmd a → s.core.realm? a = some rd → rd.recIndex < 255) : t.core.FewCreated := by
  refine (Machine.exec_moves inv returned).invariant (P := Core.FewCreated) inv few ?_
  intro c c' inv' before move a rd realm
  cases (move.effect inv').realm inv' a with
  | kept same => exact before (same.symm.trans realm)
  | step found after step =>
    cases after.symm.trans realm
    rw [step.recIndex]
    exact before found
  | addRec found _ creates after _ start =>
    cases after.symm.trans realm
    exact room creates (start ▸ found)
  | metadata found _ _ after =>
    cases after.symm.trans realm
    exact (before found :)
  | created _ _ _ fresh after =>
    cases after.symm.trans realm
    rw [fresh.recIndex]
    omega
  | ended _ after => exact nomatch after.symm.trans realm

theorem Machine.ReachableVia.prepared (reached : s.ReachableVia Prepares) :
    s.ReachableVia CreatesFew ∧ s.core.FewCreated := by
  induction reached with
  | initial start =>
    refine ⟨.initial start, fun {a rd} realm => ?_⟩
    rw [start.realm?] at realm
    exact nomatch realm
  | command before cmd meets returned ih =>
    have inv := before.reachable.inv
    have few : CreatesFew _ cmd := fun _ returned _ _ realm =>
      Machine.exec_fewCreated inv returned (fun before => ih.2 before) meets.2 realm
    exact ⟨.command ih.1 cmd few returned, fun realm => few _ returned realm⟩
  | hostWrite before addr page valid outside ih =>
    have inv := before.reachable.inv
    refine ⟨.hostWrite ih.1 addr page valid outside, fun {a rd} realm => ?_⟩
    refine ih.2 ((realm?_setContent (fun isRd => ?_) a).symm.trans realm)
    exact nomatch ((inv.gpt addr valid).mpr outside).symm.trans isRd

open Sample in
omit [Platform] in
/-- Two RECs are counted as two. -/
example : ∃ _ : Platform, staffed.core.refCount (bankAt 0) = 2 := ⟨platform, by decide +kernel⟩

/-! ### Creation of a REC -/

/-- VMIDs have sixteen bits. -/
theorem Machine.Reachable.vmid_lt (reached : s.Reachable) (realm : s.core.realm? a = some rd) : rd.vmid < 2 ^ 16 := by
  refine reached.invariant (P := fun c => ∀ {a rd}, c.realm? a = some rd → rd.vmid < 2 ^ 16) ?_ ?_ realm
  · intro s start a rd realm
    rw [start.realm?] at realm
    exact nomatch realm
  · intro c₀ c c' cmd _ _ inv small move a rd realm
    cases (move.effect inv).realm inv a with
    | kept same => exact small (same.symm.trans realm)
    | step before after step =>
      cases after.symm.trans realm
      exact (congrArg Layout.vmid step.layout.1).trans_lt (small before)
    | addRec before _ _ after =>
      cases after.symm.trans realm
      exact (small before :)
    | metadata before _ _ after =>
      cases after.symm.trans realm
      exact (small before :)
    | created _ _ _ fresh after =>
      cases after.symm.trans realm
      exact fresh.vmid
    | ended _ after => exact nomatch after.symm.trans realm

/-- The two fields of `VTTBR_EL2`. -/
theorem vttbrOf_fields (inv : s.core.Inv) (realm : s.core.realm? a = some rd) (small : rd.vmid < 2 ^ 16) :
    (getMaskedValue (vttbrOf rd rd.tables) (defineMask 63 48)).toNat = rd.vmid ∧
      2 * (getMaskedValue (vttbrOf rd rd.tables) (defineMask 47 1)).toNat = rd.rttBase := by
  obtain ⟨positive, _⟩ := (inv.realms.shape realm).num_le
  have valid : validateAddr rd.rttBase = true := by
    simpa [Rd.rootAt] using (inv.root realm positive).1
  rw [validateAddr_iff] at valid
  have vmid : (BitVec.ofNat 64 rd.id).toNat = rd.vmid := by
    rw [Rd.id, BitVec.toNat_ofNat, Nat.mod_eq_of_lt (by omega)]
  have base : (BitVec.ofNat 64 rd.tables.base >>> 1).toNat = rd.rttBase / 2 := by
    rw [BitVec.toNat_ushiftRight, BitVec.toNat_ofNat, Nat.shiftRight_eq_div_pow, Nat.mod_eq_of_lt]
    · rfl
    · change rd.rttBase < _
      omega
  unfold vttbrOf
  constructor
  · rw [getMaskedValue_or, getMaskedValue_of_inside (bitsInReg_inside (BitVec.ofNat 64 rd.tables.base >>> 1)) (by decide), BitVec.or_zero,
      toNat_getMaskedValue_bitsInReg (by decide) (by decide) (by rw [vmid]; exact small), vmid]
  · rw [getMaskedValue_or, getMaskedValue_of_inside (bitsInReg_inside (BitVec.ofNat 64 rd.id)) (by decide), BitVec.zero_or,
      toNat_getMaskedValue_bitsInReg (by decide) (by decide) (by rw [base]; omega), base]
    omega

/-- REC_CREATE that fails changes nothing. If it succeeds, the REC and its sixteen auxiliary granules are the granules
that change their state, the realm counts one more REC and vCPU, and the REC has the returned number and translates
through the realm's tables. -/
theorem Machine.Reachable.rec_creation (reached : s.Reachable) (rdW recW ptrW : Word) :
    (∀ {e t}, s.handle (.recCreate rdW recW ptrW) = (.error (.error e), t) → t.core = s.core) ∧
    ∀ {t}, s.Succeeds (.recCreate rdW recW ptrW) t →
      ∃ (rd rd' : Rd) (aux : Fin maxRecAuxGranules → Nat), Function.Injective aux ∧ (∀ i, aux i ≠ recW.toNat) ∧
        {x | validateAddr x = true ∧ t.core.stateOf x ≠ s.core.stateOf x} = insert recW.toNat (Set.range aux) ∧
        (s.core.Has recW.toNat .delegated ∧ t.core.Has recW.toNat .recCtx) ∧
        (∀ i, s.core.Has (aux i) .delegated ∧ t.core.Has (aux i) .recAux) ∧
        s.core.realm? rdW.toNat = some rd ∧ t.core.realm? rdW.toNat = some rd' ∧
        rd'.recIndex = rd.recIndex + 1 ∧ rd'.vcpuIndex = rd.vcpuIndex + 1 ∧
        (t.core.mem recW.toNat).asRec.vcpuid = t.ret 1 ∧
        (getMaskedValue (t.core.mem recW.toNat).asRec.context.vttbr (defineMask 63 48)).toNat = rd.vmid ∧
        2 * (getMaskedValue (t.core.mem recW.toNat).asRec.context.vttbr (defineMask 47 1)).toNat = rd.rttBase := by
  have inv := reached.inv
  have spec := recCreate_spec (s := s.start) rdW recW ptrW inv rfl rfl rfl rfl rfl
  refine ⟨fun {e t} failed => (wp_error spec failed).2.1 e rfl, fun {t} done => ?_⟩
  obtain ⟨_, _, sound, rd, new, ret⟩ := done.post spec
  change RecParams.Sound ⟨(s.core.mem ptrW.toNat).words⟩ s.core rdW.toNat recW.toNat at sound
  obtain ⟨page, found, _⟩ := new.realm_same
  obtain ⟨_, _, _, sameAux, vcpuid, vttbr, _⟩ := Rec.created_spec rdW.toNat rd.vcpuIndex
    ⟨(s.start.core.mem ptrW.toNat).words⟩ (vttbrOf rd rd.tables) (Platform.vtcr rd.s2StartingLevel rd.ipaBits) rd.sveEn
  have fields := vttbrOf_fields inv new.realm (reached.vmid_lt new.realm)
  have context : (t.core.mem recW.toNat).asRec = _ := congrArg Content.asRec new.context
  have isAux (i : Fin maxRecAuxGranules) :
      t.core.stateOf (RecParams.aux ⟨(s.core.mem ptrW.toNat).words⟩ i) = .recAux := by
    rw [← new.isAux i i.isLt, Rd.newRec, sameAux]
    rfl
  refine ⟨rd, rd.addRec page, fun i => RecParams.aux ⟨(s.core.mem ptrW.toNat).words⟩ i, fun i j same => ?_,
    fun i => (sound.aux i i.isLt).2.1, ?_, ⟨⟨new.valid, new.state⟩, new.valid, new.isRec⟩,
    fun i => ⟨(sound.aux i i.isLt).1, (sound.aux i i.isLt).1.1, isAux i⟩, new.realm, found, rfl, rfl, ?_, ?_⟩
  · rcases Nat.lt_trichotomy i.val j.val with lower | equal | higher
    · exact absurd same.symm (sound.apart j j.isLt i lower)
    · exact Fin.ext equal
    · exact absurd same (sound.apart i i.isLt j higher)
  · ext x
    rw [Set.mem_insert_iff, Set.mem_range]
    constructor
    · rintro ⟨valid, changed⟩
      by_contra other
      rw [not_or, not_exists] at other
      refine changed (new.others x valid other.1 fun i inside same => other.2 ⟨i, inside⟩ ?_)
      rw [same]
      exact (congrFun sameAux i).symm
    · rintro (rfl | ⟨i, rfl⟩)
      · refine ⟨new.valid, ?_⟩
        rw [new.isRec, show s.core.stateOf _ = .delegated from new.state]
        exact nofun
      · refine ⟨(sound.aux i i.isLt).1.1, ?_⟩
        rw [isAux, (sound.aux i i.isLt).1.2]
        exact nofun
  · rw [context, ret]
    exact vcpuid
  · rw [context]
    change (getMaskedValue (Rec.created ..).context.vttbr _).toNat = _ ∧ _
    rw [vttbr]
    exact fields

open Sample in
omit [Platform] in
/-- The first REC of a realm. -/
theorem rec_creation_first : ∃ _ : Platform, ∃ s t : Machine, s.Reachable ∧ s.Succeeds (takeRec 2) t ∧
    s.core.Has (bankAt 2) .delegated ∧ t.core.Has (bankAt 2) .recCtx := by
  let s := Machine.prepared (Action.delegates 19 ++ Action.newRealm 1 39 ++ [.write hostPage (recPage 0 0 3)])
  have reached : s.Reachable := (Machine.prepared_via _).reachable
  have done : s.Succeeds (takeRec 2) (s.handle (takeRec 2)).2 := Machine.succeeds_of_result (by decide +kernel)
  obtain ⟨_, _, _, _, _, _, becomes, _⟩ := (reached.rec_creation _ _ _).2 done
  exact ⟨platform, s, _, reached, done, becomes⟩

end Islet.Rmm
