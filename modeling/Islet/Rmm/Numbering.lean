import Islet.Rmm.Requests

/-! The numbers of RECs. A realm counts the RECs it has been given twice, and the host
chooses the MPIDR of a REC; REC_CREATE accepts the one whose index is the next number. -/

namespace Islet.Rmm

open Lib Prog Bits Rmi Stage2Translation

/-! ### Indices of MPIDRs -/

/-- The index has the four affinity fields as its digits. -/
theorem Mpidr.index_eq (mpidr : Word) : Mpidr.index mpidr = mpidr.toNat % 16 + 16 * (mpidr.toNat / 2 ^ 8 % 2 ^ 8) +
    16 * 256 * (mpidr.toNat / 2 ^ 16 % 2 ^ 8) + 16 * 256 * 256 * (mpidr.toNat / 2 ^ 24 % 2 ^ 8) := by
  unfold Mpidr.index Mpidr.aff0 Mpidr.aff1 Mpidr.aff2 Mpidr.aff3
  rw [toNat_getMaskedValue_defineMask _ (by omega) (by omega), toNat_getMaskedValue_defineMask _ (by omega) (by omega),
    toNat_getMaskedValue_defineMask _ (by omega) (by omega), toNat_getMaskedValue_defineMask _ (by omega) (by omega)]
  norm_num

/-- An accepted MPIDR has nothing outside of the affinity fields. -/
theorem Mpidr.eq_zero_of_validate {mpidr : Word} (hi lo : Nat) (accepted : Mpidr.validate mpidr = true)
    (ordered : lo ≤ hi) (bound : hi < 64) (outside : ~~~(aff0 ||| aff1 ||| aff2 ||| aff3) &&& defineMask hi lo = defineMask hi lo) :
    mpidr.toNat / 2 ^ lo % 2 ^ (hi + 1 - lo) = 0 := by
  rw [← toNat_getMaskedValue_defineMask mpidr ordered bound, getMaskedValue, ← and_and_of_subset _ outside,
    show mpidr &&& ~~~(aff0 ||| aff1 ||| aff2 ||| aff3) = 0 from beq_iff_eq.mp accepted, BitVec.ofNat_eq_ofNat,
    BitVec.zero_and, BitVec.zero_ushiftRight]
  rfl

theorem Mpidr.index_injOn : Set.InjOn Mpidr.index {mpidr | Mpidr.validate mpidr = true} := by
  intro m accepted m' accepted' same
  have gap := Mpidr.eq_zero_of_validate 7 4 accepted (by omega) (by omega) (by decide)
  have gap' := Mpidr.eq_zero_of_validate 7 4 accepted' (by omega) (by omega) (by decide)
  have high := Mpidr.eq_zero_of_validate 63 32 accepted (by omega) (by omega) (by decide)
  have high' := Mpidr.eq_zero_of_validate 63 32 accepted' (by omega) (by omega) (by decide)
  rw [Mpidr.index_eq, Mpidr.index_eq] at same
  refine BitVec.eq_of_toNat_eq ?_
  omega

variable [Platform] {c₀ c c' : Core} {s : Machine} {cmd : Command} {a o r q : Nat} {rd : Rd}

/-! ### The MPIDR of a REC -/

/-- The MPIDR that REC_CREATE measured last. -/
def measuredMpidr : List Event → Option Word
  | .measured _ (.recCreate page) :: _ => some (RecParams.mk page).mpidr
  | _ => none

/-- The MPIDR that the REC at `r` was created with. -/
def creationMpidr (r : Nat) : List Event → Option Word
  | [] => none
  | .recCreated q :: earlier => if q = r then measuredMpidr earlier else creationMpidr r earlier
  | _ :: earlier => creationMpidr r earlier

omit [Platform] in
theorem creationMpidr_append {events log : List Event} (others : ∀ event ∈ events, event ≠ .recCreated r) :
    creationMpidr r (events ++ log) = creationMpidr r log := by
  induction events with
  | nil => rfl
  | cons event events ih =>
    have other := others event (List.mem_cons_self ..)
    have rest := ih fun event member => others event (List.mem_cons_of_mem _ member)
    cases event with
    | recCreated q => exact (if_neg fun same => other (congrArg Event.recCreated same)).trans rest
    | _ => exact rest

omit [Platform] in
theorem QuietFor.creationMpidr {log log' : List Event} (quiet : QuietFor r log log') :
    creationMpidr r log' = creationMpidr r log := by
  obtain ⟨events, rfl, others⟩ := quiet
  refine creationMpidr_append fun event member same => others event member ?_
  rw [same]
  rfl

theorem RecStep.creationMpidr {rc rc' : Rec} {events : List Event} (step : RecStep c₀ c cmd r rc rc' events) :
    creationMpidr r (events ++ c.log) = creationMpidr r c.log := by
  refine creationMpidr_append fun event member => ?_
  cases step with
  | askCpuOn =>
    cases List.mem_singleton.mp member
    exact nofun
  | _ => exact absurd member (List.not_mem_nil)

/-! ### Numbers along a run -/

/-- The granule `r` has a REC of the realm at `a`. -/
structure Core.OwnsRec (c : Core) (a r : Nat) : Prop where
  has : c.Has r .recCtx
  owner : (c.mem r).asRec.owner = some a

/-- The REC at `r` is as it was, as far as its number is concerned. -/
structure Core.SameNumber (c c' : Core) (r : Nat) : Prop where
  has : c.Has r .recCtx
  owner : (c'.mem r).asRec.owner = (c.mem r).asRec.owner
  vcpuid : (c'.mem r).asRec.vcpuid = (c.mem r).asRec.vcpuid
  mpidr : creationMpidr r c'.log = creationMpidr r c.log

/-- A REC has the number it had, or it has just been created. -/
theorem Effect.sameNumber (effect : Effect c₀ cmd c c') (has : c'.Has r .recCtx) :
    c.SameNumber c' r ∨ ∃ a rd rc, NewRec c c' a r rd rc := by
  cases effect.recMove has.1 has.2 with
  | kept before same quiet => exact .inl ⟨⟨has.1, before⟩, by rw [same], by rw [same], quiet.creationMpidr⟩
  | step before step fixed after log =>
    refine .inl ⟨⟨has.1, before⟩, ?_, ?_, ?_⟩
    · rw [after]
      exact fixed.owner
    · rw [after]
      exact fixed.vcpuid
    · rw [log]
      exact step.creationMpidr
  | enter before _ _ same log => exact .inl ⟨⟨has.1, before⟩, by rw [same], by rw [same], by rw [log]; rfl⟩
  | created _ _ _ _ _ _ _ _ _ new =>
    obtain ⟨rd, new⟩ := new
    exact .inr ⟨_, rd, _, new⟩

/-- The REC at `r` has the number of the MPIDR that it was created with, and it is one of the first `bound`. -/
def Core.HasNumber (c : Core) (r bound : Nat) : Prop :=
  ∃ mpidr, creationMpidr r c.log = some mpidr ∧ Mpidr.validate mpidr = true ∧
    (c.mem r).asRec.vcpuid = Mpidr.index mpidr ∧ (c.mem r).asRec.vcpuid < bound

/-- Every realm has numbered its RECs from 0 on. -/
structure Core.RecsNumbered (c : Core) : Prop extends c.RecsCounted where
  realms : ∀ {a rd}, c.realm? a = some rd → rd.vcpuIndex = rd.recIndex
  recs : ∀ {a r rd}, c.OwnsRec a r → c.realm? a = some rd → c.HasNumber r rd.recIndex
  apart : ∀ {a r q}, c.OwnsRec a r → c.OwnsRec a q → (c.mem r).asRec.vcpuid = (c.mem q).asRec.vcpuid → r = q

/-- A new REC has the next number, by both counts. -/
theorem NewRec.vcpuid_eq {rc : Rec} (new : NewRec c c' a r rd rc) (numbered : c.RecsNumbered) :
    (c'.mem r).asRec.vcpuid = rd.recIndex := by
  rw [new.context]
  exact new.number.trans (numbered.realms new.realm)

theorem NewRec.owner_eq {rc : Rec} (new : NewRec c c' a r rd rc) (owns : c'.OwnsRec o r) : o = a := by
  have owner := owns.owner
  rw [new.context] at owner
  exact Option.some.inj (owner.symm.trans new.owner)

theorem NewRec.hasNumber {rc : Rec} (new : NewRec c c' a r rd rc) (numbered : c.RecsNumbered) :
    c'.HasNumber r (rd.recIndex + 1) := by
  obtain ⟨page, _, log, accepted, index⟩ := new.desc
  have number := new.vcpuid_eq numbered
  refine ⟨(RecParams.mk page).mpidr, ?_, accepted, number.trans index.symm, number.trans_lt (Nat.lt_succ_self _)⟩
  rw [log]
  exact if_pos rfl

theorem Core.SameNumber.owns (same : c.SameNumber c' r) (owns : c'.OwnsRec a r) : c.OwnsRec a r :=
  ⟨same.has, same.owner.symm.trans owns.owner⟩

/-- The number of a REC that was there is below that of a new REC of its realm. -/
theorem Core.SameNumber.ne_new {rc : Rec} (same : c.SameNumber c' q) (new : NewRec c c' a r rd rc)
    (numbered : c.RecsNumbered) (owns : c'.OwnsRec a q) : (c'.mem q).asRec.vcpuid ≠ (c'.mem r).asRec.vcpuid := by
  obtain ⟨_, _, _, _, lower⟩ := numbered.recs (same.owns owns) new.realm
  rw [new.vcpuid_eq numbered, same.vcpuid]
  exact lower.ne

theorem Effect.recsNumbered (effect : Effect c₀ cmd c c') (inv : c.Inv) (few : FewRecs c₀ cmd)
    (numbered : c.RecsNumbered) : c'.RecsNumbered := by
  refine ⟨effect.counted inv few numbered.toRecsCounted, effect.numbered inv numbered.realms,
    fun {a r rd'} owns realm' => ?_, fun {a r q} owns owns' equal => ?_⟩
  · rcases effect.sameNumber owns.has with same | ⟨b, rd, rc, new⟩
    · obtain ⟨o, rd, owner, realm⟩ := numbered.owned same.has
      cases owner.symm.trans (same.owns owns).owner
      obtain ⟨mpidr, made, accepted, index, lower⟩ := numbered.recs (same.owns owns) realm
      rw [Core.HasNumber, same.mpidr, same.vcpuid]
      exact ⟨mpidr, made, accepted, index, lower.trans_le (effect.recIndex inv realm realm').1⟩
    · cases new.owner_eq owns
      obtain ⟨page, found, _⟩ := new.realm_same
      cases found.symm.trans realm'
      exact new.hasNumber numbered
  · rcases effect.sameNumber owns.has with same | ⟨b, rd, rc, new⟩ <;>
      rcases effect.sameNumber owns'.has with same' | ⟨b', rd', rc', new'⟩
    · rw [same.vcpuid, same'.vcpuid] at equal
      exact numbered.apart (same.owns owns) (same'.owns owns') equal
    · cases new'.owner_eq owns'
      exact absurd equal (same.ne_new new' numbered owns)
    · cases new.owner_eq owns
      exact absurd equal.symm (same'.ne_new new numbered owns')
    · -- both have been created by the one command
      obtain ⟨_, _, log, _⟩ := new.desc
      obtain ⟨_, _, log', _⟩ := new'.desc
      rw [log] at log'
      cases log'
      rfl

theorem Machine.ReachableFew.recsNumbered (reached : s.ReachableFew) : s.core.RecsNumbered := by
  refine reached.invariant (P := Core.RecsNumbered) (fun {s} start => ?_)
    fun few _ _ inv numbered move => (move.effect inv).recsNumbered inv few numbered
  have none : ∀ {a r}, ¬s.core.OwnsRec a r := fun owns => nomatch (start.stateOf _).symm.trans owns.has.2
  refine ⟨start.counted, fun {a rd} realm => ?_, fun owns => absurd owns none, fun owns => absurd owns none⟩
  rw [start.realm?] at realm
  exact nomatch realm

/-- In every run in which at most 255 RECs are ever created per realm, the two counts of every realm agree; each REC has
the number of the MPIDR that it was created with, which is below the count; and different RECs of one realm have
different numbers and MPIDRs. Accepted MPIDRs have different indices. -/
theorem vcpus_numbered :
    (∀ {s : Machine}, s.ReachableVia CreatesFew → ∀ {a rd}, s.core.realm? a = some rd →
      rd.vcpuIndex = rd.recIndex ∧
      (∀ {r}, s.core.OwnsRec a r → ∃ mpidr, creationMpidr r s.core.log = some mpidr ∧
        (s.core.mem r).asRec.vcpuid = Mpidr.index mpidr ∧ (s.core.mem r).asRec.vcpuid < rd.recIndex) ∧
      ∀ {r q}, s.core.OwnsRec a r → s.core.OwnsRec a q → r ≠ q →
        (s.core.mem r).asRec.vcpuid ≠ (s.core.mem q).asRec.vcpuid ∧
        creationMpidr r s.core.log ≠ creationMpidr q s.core.log) ∧
    Set.InjOn Mpidr.index {mpidr | Mpidr.validate mpidr = true} := by
  refine ⟨fun {s} reached a rd realm => ?_, Mpidr.index_injOn⟩
  have numbered := reached.few.recsNumbered
  refine ⟨numbered.realms realm, fun owns => ?_, fun {r q} owns owns' other => ?_⟩
  · obtain ⟨mpidr, made, _, index, lower⟩ := numbered.recs owns realm
    exact ⟨mpidr, made, index, lower⟩
  · have apart := fun equal => other (numbered.apart owns owns' equal)
    refine ⟨apart, fun equal => apart ?_⟩
    obtain ⟨mpidr, made, _, index, _⟩ := numbered.recs owns realm
    obtain ⟨mpidr', made', _, index', _⟩ := numbered.recs owns' realm
    cases made.symm.trans (equal.trans made')
    exact index.trans index'.symm

open Sample in
omit [Platform] in
/-- The two RECs of a realm. -/
theorem vcpus_numbered_two : ∃ _ : Platform, ∃ (s : Machine) (r q : Nat), s.ReachableVia CreatesFew ∧
    s.core.OwnsRec (bankAt 0) r ∧ s.core.OwnsRec (bankAt 0) q ∧ (s.core.mem r).asRec.vcpuid = 0 ∧
    (s.core.mem q).asRec.vcpuid = 1 ∧ creationMpidr r s.core.log ≠ creationMpidr q s.core.log := by
  obtain ⟨few, _⟩ := staffed_via.prepared
  have first : staffed.core.OwnsRec (bankAt 0) (bankAt 5) := ⟨by decide +kernel, by decide +kernel⟩
  have second : staffed.core.OwnsRec (bankAt 0) (bankAt 22) := ⟨by decide +kernel, by decide +kernel⟩
  obtain ⟨rd, realm⟩ := Option.isSome_iff_exists.mp (show (staffed.core.realm? (bankAt 0)).isSome by decide +kernel)
  obtain ⟨_, _, apart⟩ := vcpus_numbered.1 few realm
  exact ⟨platform, staffed, _, _, few, first, second, by decide +kernel, by decide +kernel,
    (apart first second (by decide)).2⟩

end Islet.Rmm
