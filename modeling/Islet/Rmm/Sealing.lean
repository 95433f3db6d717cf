import Islet.Rmm.Calls
import Islet.Rmm.Image

/-! Sealing keys. A key is derived from a hardware key and from bytes that say for whom it is: the flags of the request,
the realm's personalization value, and, as the flags ask, parts of its measurement and metadata. Parts that are not
asked for are left zero. The bytes have a fixed layout, so that equal bytes were made for realms that agree
in everything that was put there. -/

namespace Islet.Rmm

open Lib Prog Bits Rmi HashContext

variable [Platform] {s t u : Machine} {c c' c₀ : Core} {cmd : Command} {a r o : Nat} {rd : Rd} {step : RealmStep}
  {flags svn : Word}

/-! ### The key material -/

namespace Rsi

abbrev slkRim : Word := 1#64 <<< 1
abbrev slkRealmId : Word := 1#64 <<< 2
abbrev slkSvn : Word := 1#64 <<< 3

abbrev isletRealmSealingKeyCmd : Nat := 0xC7000191

/-- `realm_sealing_key` up to the key derivation: whether VHUK_M is used, and the bytes of `KdfInfo`. -/
def sealingInput (rd : Rd) (flags svn : Word) : RmmM (Bool × List Byte) := do
  let (publicKey, realmId, usedSvn) ← match rd.metadata with
    | some metaAddr => inScope (metadataMaterial metaAddr flags svn)
    | none => pure (zeros 96, zeros 128, 0)
  let rim :=
    if flags &&& slkRim ≠ 0 ∨ rd.metadata.isNone then (rd.measurements.get 0).toList else zeros 64
  pure (flags &&& 1 != 0, kdfInfo publicKey realmId rd.rpv rim flags usedSvn)

theorem realmSealingKey_eq (rd : Rd) (flags svn : Word) : realmSealingKey rd flags svn =
    inScope (sealingInput rd flags svn >>= fun input => orInput (Platform.sealingKey input.1 input.2)) := by
  unfold realmSealingKey sealingInput
  cases rd.metadata with
  | none => rfl
  | some m => simp only [bind_assoc]; rfl

end Rsi

/-- The metadata of a realm, if it has any. -/
def Core.metadataOf (c : Core) (rd : Rd) : Option RealmMetadata := rd.metadata.map fun m => ⟨(c.mem m).words⟩

/-- The SVN that the request names is not above the one in the metadata. -/
def Core.AllowsSvn (c : Core) (rd : Rd) (flags svn : Word) : Prop :=
  ∀ metadata ∈ c.metadataOf rd, flags &&& Rsi.slkSvn ≠ 0 → svn.toNat ≤ metadata.svn

/-- The bytes of `KdfInfo` for a realm: what is not there or not asked for is zero. -/
def Core.kdfBytes (c : Core) (rd : Rd) (flags svn : Word) : List Byte :=
  Rsi.kdfInfo (((c.metadataOf rd).map RealmMetadata.publicKey).getD (zeros 96))
    (if flags &&& Rsi.slkRealmId ≠ 0 then ((c.metadataOf rd).map RealmMetadata.realmId).getD (zeros 128) else zeros 128)
    rd.rpv (if flags &&& Rsi.slkRim ≠ 0 ∨ rd.metadata.isNone then rd.rim.toList else zeros 64) flags
    (if rd.metadata.isSome ∧ flags &&& Rsi.slkSvn ≠ 0 then svn else 0)

theorem Serving.wp_sealingInput {ok : Bool × List Byte → Machine → Prop} {err' : Halt → Machine → Prop}
    (serving : Serving t r o rd)
    (bad : ¬t.core.AllowsSvn rd flags svn → err' (.error .rmiErrorInput) { t with held := [granuleAddrToIndex o, granuleAddrToIndex r] })
    (good : t.core.AllowsSvn rd flags svn → ok (flags &&& 1 != 0, t.core.kdfBytes rd flags svn)
      { t with held := [granuleAddrToIndex o, granuleAddrToIndex r] }) :
    wp (Rsi.sealingInput rd flags svn) ok err' { t with held := [granuleAddrToIndex o, granuleAddrToIndex r] } := by
  unfold Rsi.sealingInput
  cases has : rd.metadata with
  | none =>
    have bare : t.core.metadataOf rd = none := by rw [Core.metadataOf, has]; rfl
    rw [wp_bind, wp_pure]
    dsimp only
    rw [wp_pure]
    rw [Core.AllowsSvn, Core.kdfBytes, bare, has] at good
    simp only [Option.map_none, Option.getD_none, ite_self, Option.isSome_none, Bool.false_eq_true, false_and, if_false] at good
    exact good nofun
  | some m =>
    have given : t.core.metadataOf rd = some ⟨(t.core.mem m).words⟩ := by rw [Core.metadataOf, has]; rfl
    rw [Core.AllowsSvn, given] at bad
    rw [Core.AllowsSvn, Core.kdfBytes, given, has] at good
    simp only [Option.map_some, Option.getD_some, Option.isSome_some, true_and] at good
    obtain ⟨validM, state, other⟩ := serving.inv.metadata_ne serving.realm has
    have notRec : m ≠ r := by
      rintro rfl
      exact nomatch serving.has.2.symm.trans state
    rw [wp_bind]
    refine wp_inScope ?_
    unfold Rsi.metadataMaterial
    rw [wp_bind]
    refine wp_getGranuleIf_free validM state ?_ ?_
    · rw [List.mem_cons, List.mem_singleton, granuleAddrToIndex_inj validM serving.has.1,
        granuleAddrToIndex_inj validM (Core.realm?_eq_some.mp serving.realm).1, not_or]
      exact ⟨other, notRec⟩
    rw [wp_bind, wp_contentPage, indexToAddr_granuleAddrToIndex validM, wp_bind]
    refine wp_errIf (fun high => bad fun allows => ?_) fun fine => ?_
    · exact Nat.not_le_of_lt high.2 (allows _ rfl high.1)
    · rw [wp_pure]
      dsimp only
      rw [wp_pure]
      refine good ?_
      rintro _ ⟨⟩ asked
      exact Nat.not_lt.mp fun high => fine ⟨asked, high⟩

/-! ### Requests -/

/-- The handler of the exit gives the REC at `r` a key. -/
def Machine.SealsKey (u : Machine) (r : Nat) (step : RealmStep) : Prop :=
  wp (Rmi.handleRealmExit (granuleAddrToIndex r) step) (fun _ v => (v.core.mem r).asRec.getReg 0 = Rsi.success)
    (fun _ _ => False) u

theorem Serving.sealsKey_iff (serving : Serving t r o rd) (isRsi : step.IsRsi)
    (registers : (t.core.mem r).asRec.getReg = step.context.gpRegs)
    (number : (step.context.gpRegs 0).toNat = Rsi.isletRealmSealingKeyCmd) :
    t.SealsKey r step ↔ t.core.AllowsSvn rd (step.context.gpRegs 1) (step.context.gpRegs 2) ∧
      Platform.sealingKey (step.context.gpRegs 1 &&& 1 != 0)
        (t.core.kdfBytes rd (step.context.gpRegs 1) (step.context.gpRegs 2)) ≠ none := by
  refine wp_iff_of_decides (wp_callsHandler isRsi (by rw [number]; rfl) ?_)
  unfold Rsi.isletRealmSealingKey
  rw [wp_bind, wp_contentRec, indexToAddr_granuleAddrToIndex serving.has.1, registers]
  refine serving.wp_ownerRd ?_
  dsimp only
  rw [wp_bind, Rsi.realmSealingKey_eq]
  have refused : ∀ {P : Prop} {err' : Halt → Machine → Prop}, ¬P → wp (Rsi.answer (granuleAddrToIndex r) Rsi.errorInput)
      (fun _ v => (({ v with held := t.held } : Machine).core.mem r).asRec.getReg 0 = Rsi.success ↔ P) err'
      { t with held := [granuleAddrToIndex o, granuleAddrToIndex r] } := by
    intro P err' no
    unfold Rsi.answer
    rw [wp_bind, wp_modifyRec serving.has.1, wp_pure]
    refine iff_of_false (fun done => ?_) no
    change ((t.core.setContent r _).mem r).asRec.getReg 0 = _ at done
    rw [Core.mem_setContent_same, Content.asRec_recCtx, Rec.getReg_setReg_same _ (by omega)] at done
    exact absurd done (by decide)
  refine wp_result (wp_inScope ?_)
  rw [wp_bind]
  refine serving.wp_sealingInput (fun high => refused fun both => high both.1) fun allows => ?_
  refine wp_orInput (fun none => refused fun both => both.2 none) fun key some => ?_
  rw [wp_bind, wp_modifyRec serving.has.1]
  unfold Rsi.answer
  rw [wp_bind, wp_modifyRec serving.has.1, wp_pure]
  refine iff_of_true ?_ ⟨allows, by rw [some]; exact nofun⟩
  change ((Core.setContent _ r _).mem r).asRec.getReg 0 = _
  rw [Core.mem_setContent_same, Content.asRec_recCtx, Rec.getReg_setReg_same _ (by omega)]

/-- A REC of the realm `rd` asks for a sealing key, in some run of the system, and gets one. -/
structure SealingRequest (u : Machine) (r o : Nat) (rd : Rd) (flags svn : Word) : Prop where
  answered : ∃ (s : Machine) (recW runW : Word) (before : List RealmStep) (step : RealmStep), recW.toNat = r ∧
    s.Reachable ∧ s.Exits recW runW before step u ∧ step.IsRsi ∧
    (step.context.gpRegs 0).toNat = Rsi.isletRealmSealingKeyCmd ∧ step.context.gpRegs 1 = flags ∧
    step.context.gpRegs 2 = svn ∧ u.SealsKey r step
  owner : (u.core.mem r).asRec.owner = some o
  realm : u.core.realm? o = some rd

/-- The monitor derives the key of the request from `input`: the choice of the hardware key, and the bytes of
`KdfInfo`. -/
def Machine.DerivesFrom (u : Machine) (r o : Nat) (rd : Rd) (flags svn : Word) (input : Bool × List Byte) : Prop :=
  (Rsi.sealingInput rd flags svn).run { u with held := [granuleAddrToIndex o, granuleAddrToIndex r] } =
    (.ok input, { u with held := [granuleAddrToIndex o, granuleAddrToIndex r] })

/-- The personalization values of all realms have their 64 bytes. -/
def Core.Personal (c : Core) : Prop := ∀ {a rd}, c.realm? a = some rd → rd.rpv.length = 64

theorem RdStep.rpv {rd' : Rd} {events : List Event} (step : RdStep c cmd a rd rd' events) : rd'.rpv = rd.rpv := by
  cases step <;> rfl

theorem Effect.personal (effect : Effect c₀ cmd c c') (inv : c.Inv) (personal : c.Personal) : c'.Personal := by
  intro a rd realm
  cases effect.realm inv a with
  | kept kept _ =>
    rw [kept] at realm
    exact personal realm
  | step found after step _ =>
    cases after.symm.trans realm
    rw [step.rpv]
    exact personal found
  | addRec found _ _ after _ =>
    cases after.symm.trans realm
    have before := personal found
    exact before
  | metadata found _ _ after _ _ _ =>
    cases after.symm.trans realm
    have before := personal found
    exact before
  | created _ _ _ fresh after _ =>
    cases after.symm.trans realm
    rw [fresh.rpv]
    exact Page.length_slice _ (by omega)
  | ended _ after _ => exact nomatch after.symm.trans realm

theorem Machine.Reachable.personal (reached : s.Reachable) : s.core.Personal := by
  refine reached.invariant (P := Core.Personal) ?_ ?_
  · intro s start a rd realm
    rw [start.realm?] at realm
    exact nomatch realm
  · intro c₀ c c' cmd _ _ inv personal move
    exact (move.effect inv).personal inv fun realm => personal realm

/-- What holds of the state in which a key is asked for. -/
theorem SealingRequest.facts (request : SealingRequest u r o rd flags svn) :
    Serving u r o rd ∧ u.core.AllowsSvn rd flags svn ∧ u.core.Bound ∧ rd.rpv.length = 64 := by
  obtain ⟨s, recW, runW, before, step, rfl, reached, exits, isRsi, number, rfl, rfl, seals⟩ := request.answered
  have inv := reached.inv
  obtain ⟨o', atExit⟩ := exits.atExit inv fun _ => id
  obtain ⟨rd', serving⟩ := atExit.serving inv
  cases serving.owner.symm.trans request.owner
  cases serving.realm.symm.trans request.realm
  have moves := atExit.kept.moves
  have bound : u.core.Bound := fun realm has => moves.invariant (P := Core.Bound) inv (fun realm has => reached.bound realm has)
    (fun inv bound move => (move.effect inv).bound inv (move.inv inv) fun realm has => bound realm has) realm has
  have personal : u.core.Personal := fun realm => moves.invariant (P := Core.Personal) inv
    (fun realm => reached.personal realm) (fun inv personal move => (move.effect inv).personal inv fun realm => personal realm)
    realm
  exact ⟨serving, ((serving.sealsKey_iff isRsi atExit.registers number).mp seals).1, bound, personal serving.realm⟩

theorem SealingRequest.derives (request : SealingRequest u r o rd flags svn) :
    u.DerivesFrom r o rd flags svn (flags &&& 1 != 0, u.core.kdfBytes rd flags svn) := by
  obtain ⟨serving, allows, _⟩ := request.facts
  exact run_of_wp (serving.wp_sealingInput (fun high => absurd allows high) fun _ => ⟨rfl, rfl⟩)

/-! ### Separation -/

omit [Platform] in
/-- `KdfInfo` gives all of its fields back. -/
theorem Rsi.kdfInfo_inj {key id rpv rim key' id' rpv' rim' : List Byte} {flags svn flags' svn' : Word}
    (same : kdfInfo key id rpv rim flags svn = kdfInfo key' id' rpv' rim' flags' svn') (ids : id.length = id'.length)
    (rpvs : rpv.length = rpv'.length) (rims : rim.length = rim'.length) :
    key = key' ∧ id = id' ∧ rpv = rpv' ∧ flags = flags' ∧ rim = rim' ∧ svn = svn' := by
  have words : ∀ w w' : Word, (Page.wordBytes w).length = (Page.wordBytes w').length := fun w w' => by
    rw [Page.length_wordBytes, Page.length_wordBytes]
  unfold kdfInfo at same
  obtain ⟨same, svns⟩ := List.append_inj' same (words _ _)
  obtain ⟨same, _⟩ := List.append_inj' same rfl
  obtain ⟨same, rim⟩ := List.append_inj' same rims
  obtain ⟨same, flag⟩ := List.append_inj' same (words _ _)
  obtain ⟨same, rpv⟩ := List.append_inj' same rpvs
  obtain ⟨key, id⟩ := List.append_inj' same ids
  exact ⟨key, id, rpv, Page.wordBytes_inj flag, rim, Page.wordBytes_inj svns⟩

/-- Two realms agree in all that their requests name. -/
structure SealedAlike (c₁ c₂ : Core) (rd₁ rd₂ : Rd) (flags₁ flags₂ svn₁ svn₂ : Word) : Prop where
  flags : flags₁ = flags₂
  rpv : rd₁.rpv = rd₂.rpv
  /-- Both have metadata of the same signer, or neither has metadata. -/
  signer : (c₁.metadataOf rd₁).map RealmMetadata.publicKey = (c₂.metadataOf rd₂).map RealmMetadata.publicKey
  rim : rd₁.metadata = none ∧ rd₂.metadata = none ∨ flags₁ &&& Rsi.slkRim ≠ 0 → rd₁.rim = rd₂.rim
  realmId : flags₁ &&& Rsi.slkRealmId ≠ 0 →
    (c₁.metadataOf rd₁).map RealmMetadata.realmId = (c₂.metadataOf rd₂).map RealmMetadata.realmId
  svn : rd₁.metadata ≠ none → flags₁ &&& Rsi.slkSvn ≠ 0 → svn₁ = svn₂
  allowed : flags₁ &&& Rsi.slkSvn ≠ 0 → (∀ metadata ∈ c₁.metadataOf rd₁, svn₁.toNat ≤ metadata.svn) ∧
    ∀ metadata ∈ c₂.metadataOf rd₂, svn₂.toNat ≤ metadata.svn

omit [Platform] in
theorem RealmMetadata.length_realmId (m : RealmMetadata) : m.realmId.length = 128 :=
  Page.length_slice _ (by omega)

/-- The bytes of `KdfInfo` separate realms: zeros in the place of a key are no key. -/
theorem sealedAlike_of_bytes {c₁ c₂ : Core} {rd₁ rd₂ : Rd} {flags₁ flags₂ svn₁ svn₂ : Word}
    (keys₁ : ∀ metadata ∈ c₁.metadataOf rd₁, metadata.publicKey ≠ zeros 96)
    (keys₂ : ∀ metadata ∈ c₂.metadataOf rd₂, metadata.publicKey ≠ zeros 96)
    (rpv₁ : rd₁.rpv.length = 64) (rpv₂ : rd₂.rpv.length = 64) (allows₁ : c₁.AllowsSvn rd₁ flags₁ svn₁)
    (allows₂ : c₂.AllowsSvn rd₂ flags₂ svn₂)
    (same : c₁.kdfBytes rd₁ flags₁ svn₁ = c₂.kdfBytes rd₂ flags₂ svn₂) :
    SealedAlike c₁ c₂ rd₁ rd₂ flags₁ flags₂ svn₁ svn₂ := by
  have rims : ∀ {p q : Prop} [Decidable p] [Decidable q], (if p then rd₁.rim.toList else zeros 64).length =
      (if q then rd₂.rim.toList else zeros 64).length := by
    intro p q _ _
    split <;> split <;> simp [zeros]
  have ids : ∀ {p : Prop} [Decidable p] (m : Option RealmMetadata),
      (if p then (m.map RealmMetadata.realmId).getD (zeros 128) else zeros 128).length = 128 := by
    intro p _ m
    split
    · cases m with
      | none => simp [zeros]
      | some m =>
        rw [Option.map_some, Option.getD_some]
        exact m.length_realmId
    · simp [zeros]
  obtain ⟨key, id, rpv, rfl, rim, svn⟩ := Rsi.kdfInfo_inj same ((ids _).trans (ids _).symm) (rpv₁.trans rpv₂.symm) rims
  have none_iff : ∀ {c : Core} {rd : Rd}, c.metadataOf rd = none ↔ rd.metadata = none := Option.map_eq_none_iff
  have both : c₁.metadataOf rd₁ = none ∧ c₂.metadataOf rd₂ = none ∨
      ∃ m₁ m₂, c₁.metadataOf rd₁ = some m₁ ∧ c₂.metadataOf rd₂ = some m₂ := by
    cases has₁ : c₁.metadataOf rd₁ with
    | none =>
      cases has₂ : c₂.metadataOf rd₂ with
      | none => exact .inl ⟨rfl, rfl⟩
      | some m₂ =>
        simp only [has₁, has₂, Option.map_none, Option.getD_none, Option.map_some, Option.getD_some] at key
        exact absurd key.symm (keys₂ m₂ has₂)
    | some m₁ =>
      cases has₂ : c₂.metadataOf rd₂ with
      | none =>
        simp only [has₁, has₂, Option.map_none, Option.getD_none, Option.map_some, Option.getD_some] at key
        exact absurd key (keys₁ m₁ has₁)
      | some m₂ => exact .inr ⟨m₁, m₂, rfl, rfl⟩
  refine ⟨rfl, rpv, ?_, fun asked => ?_, fun asked => ?_, fun some asked => ?_, fun asked => ⟨fun m has => allows₁ m has asked,
    fun m has => allows₂ m has asked⟩⟩
  · rcases both with ⟨none₁, none₂⟩ | ⟨m₁, m₂, some₁, some₂⟩
    · rw [none₁, none₂]
    · simp only [some₁, some₂, Option.map_some, Option.getD_some] at key ⊢
      rw [key]
  · have asked₁ : flags₁ &&& Rsi.slkRim ≠ 0 ∨ rd₁.metadata.isNone := asked.symm.imp_right fun none => by rw [none.1]; rfl
    have asked₂ : flags₁ &&& Rsi.slkRim ≠ 0 ∨ rd₂.metadata.isNone := asked.symm.imp_right fun none => by rw [none.2]; rfl
    rw [if_pos asked₁, if_pos asked₂] at rim
    exact Vector.toList_inj.mp rim
  · rw [if_pos asked, if_pos asked] at id
    rcases both with ⟨none₁, none₂⟩ | ⟨m₁, m₂, some₁, some₂⟩
    · rw [none₁, none₂]
    · simp only [some₁, some₂, Option.map_some, Option.getD_some] at id ⊢
      rw [id]
  · have other : rd₂.metadata ≠ none := by
      rcases both with ⟨none₁, _⟩ | ⟨_, m₂, _, some₂⟩
      · exact absurd (none_iff.mp none₁) some
      · exact fun none => by cases some₂.symm.trans (none_iff.mpr none)
    rwa [if_pos ⟨Option.isSome_iff_ne_none.mpr some, asked⟩, if_pos ⟨Option.isSome_iff_ne_none.mpr other, asked⟩] at svn

/-- Two requests whose keys are derived from the same input name the same flags, and come from realms that agree in all
that the flags ask for. -/
theorem SealingRequest.keys_separated {u₁ u₂ : Machine} {r₁ r₂ o₁ o₂ : Nat} {rd₁ rd₂ : Rd} {flags₁ flags₂ svn₁ svn₂ : Word}
    (genuine : ∀ page, Platform.verifySignature page = true → RealmMetadata.publicKey ⟨page⟩ ≠ zeros 96)
    (first : SealingRequest u₁ r₁ o₁ rd₁ flags₁ svn₁) (second : SealingRequest u₂ r₂ o₂ rd₂ flags₂ svn₂) :
    ∃ input₁ input₂, u₁.DerivesFrom r₁ o₁ rd₁ flags₁ svn₁ input₁ ∧ u₂.DerivesFrom r₂ o₂ rd₂ flags₂ svn₂ input₂ ∧
      (input₁ = input₂ → SealedAlike u₁.core u₂.core rd₁ rd₂ flags₁ flags₂ svn₁ svn₂) := by
  obtain ⟨_, allows₁, bound₁, rpv₁⟩ := first.facts
  obtain ⟨_, allows₂, bound₂, rpv₂⟩ := second.facts
  have keys : ∀ {c : Core} {o : Nat} {rd : Rd}, c.Bound → c.realm? o = some rd →
      ∀ metadata ∈ c.metadataOf rd, metadata.publicKey ≠ zeros 96 := by
    intro c o rd bound realm metadata has
    obtain ⟨m, given, rfl⟩ := Option.map_eq_some_iff.mp has
    exact genuine _ (bound realm given).signed
  exact ⟨_, _, first.derives, second.derives, fun same => sealedAlike_of_bytes (keys bound₁ first.realm)
    (keys bound₂ second.realm) rpv₁ rpv₂ allows₁ allows₂ (congrArg Prod.snd same)⟩

namespace Keys

/-- A machine that derives keys, and accepts no metadata. -/
scoped instance platform : Platform :=
  { (default : Platform) with
    verifySignature := fun _ => false
    sealingKey := fun _ _ => some fun _ => 0 }

end Keys

/-- The registers of a request for a sealing key. -/
def sealingRegisters (flags svn : Word) : Nat → Word := fun i =>
  if i = 0 then BitVec.ofNat 64 Rsi.isletRealmSealingKeyCmd else if i = 1 then flags else if i = 2 then svn else 0

open Keys in
omit [Platform] in
/-- Two requests of a realm without metadata that differ in the SVN, which is not used. -/
theorem keys_separated_svn : ∃ _ : Platform, ∃ (u₁ u₂ : Machine) (r o : Nat) (rd : Rd),
    SealingRequest u₁ r o rd 0 1 ∧ SealingRequest u₂ r o rd 0 2 ∧
    ∃ input, u₁.DerivesFrom r o rd 0 1 input ∧ u₂.DerivesFrom r o rd 0 2 input ∧
      SealedAlike u₁.core u₂.core rd rd 0 0 1 2 := by
  have reached := Sample.staffed_via.reachable
  let step (svn : Word) := RealmStep.call (sealingRegisters 0 svn)
  obtain ⟨rd, found, bare⟩ := (Option.any_eq_true (·.metadata.isNone) (Sample.staffed.core.realm? (bankAt 0))).mp
    (by decide +kernel)
  have bare : rd.metadata = none := Option.isNone_iff_eq_none.mp bare
  have exit := fun svn => Sample.staffed.exists_firstExit (BitVec.ofNat 64 (bankAt 5)) (BitVec.ofNat 64 hostPage) (step svn)
    (bankAt 0) fun u _ => u.core.realm? (bankAt 0) = Sample.staffed.core.realm? (bankAt 0)
  have request : ∀ {svn : Word} {u : Machine}, u.core.realm? (bankAt 0) = Sample.staffed.core.realm? (bankAt 0) →
      (u.core.mem (BitVec.ofNat 64 (bankAt 5)).toNat).asRec.owner = some (bankAt 0) →
      Sample.staffed.Exits (BitVec.ofNat 64 (bankAt 5)) (BitVec.ofNat 64 hostPage) [] (step svn) u →
      SealingRequest u (BitVec.ofNat 64 (bankAt 5)).toNat (bankAt 0) rd 0 svn := by
    intro svn u same owner exits
    have realm := same.trans found
    obtain ⟨o, rd', serving, registers⟩ := exits.serving reached.inv
    cases serving.owner.symm.trans owner
    cases serving.realm.symm.trans realm
    have seals := (serving.sealsKey_iff (RealmStep.call_isRsi _) registers rfl).mpr ⟨?_, nofun⟩
    · exact ⟨⟨_, _, _, [], step svn, rfl, reached, exits, RealmStep.call_isRsi _, rfl, rfl, rfl, seals⟩, owner, realm⟩
    · intro metadata given
      rw [Core.metadataOf, bare] at given
      exact nomatch given
  obtain ⟨u₁, _, exits₁, owner₁, _, same₁⟩ := exit 1 (by decide +kernel) (by decide +kernel)
  obtain ⟨u₂, _, exits₂, owner₂, _, same₂⟩ := exit 2 (by decide +kernel) (by decide +kernel)
  have first := request same₁ owner₁ exits₁
  have second := request same₂ owner₂ exits₂
  have genuine : ∀ page, Platform.verifySignature page = true → RealmMetadata.publicKey ⟨page⟩ ≠ zeros 96 := nofun
  obtain ⟨input₁, input₂, derives₁, derives₂, alike⟩ := first.keys_separated genuine second
  have same : u₁.core.kdfBytes rd 0 1 = u₂.core.kdfBytes rd 0 2 := by
    simp only [Core.kdfBytes, Core.metadataOf, bare, Option.map_none, Option.isSome_none, Bool.false_eq_true, false_and, if_false]
  obtain rfl : input₁ = input₂ := by
    cases derives₁.symm.trans first.derives
    cases derives₂.symm.trans second.derives
    rw [same]
  exact ⟨platform, u₁, u₂, _, _, rd, first, second, input₁, derives₁, derives₂, alike rfl⟩

end Islet.Rmm
