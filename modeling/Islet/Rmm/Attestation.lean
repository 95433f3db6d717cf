import Islet.Rmm.Frames

namespace Islet.Rmm

open Lib Prog Bits Rmi Stage2Translation

variable [Platform] {cmd : Command} {s t u v w : Machine} {r o : Nat} {rd : Rd} {rc : Rec} {step : RealmStep}
  {err' : Halt → Machine → Prop}

/-! ### The attestation of a REC -/

omit [Platform] in
/-- Registers and requests do not touch it. -/
theorem Rec.apart_attest : Rec.Apart Rec.attest :=
  ⟨fun _ _ => rfl, fun _ _ => rfl, fun _ _ => rfl, fun _ _ => rfl, fun _ _ => rfl, fun _ _ => rfl⟩

omit [Platform] in
theorem Rec.attest_setReg (rc : Rec) (i : Nat) (value : Word) : (rc.setReg i value).attest = rc.attest :=
  Rec.apart_attest.setReg rc i value

omit [Platform] in
theorem Rec.sveEn_setReg (rc : Rec) (i : Nat) (value : Word) : (rc.setReg i value).context.sveEn = rc.context.sveEn := by
  unfold Rec.setReg
  split
  · rfl
  · split <;> rfl

/-! ### Parts of a token -/

/-- What `get_token` is given of the realm. -/
structure TokenInput where
  measurements : Vector Measurement measurementsSlotNr
  rpv : List Byte
  hashAlgo : Nat

def Rd.tokenInput (rd : Rd) : TokenInput := ⟨rd.measurements, rd.rpv, rd.hashAlgo⟩

def TokenInput.token? (input : TokenInput) (challenge : List Byte) : Option (List Byte) :=
  Platform.getToken challenge input.measurements input.rpv input.hashAlgo

/-- A part of a token as the realm gets it: the bytes, and whether they are said to be the last ones. -/
structure TokenPart where
  input : TokenInput
  bytes : List Byte
  last : Bool

/-- The challenge of a token, and the parts that the realm has got of it. -/
structure TokenHistory where
  challenge : List Byte
  parts : List TokenPart

def TokenHistory.bytes (h : TokenHistory) : List Byte := h.parts.flatMap TokenPart.bytes

/-- The challenge in the registers of ATTEST_TOKEN_INIT. -/
def Rsi.challengeOf (registers : Nat → Word) : List Byte :=
  (List.range 8).flatMap fun i => Page.wordBytes (registers (i + 1))

/-- ATTEST_TOKEN_CONTINUE returns a part: the bytes are those that the realm finds in the granule of its IPA. -/
def Machine.Gets (u : Machine) (r : Nat) (registers : Nat → Word) (v : Machine) (part : TokenPart) : Prop :=
  ∃ o rd pa, (u.core.mem r).asRec.owner = some o ∧ u.core.realm? o = some rd ∧
    u.core.ipaToPa? rd (registers 1).toNat = some pa ∧ part.input = rd.tokenInput ∧
    part.bytes = (v.core.mem pa).words.slice (registers 2).toNat ((v.core.mem r).asRec.getReg 1).toNat ∧
    (v.core.mem r).asRec.getReg 0 = if part.last then Rsi.success else Rsi.incomplete

/-- The next bytes of the token, for a buffer of `size` bytes. -/
def Rec.nextBytes (rc : Rec) (token : List Byte) (size : Nat) : List Byte :=
  (token.drop rc.attestTokenOffset).take (min size (token.length - rc.attestTokenOffset))

/-- The REC after it has got them. -/
def Rec.given (rc : Rec) (token : List Byte) (size : Nat) : Rec :=
  let part := min size (token.length - rc.attestTokenOffset)
  let after := { rc with attestTokenOffset := rc.attestTokenOffset + part }
  (if token.length - (rc.attestTokenOffset + part) = 0 then
    { after.setReg 0 Rsi.success with attestState := .noAttestInProgress }
  else after.setReg 0 Rsi.incomplete).setReg 1 (BitVec.ofNat 64 (rc.nextBytes token size).length)

/-- The part is in the granule `pa`, and only the REC has changed besides. -/
structure Delivered (t : Machine) (r pa : Nat) (registers : Nat → Word) (token : List Byte) (u : Machine) : Prop where
  page : u.core.mem pa = .raw ((t.core.mem pa).words.storeBytes (registers 2).toNat
    ((t.core.mem r).asRec.nextBytes token (registers 3).toNat))
  recCtx : u.core.mem r = .recCtx ((t.core.mem r).asRec.given token (registers 3).toNat)
  others : ∀ x, x ≠ pa → x ≠ r → u.core.mem x = t.core.mem x
  states : ∀ x, u.core.stateOf x = t.core.stateOf x

/-- The arguments of ATTEST_TOKEN_CONTINUE are accepted. -/
def Core.Accepts (c : Core) (r : Nat) (rd : Rd) (registers : Nat → Word) : Prop :=
  (c.mem r).asRec.attestState = .attestInProgress ∧ validateIpa rd (registers 1).toNat = true ∧
    (registers 2).toNat + (registers 3).toNat ≤ 4096

section Calls

variable (serving : Serving t r o rd) (isRsi : step.IsRsi)
  (registers : (t.core.mem r).asRec.getReg = step.context.gpRegs)
include serving isRsi registers

theorem Serving.wp_tokenInit {ok : Bool × Nat → Machine → Prop}
    (number : (step.context.gpRegs 0).toNat = Rsi.attestTokenInitCmd)
    (next : ∀ rc : Rec, rc.attest = (.attestInProgress, Rsi.challengeOf step.context.gpRegs, 0) →
      rc.context.sveEn = (t.core.mem r).asRec.context.sveEn →
      ok (false, Rsi.rmiSuccessRecEnter) { t with core := t.core.setContent r (.recCtx rc) }) :
    wp (Rmi.handleRealmExit (granuleAddrToIndex r) step) ok err' t := by
  refine wp_callsHandler isRsi (by rw [number]; rfl) ?_
  unfold Rsi.attestTokenInit
  rw [wp_bind, wp_modifyRec serving.has.1, wp_pure]
  refine next _ ?_ ?_
  · rw [Rec.attest_setReg, Rec.attest_setReg]
    simp only [registers]
    rfl
  · rw [Rec.sveEn_setReg, Rec.sveEn_setReg]

theorem Serving.wp_tokenContinue {ok : Bool × Nat → Machine → Prop}
    (number : (step.context.gpRegs 0).toNat = Rsi.attestTokenContinueCmd)
    (refused : ∀ code, code = Rsi.errorState ∨ code = Rsi.errorInput → ¬t.core.Accepts r rd step.context.gpRegs →
      ok (false, Rsi.rmiSuccessRecEnter) { t with
        core := t.core.setContent r (.recCtx ((t.core.mem r).asRec.setReg 0 code)) })
    (unmapped : t.core.ipaToPa? rd (step.context.gpRegs 1).toNat = none → ok (true, Error.rmiErrorInput.code) t)
    (part : ∀ pa token u, (t.core.mem r).asRec.attestState = .attestInProgress →
      t.core.ipaToPa? rd (step.context.gpRegs 1).toNat = some pa → t.core.stateOf pa = .data →
      (step.context.gpRegs 2).toNat + (step.context.gpRegs 3).toNat ≤ 4096 →
      rd.tokenInput.token? (t.core.mem r).asRec.attestChallenge = some token →
      (t.core.mem r).asRec.attestTokenOffset ≤ token.length → Delivered t r pa step.context.gpRegs token u →
      u.held = t.held → ok (false, Rsi.rmiSuccessRecEnter) u) :
    wp (Rmi.handleRealmExit (granuleAddrToIndex r) step) ok (fun halt _ => halt = .panic ∧
      ∀ token, rd.tokenInput.token? (t.core.mem r).asRec.attestChallenge = some token →
        token.length < (t.core.mem r).asRec.attestTokenOffset) t := by
  have valid := serving.has.1
  refine wp_callsHandler isRsi (by rw [number]; rfl) ?_
  have answer : ∀ code, code = Rsi.errorState ∨ code = Rsi.errorInput → ¬t.core.Accepts r rd step.context.gpRegs →
      ∀ {err'}, wp (Rsi.answer (granuleAddrToIndex r) code)
        (fun ret u => ok (decide (ret ≠ Rsi.rmiSuccessRecEnter), ret) { u with held := t.held }) err'
        { t with held := [granuleAddrToIndex o, granuleAddrToIndex r] } := by
    intro code known wrong err'
    unfold Rsi.answer
    rw [wp_bind, wp_modifyRec valid, wp_pure]
    exact refused code known wrong
  unfold Rsi.attestTokenContinue
  refine serving.wp_ownerRd ?_
  dsimp only
  rw [wp_bind, wp_contentRec, indexToAddr_granuleAddrToIndex valid]
  rw [registers]
  refine wp_if (fun idle => answer _ (.inl rfl) fun accepts => idle accepts.1) fun busy => wp_if (fun wrong => ?_) fun fine => ?_
  · refine answer _ (.inr rfl) fun accepts => ?_
    rw [accepts.2.1] at wrong
    cases wrong
  have fine : validateIpa rd (step.context.gpRegs 1).toNat = true := by simpa using fine
  have inPar : rd.addrInPar (step.context.gpRegs 1).toNat = true := by
    simp only [validateIpa, Bool.and_eq_true] at fine
    exact fine.1.2
  rw [wp_bind]
  refine wp_ipaToPa (a := o) serving.realm serving.inv inPar (fun none => ?_) fun pa mapped isData => ?_
  · rw [wp_bind]
    exact unmapped none
  rw [wp_bind, orInput, wp_pure]
  refine wp_if (fun long => answer _ (.inr rfl) fun accepts => absurd accepts.2.2 (Nat.not_le.mpr long)) fun short => ?_
  rw [wp_bind]
  unfold Rsi.getTokenPart
  rw [wp_bind, wp_contentRec, wp_bind, indexToAddr_granuleAddrToIndex valid]
  refine wp_orPanic (fun none => ⟨rfl, fun token some => by cases none.symm.trans some⟩) fun token has =>
    wp_if (fun ended => ⟨rfl, fun token' some => ?_⟩) fun inside => ?_
  · cases has.symm.trans some
    exact ended
  dsimp only
  rw [wp_bind, wp_modifyRec valid, wp_pure]
  dsimp only
  rw [wp_bind, wp_contentPage, wp_bind, wp_setPage]
  have other : pa ≠ r := by
    rintro rfl
    cases isData.symm.trans serving.has.2
  have deliver : ∀ u, Delivered t r pa step.context.gpRegs token u → u.held = t.held → ok (false, Rsi.rmiSuccessRecEnter) u :=
    fun u => part pa token u (Decidable.not_not.mp busy) mapped isData (Nat.not_lt.mp short) has (Nat.not_lt.mp inside)
  have delivered : ∀ rc : Rec, rc = (t.core.mem r).asRec.given token (step.context.gpRegs 3).toNat → ∀ before after,
      Delivered t r pa step.context.gpRegs token { t with
        core := ((((t.core.setContent r before).setContent pa (.raw
          (((t.core.setContent r before).mem pa).words.storeBytes (step.context.gpRegs 2).toNat
            ((t.core.mem r).asRec.nextBytes token (step.context.gpRegs 3).toNat)))).setContent r after).setContent r
              (.recCtx rc)) } := by
    rintro rc rfl before after
    refine ⟨?_, Core.mem_setContent_same _, fun x notPa notRec => ?_, fun _ => rfl⟩
    · change (Core.setContent _ r _).mem pa = _
      rw [Core.mem_setContent_of_ne _ other, Core.mem_setContent_of_ne _ other, Core.mem_setContent_same,
        Core.mem_setContent_of_ne _ other]
    · change (Core.setContent _ r _).mem x = _
      rw [Core.mem_setContent_of_ne _ notRec, Core.mem_setContent_of_ne _ notRec, Core.mem_setContent_of_ne _ notPa,
        Core.mem_setContent_of_ne _ notRec]
  refine wp_if (fun done => ?_) fun left => ?_
  · rw [wp_bind, wp_modifyRec valid, wp_bind, wp_modifyRec valid, wp_pure]
    refine deliver _ (delivered _ ?_ _ _) rfl
    rw [Core.mem_setContent_same, Core.mem_setContent_of_ne _ (Ne.symm other), Core.mem_setContent_same]
    unfold Rec.given
    dsimp only
    rw [if_pos done]
    rfl
  · rw [wp_bind, wp_modifyRec valid, wp_bind, wp_modifyRec valid, wp_pure]
    refine deliver _ (delivered _ ?_ _ _) rfl
    rw [Core.mem_setContent_same, Core.mem_setContent_of_ne _ (Ne.symm other), Core.mem_setContent_same]
    unfold Rec.given
    dsimp only
    rw [if_neg left]
    rfl

end Calls

/-! ### The token of a history -/

/-- The parts are those of the token for `input`: they are its beginning, and a part is said to be the last one exactly
if the token is complete with it. -/
def TokenHistory.OneToken (h : TokenHistory) (input : TokenInput) : Prop :=
  ∃ token, input.token? h.challenge = some token ∧ h.bytes <+: token ∧
    ∀ before part after, h.parts = before ++ part :: after →
      (part.last = true ↔ before.flatMap TokenPart.bytes ++ part.bytes = token) ∧ (part.last = true → after = [])

/-- What a REC keeps of the token. -/
structure TokenHistory.Matches (h : TokenHistory) (x : AttestState × List Byte × Nat) : Prop where
  challenge : x.2.1 = h.challenge
  offset : x.2.2 = h.bytes.length
  busy : x.1 = .attestInProgress → ∀ part ∈ h.parts, part.last = false
  one : ∀ input, (∀ part ∈ h.parts, part.input = input) → h.parts ≠ [] → h.OneToken input

section Parts

omit [Platform]

theorem Rec.length_nextBytes (rc : Rec) (token : List Byte) (size : Nat) :
    (rc.nextBytes token size).length = min size (token.length - rc.attestTokenOffset) := by
  rw [nextBytes, List.length_take, List.length_drop]
  omega

theorem Rec.length_nextBytes_le (rc : Rec) (token : List Byte) (size : Nat) : (rc.nextBytes token size).length ≤ size := by
  rw [rc.length_nextBytes]
  exact Nat.min_le_left _ _

theorem Rec.given_eq (rc : Rec) (token : List Byte) (size : Nat) : rc.given token size =
    let after := { rc with attestTokenOffset := rc.attestTokenOffset + (rc.nextBytes token size).length }
    (if token.length ≤ rc.attestTokenOffset + (rc.nextBytes token size).length then
      { after.setReg 0 Rsi.success with attestState := .noAttestInProgress }
    else after.setReg 0 Rsi.incomplete).setReg 1 (BitVec.ofNat 64 (rc.nextBytes token size).length) := by
  unfold Rec.given
  simp only [← rc.length_nextBytes, Nat.sub_eq_zero_iff_le]

theorem Rec.attest_given (rc : Rec) (token : List Byte) (size : Nat) : (rc.given token size).attest =
    (if token.length ≤ rc.attestTokenOffset + (rc.nextBytes token size).length then .noAttestInProgress
      else rc.attestState, rc.attestChallenge, rc.attestTokenOffset + (rc.nextBytes token size).length) := by
  rw [rc.given_eq]
  dsimp only
  rw [Rec.attest_setReg]
  split
  · rfl
  · exact Rec.attest_setReg _ _ _

theorem Rec.getReg_given (rc : Rec) (token : List Byte) (size : Nat) :
    (rc.given token size).getReg 0 = (if token.length ≤ rc.attestTokenOffset + (rc.nextBytes token size).length then
      Rsi.success else Rsi.incomplete) ∧
    (rc.given token size).getReg 1 = BitVec.ofNat 64 (rc.nextBytes token size).length := by
  rw [rc.given_eq]
  dsimp only
  refine ⟨?_, Rec.getReg_setReg_same _ (by omega) _⟩
  rw [Rec.getReg_setReg_of_ne _ (by omega) _ (by omega)]
  split
  · exact Rec.getReg_setReg_same { rc with attestTokenOffset := _ } (by omega) _
  · exact Rec.getReg_setReg_same { rc with attestTokenOffset := _ } (by omega) _

end Parts

/-- A history grows by the next bytes of the token. -/
theorem TokenHistory.Matches.add {h : TokenHistory} {part : TokenPart} {token : List Byte} {size : Nat}
    (matched : h.Matches rc.attest) (busy : rc.attestState = .attestInProgress) (bytes : part.bytes = rc.nextBytes token size)
    (last : part.last = true ↔ token.length ≤ rc.attestTokenOffset + (rc.nextBytes token size).length)
    (has : part.input.token? rc.attestChallenge = some token) :
    TokenHistory.Matches { h with parts := h.parts ++ [part] } (rc.given token size).attest := by
  have challenge : rc.attestChallenge = h.challenge := matched.challenge
  have offset : rc.attestTokenOffset = h.bytes.length := matched.offset
  have before := matched.busy busy
  have whole : TokenHistory.bytes { h with parts := h.parts ++ [part] } = h.bytes ++ rc.nextBytes token size := by
    simp [TokenHistory.bytes, bytes]
  have length := rc.length_nextBytes token size
  rw [rc.attest_given]
  refine ⟨challenge, by rw [whole, List.length_append, offset], fun more => ?_, fun input same _ => ?_⟩
  · have notLast : part.last = false := by
      refine Bool.eq_false_iff.mpr fun isLast => ?_
      rw [if_pos (last.mp isLast)] at more
      exact nomatch more
    intro p member
    rcases List.mem_append.mp member with old | new
    · exact before p old
    · rw [List.mem_singleton.mp new, notLast]
  · have here : part.input = input := same part (List.mem_append_right _ (List.mem_singleton.mpr rfl))
    rw [here, challenge] at has
    -- the parts so far are of the same token, since they are for the same input
    have one : h.parts ≠ [] → h.OneToken input := matched.one input fun p member => same p (List.mem_append_left _ member)
    have prior : h.bytes = token.take rc.attestTokenOffset := by
      by_cases none : h.parts = []
      · have nothing : h.bytes = [] := by rw [TokenHistory.bytes, none, List.flatMap_nil]
        rw [offset, nothing]
        rfl
      · obtain ⟨token', has', starts, _⟩ := one none
        cases has.symm.trans has'
        rw [offset]
        exact List.prefix_iff_eq_take.mp starts
    have all : h.bytes ++ rc.nextBytes token size = token.take (rc.attestTokenOffset + (rc.nextBytes token size).length) := by
      rw [List.take_add, ← prior, length, Rec.nextBytes]
    refine ⟨token, has, ?_, fun pre p post split => ?_⟩
    · rw [whole, all]
      exact List.take_prefix _ _
    rcases List.eq_nil_or_concat' post with rfl | ⟨rest, final, rfl⟩
    · obtain ⟨rfl, same⟩ := List.append_inj' (split : h.parts ++ [part] = pre ++ [p]) rfl
      cases same
      refine ⟨?_, fun _ => rfl⟩
      rw [last, bytes]
      change _ ↔ h.bytes ++ _ = token
      rw [all, List.take_eq_self_iff]
    · have split : h.parts ++ [part] = (pre ++ p :: rest) ++ [final] := by
        rw [List.append_assoc]
        exact split
      obtain ⟨old, _⟩ := List.append_inj' split rfl
      have notLast : p.last = false := before p (by rw [old]; exact List.mem_append_right _ List.mem_cons_self)
      obtain ⟨token', has', _, ends⟩ := one (by rw [old]; exact List.append_ne_nil_of_right_ne_nil _ (List.cons_ne_nil _ _))
      cases has.symm.trans has'
      exact ⟨(ends pre p rest old).1, fun isLast => nomatch notLast.symm.trans isLast⟩

/-! ### What a call leaves -/

/-- A realm that asks for a part of its token finds no change outside the buffer in the granule of its IPA. -/
def Machine.Confined (u : Machine) (r : Nat) (registers : Nat → Word) (v : Machine) : Prop :=
  ∀ y, y ≠ r → v.core.mem y ≠ u.core.mem y → ∃ o rd, (u.core.mem r).asRec.owner = some o ∧ u.core.realm? o = some rd ∧
    u.core.ipaToPa? rd (registers 1).toNat = some y ∧ ∀ i < 4096,
      ¬((registers 2).toNat ≤ i ∧ i < (registers 2).toNat + (registers 3).toNat) →
        (v.core.mem y).words.bytes[i]? = (u.core.mem y).words.bytes[i]?

/-- A part of the token has been delivered to the realm `rd`. -/
structure Serves (u : Machine) (r : Nat) (rd : Rd) (registers : Nat → Word) (pa : Nat) (token : List Byte) (v : Machine) : Prop
    extends Delivered u r pa registers token v where
  busy : (u.core.mem r).asRec.attestState = .attestInProgress
  mapped : u.core.ipaToPa? rd (registers 1).toNat = some pa
  fits : (registers 2).toNat + (registers 3).toNat ≤ 4096
  has : rd.tokenInput.token? (u.core.mem r).asRec.attestChallenge = some token

/-- No part has been delivered. -/
structure Withheld (u : Machine) (r : Nat) (registers : Nat → Word) (v : Machine) : Prop where
  states : ∀ y, v.core.stateOf y = u.core.stateOf y
  attest : (v.core.mem r).asRec.attest = (u.core.mem r).asRec.attest
  others : ∀ y, y ≠ r → v.core.mem y = u.core.mem y
  never : ∀ part, ¬u.Gets r registers v part

section Ends

variable {result : Except Halt (Bool × Nat)} {x : AttestState × List Byte × Nat} (serving : Serving u r o rd)
  (registers : (u.core.mem r).asRec.getReg = step.context.gpRegs) (held : RecIs Rec.attest r x u)
  (handled : (Rmi.handleRealmExit (granuleAddrToIndex r) step).run u = (result, v)) (ends : result ≠ .error .panic)
include serving registers held handled ends

omit held in
theorem Serving.tokenContinue_cases (isRsi : step.IsRsi)
    (number : (step.context.gpRegs 0).toNat = Rsi.attestTokenContinueCmd) :
    Withheld u r step.context.gpRegs v ∨ ∃ pa token, Serves u r rd step.context.gpRegs pa token v := by
  have reply : ∀ {w : Machine} {part : TokenPart}, (w.core.mem r).asRec.getReg 0 ≠ Rsi.success →
      (w.core.mem r).asRec.getReg 0 ≠ Rsi.incomplete → ¬u.Gets r step.context.gpRegs w part := by
    rintro w part notLast notMore ⟨_, _, _, _, _, _, _, _, code⟩
    split at code
    · exact notLast code
    · exact notMore code
  have spec : wp (Rmi.handleRealmExit (granuleAddrToIndex r) step) (fun _ v => Withheld u r step.context.gpRegs v ∨
      ∃ pa token, Serves u r rd step.context.gpRegs pa token v) (fun halt _ => halt = .panic) u := by
    refine wp_mono (serving.wp_tokenContinue isRsi registers number (fun code known _ => .inl ?_) (fun _ => .inl ?_)
      fun pa token v busy mapped _ fits has _ delivered _ => .inr ⟨pa, token, delivered, busy, mapped, fits, has⟩) (fun _ _ => id)
      fun _ _ => And.left
    · have zero : ((u.core.setContent r (.recCtx ((u.core.mem r).asRec.setReg 0 code))).mem r).asRec.getReg 0 = code := by
        rw [Core.mem_setContent_same, Content.asRec_recCtx, Rec.getReg_setReg_same _ (by omega)]
      refine ⟨fun _ => rfl, ?_, fun y other => Core.mem_setContent_of_ne _ other, fun part => reply ?_ ?_⟩
      · rw [Core.mem_setContent_same]
        exact Rec.attest_setReg _ _ _
      · rw [zero]
        rcases known with rfl | rfl <;> decide
      · rw [zero]
        rcases known with rfl | rfl <;> decide
    · -- the number of the call is still in `x0`
      refine ⟨fun _ => rfl, rfl, fun _ _ => rfl, fun part => reply ?_ ?_⟩
      all_goals
        rw [registers]
        intro zero
        rw [zero] at number
        exact nomatch number
  unfold Prog.wp at spec
  rw [handled] at spec
  cases result with
  | ok ret => exact spec
  | error halt => exact absurd (congrArg _ spec) ends

omit registers handled ends serving held in
/-- What the realm gets are the next bytes of the token. -/
theorem Serves.gets_iff {pa : Nat} {token : List Byte} {registers : Nat → Word} {part : TokenPart}
    (serves : Serves u r rd registers pa token v) (owner : (u.core.mem r).asRec.owner = some o)
    (realm : u.core.realm? o = some rd) : u.Gets r registers v part ↔ part.input = rd.tokenInput ∧
      part.bytes = (u.core.mem r).asRec.nextBytes token (registers 3).toNat ∧
      (part.last = true ↔ token.length ≤ (u.core.mem r).asRec.attestTokenOffset +
        ((u.core.mem r).asRec.nextBytes token (registers 3).toNat).length) := by
  obtain ⟨zero, one⟩ := (u.core.mem r).asRec.getReg_given token (registers 3).toNat
  have length := (u.core.mem r).asRec.length_nextBytes_le token (registers 3).toNat
  have fits := serves.fits
  have found : (v.core.mem pa).words.slice (registers 2).toNat ((v.core.mem r).asRec.getReg 1).toNat =
      (u.core.mem r).asRec.nextBytes token (registers 3).toNat := by
    rw [serves.page, serves.recCtx, Content.asRec_recCtx, one, BitVec.toNat_ofNat, Nat.mod_eq_of_lt (by omega)]
    exact Page.slice_storeBytes _ (by omega)
  have code : ∀ last : Bool, ((v.core.mem r).asRec.getReg 0 = if last then Rsi.success else Rsi.incomplete) ↔
      (last = true ↔ token.length ≤ (u.core.mem r).asRec.attestTokenOffset +
        ((u.core.mem r).asRec.nextBytes token (registers 3).toNat).length) := by
    intro last
    rw [serves.recCtx, Content.asRec_recCtx, zero]
    cases last <;> split <;> simp_all [Rsi.success, Rsi.incomplete]
  constructor
  · rintro ⟨o', rd', pa', owner', realm', mapped, input, bytes, last⟩
    cases owner.symm.trans owner'
    cases realm.symm.trans realm'
    cases serves.mapped.symm.trans mapped
    exact ⟨input, bytes.trans found, (code _).mp last⟩
  · rintro ⟨input, bytes, last⟩
    exact ⟨o, rd, pa, owner, realm, serves.mapped, input, bytes.trans found.symm, (code _).mpr last⟩

omit held in
theorem Serving.tokenContinue_confined (isRsi : step.IsRsi)
    (number : (step.context.gpRegs 0).toNat = Rsi.attestTokenContinueCmd) : u.Confined r step.context.gpRegs v := by
  intro y other changed
  rcases serving.tokenContinue_cases registers handled ends isRsi number with withheld | ⟨pa, token, serves⟩
  · exact absurd (withheld.others y other) changed
  by_cases here : y = pa
  · subst here
    refine ⟨o, rd, serving.owner, serving.realm, serves.mapped, fun i inside outside => ?_⟩
    have length := (u.core.mem r).asRec.length_nextBytes_le token (step.context.gpRegs 3).toNat
    rw [serves.page]
    change (Page.storeBytes _ _ _).bytes[i]? = _
    rw [Page.getElem?_storeBytes _ inside, if_neg (by omega)]
  · exact absurd (serves.others y here other) changed

end Ends

/-! ### Histories -/

/-- What the realm is told when its exit `step` has been handled, from `u` to `v`. -/
inductive Machine.Tells (u : Machine) (r : Nat) (step : RealmStep) (v : Machine) :
    Option TokenHistory → Option TokenHistory → Prop where
  | init {h} (isRsi : step.IsRsi) (number : (step.context.gpRegs 0).toNat = Rsi.attestTokenInitCmd) :
    Tells u r step v h (some ⟨Rsi.challengeOf step.context.gpRegs, []⟩)
  | part {h : TokenHistory} {part} (isRsi : step.IsRsi)
    (number : (step.context.gpRegs 0).toNat = Rsi.attestTokenContinueCmd)
    (gets : u.Gets r step.context.gpRegs v part) : Tells u r step v (some h) (some { h with parts := h.parts ++ [part] })
  /-- The token was asked for before. -/
  | unknown (isRsi : step.IsRsi) (number : (step.context.gpRegs 0).toNat = Rsi.attestTokenContinueCmd) :
    Tells u r step v none none
  | refused {h} (isRsi : step.IsRsi) (number : (step.context.gpRegs 0).toNat = Rsi.attestTokenContinueCmd)
    (never : ∀ part, ¬u.Gets r step.context.gpRegs v part) : Tells u r step v h h
  | other {h} (other : ¬step.AsksToken) : Tells u r step v h h

/-- A moment of a run: between two commands, or at an exit of the realm that REC_ENTER has come to from `s`. -/
inductive Moment where
  | host (s : Machine)
  | exit (s : Machine) (recW runW : Word) (before : List RealmStep) (step : RealmStep) (u : Machine)

/-- The moments of all runs, with what the REC at `r` has been told of its last token. Between two calls of the REC
there may be any commands, with calls of other RECs of its realm. -/
inductive Moment.Reached (r : Nat) : Moment → Option TokenHistory → Prop where
  | start {s : Machine} (reached : s.Reachable) (has : s.core.Has r .recCtx) : Reached r (.host s) none
  | unentered {s t : Machine} {h} (reached : Reached r (.host s) h) (run : s.Unentered r t) : Reached r (.host t) h
  | rejected {s t : Machine} {h recW runW script} (reached : Reached r (.host s) h) (isRec : recW.toNat = r)
    (never : ∀ step u, ¬s.Exits recW runW [] step u) (returned : s.exec (.recEnter recW runW script) = some t) :
    Reached r (.host t) h
  | first {s u : Machine} {h recW runW step} (reached : Reached r (.host s) h) (isRec : recW.toNat = r)
    (exits : s.Exits recW runW [] step u) : Reached r (.exit s recW runW [] step u) h
  | next {s u v w : Machine} {h h' recW runW before step step' ret}
    (reached : Reached r (.exit s recW runW before step u) h)
    (handled : (handleRealmExit (granuleAddrToIndex r) step).run u = (.ok (false, ret), v)) (tells : u.Tells r step v h h')
    (resumes : (recEnterResumes (granuleAddrToIndex r) step').run v = (.ok (), w)) :
    Reached r (.exit s recW runW (before ++ [step]) step' w) h'
  | left {s u v t : Machine} {h h' recW runW before step result}
    (reached : Reached r (.exit s recW runW before step u) h)
    (handled : (handleRealmExit (granuleAddrToIndex r) step).run u = (result, v)) (leaves : ∀ ret, result ≠ .ok (false, ret))
    (tells : u.Tells r step v h h') (returned : s.exec (.recEnter recW runW (before ++ [step])) = some t) :
    Reached r (.host t) h'

/-! #### From moment to moment -/

section Tells

variable {x : AttestState × List Byte × Nat} {h h' : Option TokenHistory} {result : Except Halt (Bool × Nat)}

/-- The history grows as the attestation of the REC does. -/
theorem Machine.Tells.tracks (tells : u.Tells r step v h h') (serving : Serving u r o rd)
    (registers : (u.core.mem r).asRec.getReg = step.context.gpRegs) (held : RecIs Rec.attest r x u)
    (handled : (handleRealmExit (granuleAddrToIndex r) step).run u = (result, v)) (ends : result ≠ .error .panic)
    (matched : ∀ hist ∈ h, hist.Matches x) : ∃ x', RecIs Rec.attest r x' v ∧ ∀ hist ∈ h', hist.Matches x' := by
  have post : ∀ {P : Machine → Prop}, wp (handleRealmExit (granuleAddrToIndex r) step) (fun _ => P) (fun _ => P) u →
      P v := by
    intro P spec
    unfold Prog.wp at spec
    rw [handled] at spec
    cases result <;> exact spec
  cases tells with
  | init isRsi number =>
    refine ⟨(.attestInProgress, Rsi.challengeOf step.context.gpRegs, 0),
      post (serving.wp_tokenInit isRsi registers number fun rc attest _ => ⟨held.1, ?_⟩), fun hist member => ?_⟩
    · rw [Core.mem_setContent_same]
      exact attest
    cases member
    exact ⟨rfl, rfl, fun _ => nofun, fun _ _ none => absurd rfl none⟩
  | @part h part isRsi number gets =>
    rcases serving.tokenContinue_cases registers handled ends isRsi number with withheld | ⟨pa, token, serves⟩
    · exact absurd gets (withheld.never part)
    obtain ⟨input, bytes, last⟩ := (serves.gets_iff serving.owner serving.realm).mp gets
    refine ⟨((u.core.mem r).asRec.given token (step.context.gpRegs 3).toNat).attest,
      ⟨(serves.states r).trans held.1, by rw [serves.recCtx, Content.asRec_recCtx]⟩, fun hist member => ?_⟩
    cases member
    have before := matched h rfl
    rw [← held.2] at before
    exact before.add serves.busy bytes last (by rw [input]; exact serves.has)
  | unknown isRsi number =>
    rcases serving.tokenContinue_cases registers handled ends isRsi number with withheld | ⟨pa, token, serves⟩
    · exact ⟨_, ⟨(withheld.states r).trans held.1, rfl⟩, nofun⟩
    · exact ⟨_, ⟨(serves.states r).trans held.1, rfl⟩, nofun⟩
  | refused isRsi number never =>
    rcases serving.tokenContinue_cases registers handled ends isRsi number with withheld | ⟨pa, token, serves⟩
    · exact ⟨x, ⟨(withheld.states r).trans held.1, withheld.attest.trans held.2⟩, matched⟩
    · refine absurd ((serves.gets_iff serving.owner serving.realm).mpr ?_) (never ⟨rd.tokenInput,
        (u.core.mem r).asRec.nextBytes token (step.context.gpRegs 3).toNat, decide (token.length ≤
          (u.core.mem r).asRec.attestTokenOffset +
            ((u.core.mem r).asRec.nextBytes token (step.context.gpRegs 3).toNat).length)⟩)
      exact ⟨rfl, rfl, decide_eq_true_iff⟩
  | other other => exact ⟨x, post (serving.handleRealmExit_keeps held Rec.apart_attest other fun _ _ _ => rfl), matched⟩

end Tells

section Moments

variable {x : AttestState × List Byte × Nat}

/-- Between two commands nothing but the machine matters; at an exit, REC_ENTER has come to it. -/
def Moment.Tracks (r : Nat) (h : Option TokenHistory) : Moment → Prop
  | .host s => s.core.Inv ∧ validateAddr r = true ∧ ∃ x, RecIs Rec.attest r x s ∧ ∀ hist ∈ h, hist.Matches x
  | .exit s recW runW before step u => s.core.Inv ∧ recW.toNat = r ∧ s.Exits recW runW before step u ∧
    ∃ x, RecIs Rec.attest r x u ∧ ∀ hist ∈ h, hist.Matches x

theorem Moment.Reached.tracks {m : Moment} {h : Option TokenHistory} (reached : m.Reached r h) : m.Tracks r h := by
  -- an exit of the REC serves its realm
  have serving : ∀ {s u : Machine} {recW runW : Word} {before : List RealmStep} {step : RealmStep}, s.core.Inv →
      s.Exits recW runW before step u → ∃ o rd, Serving u recW.toNat o rd ∧
        (u.core.mem recW.toNat).asRec.getReg = step.context.gpRegs := by
    intro s u recW runW before step inv exits
    obtain ⟨o, atExit⟩ := exits.atExit inv fun _ => id
    obtain ⟨rd, serving⟩ := atExit.serving inv
    exact ⟨o, rd, serving, atExit.registers⟩
  induction reached with
  | start reached has => exact ⟨reached.inv, has.1, _, ⟨has.2, rfl⟩, nofun⟩
  | unentered _ run ih =>
    obtain ⟨inv, valid, x, held, matched⟩ := ih
    obtain ⟨inv, has, same⟩ := run.same inv ⟨valid, held.1⟩
    exact ⟨inv, valid, x, ⟨has.2, same.attest.trans held.2⟩, matched⟩
  | rejected _ isRec never returned ih =>
    obtain ⟨inv, valid, x, held, matched⟩ := ih
    subst isRec
    exact ⟨Machine.Step.inv (.command _ returned) inv, valid, x, 
      Machine.rejected_recIs Rec.apart_attest inv held never returned, matched⟩
  | first _ isRec exits ih =>
    obtain ⟨inv, valid, x, held, matched⟩ := ih
    subst isRec
    refine ⟨inv, rfl, exits, x, ?_, matched⟩
    rcases exits.cases with ⟨t, _, begins, runs⟩ | ⟨_, _, _, _, _, wrong, _⟩
    · obtain ⟨_, o, rd, begun, work⟩ := wp_ok (recEnterBegins_spec (s := Machine.start _) _ _ [] inv rfl rfl rfl rfl) begins
      obtain ⟨state, content⟩ := recEnterRun_rec work inv valid begun.held runs
      refine ⟨state, ?_⟩
      rw [content]
      exact (begun.recIs Rec.apart_attest held).2
    · exact absurd wrong.symm (List.append_ne_nil_of_right_ne_nil _ (List.cons_ne_nil _ _))
  | next _ handled tells resumes ih =>
    obtain ⟨inv, rfl, exits, x, held, matched⟩ := ih
    obtain ⟨o, rd, serving, registers⟩ := serving inv exits
    obtain ⟨x', held', matched'⟩ := tells.tracks serving registers held handled nofun matched
    obtain ⟨state, content⟩ := exits.resumes_rec inv handled rfl resumes
    refine ⟨inv, rfl, .next exits handled resumes, x', ⟨state, ?_⟩, matched'⟩
    rw [content]
    exact held'.2
  | @left s u v t h h' recW runW before step result _ handled leaves tells returned ih =>
    obtain ⟨inv, rfl, exits, x, held, matched⟩ := ih
    obtain ⟨o, rd, serving, registers⟩ := serving inv exits
    obtain ⟨x', held', matched'⟩ := tells.tracks serving registers held handled (exits.noPanic handled returned) matched
    exact ⟨Machine.Step.inv (.command _ returned) inv, serving.has.1, x',
      exits.left_recIs inv handled (fun _ _ => rfl) held' leaves returned, matched'⟩

end Moments

/-- A part of a token that the REC asks for at this moment stays in its buffer. -/
def Moment.Confined (r : Nat) : Moment → Prop
  | .host _ => True
  | .exit _ _ _ _ step u => step.IsRsi → (step.context.gpRegs 0).toNat = Rsi.attestTokenContinueCmd →
    ∀ {result v}, (handleRealmExit (granuleAddrToIndex r) step).run u = (result, v) → result ≠ .error .panic →
      u.Confined r step.context.gpRegs v

/-- Registers with these values, and zeros in the others. -/
def registersOf (values : List Word) : Nat → Word := fun i => values.getD i 0

/-- ATTEST_TOKEN_INIT with a challenge of zeros. -/
def RealmStep.asksToken : RealmStep := .call (registersOf [BitVec.ofNat 64 Rsi.attestTokenInitCmd])

/-- ATTEST_TOKEN_CONTINUE for one byte, at the start of the first page. -/
def RealmStep.asksByte : RealmStep := .call (registersOf [BitVec.ofNat 64 Rsi.attestTokenContinueCmd, 0, 0, 1])

/-- MEASUREMENT_EXTEND of the first extensible measurement, by nothing. -/
def RealmStep.extends : RealmStep := .call (registersOf [0xc4000193, 1])

/-- The REC has been answered, as it is evaluated. -/
def Machine.answered (u : Machine) (r : Nat) (step : RealmStep) : Machine :=
  ((handleRealmExit (granuleAddrToIndex r) step).run u).2

/-- It goes on to its next exit. -/
def Machine.goesOn (u : Machine) (r : Nat) (step step' : RealmStep) : Machine :=
  ((recEnterResumes (granuleAddrToIndex r) step').run (u.answered r step)).2

theorem Moment.Reached.goesOn {recW runW : Word} {before : List RealmStep} {h h' : Option TokenHistory}
    (reached : Moment.Reached r (.exit s recW runW before step u) h) (step' : RealmStep) (ret : Nat)
    (tells : u.Tells r step (u.answered r step) h h')
    (known : ((handleRealmExit (granuleAddrToIndex r) step).run u).1 = .ok (false, ret) ∧
      ((recEnterResumes (granuleAddrToIndex r) step').run (u.answered r step)).1 = .ok ()) :
    Moment.Reached r (.exit s recW runW (before ++ [step]) step' (u.goesOn r step step')) h' :=
  .next reached (run_of_result known.1) tells (run_of_result known.2)

/-- A part that the realm has got, as it is evaluated. -/
theorem Machine.exists_gets (u v : Machine) (r o pa : Nat) (registers : Nat → Word) (bytes : List Byte) (last : Bool)
    (known : (u.core.mem r).asRec.owner = some o ∧
      (u.core.realm? o).any (fun rd => u.core.ipaToPa? rd (registers 1).toNat = some pa) = true ∧
      bytes = (v.core.mem pa).words.slice (registers 2).toNat ((v.core.mem r).asRec.getReg 1).toNat ∧
      (v.core.mem r).asRec.getReg 0 = if last then Rsi.success else Rsi.incomplete) :
    ∃ input, u.Gets r registers v ⟨input, bytes, last⟩ := by
  obtain ⟨owner, mapped, found, answer⟩ := known
  obtain ⟨rd, realm, place⟩ := (Option.any_eq_true _ _).mp mapped
  exact ⟨rd.tokenInput, o, rd, pa, owner, realm, of_decide_eq_true place, rfl, found, answer⟩

/-- A realm that has asked for its token, at its next exit. -/
def Sample.asksByte : Machine :=
  (staffed.firstExit (BitVec.ofNat 64 (bankAt 5)) (BitVec.ofNat 64 hostPage) .asksToken).goesOn (bankAt 5) .asksToken .asksByte

theorem Sample.asksByte_reached (has : staffed.core.Has (bankAt 5) .recCtx)
    (out : staffed.getsOut (BitVec.ofNat 64 (bankAt 5)) (BitVec.ofNat 64 hostPage) .asksToken = true)
    (known : ((handleRealmExit (granuleAddrToIndex (bankAt 5)) .asksToken).run
        (staffed.firstExit (BitVec.ofNat 64 (bankAt 5)) (BitVec.ofNat 64 hostPage) .asksToken)).1 =
          .ok (false, Rsi.rmiSuccessRecEnter) ∧
      ((recEnterResumes (granuleAddrToIndex (bankAt 5)) .asksByte).run
        ((staffed.firstExit (BitVec.ofNat 64 (bankAt 5)) (BitVec.ofNat 64 hostPage) .asksToken).answered (bankAt 5)
          .asksToken)).1 = .ok ()) :
    (Moment.exit staffed (BitVec.ofNat 64 (bankAt 5)) (BitVec.ofNat 64 hostPage) [.asksToken] .asksByte
      Sample.asksByte).Reached (bankAt 5) (some ⟨Rsi.challengeOf RealmStep.asksToken.context.gpRegs, []⟩) := by
  have first := Moment.Reached.first (.start staffed_via.reachable has) (toNat_bankAt (by omega))
    (Machine.exits_firstExit out)
  exact first.goesOn .asksByte _ (.init (RealmStep.call_isRsi _) (by decide)) known

/-- The measurements have been extended after the first byte. -/
def Sample.asksAgain : Machine :=
  (Sample.asksByte.goesOn (bankAt 5) .asksByte .extends).goesOn (bankAt 5) .extends .asksByte

namespace Twins

/-- A machine whose digests are the first byte of the message, plus one, in all of their bytes, and whose tokens are the
first byte of the first extensible measurement, twice. -/
scoped instance platform : Platform :=
  { (default : Platform) with
    sha256 := fun data => Vector.replicate 32 (data.headD 0 + 1)
    sha512 := fun data => Vector.replicate 64 (data.headD 0 + 1)
    getToken := fun _ measurements _ _ => some [(measurements.get 1).get 0, (measurements.get 1).get 0] }

end Twins

end Islet.Rmm
