import Islet.Rmm.Entry

/-! What a service leaves behind: the reply in the realm's `x0`, or a request that the
host or another REC completes. The rules here describe a service from a given exit of the
realm, in one REC of an active realm, so that its outcome can be compared with what the
realm relies on. -/

namespace Islet.Rmm

open Lib Prog Bits Rmi Stage2Translation

variable [Platform] {cmd : Command} {s t u : Machine} {r o : Nat} {rd : Rd} {rc : Rec} {step : RealmStep}
  {err' : Halt → Machine → Prop}

theorem AtExit.serving (atExit : AtExit cmd s r o step u) (inv : s.core.Inv) : ∃ rd, Serving u r o rd := by
  obtain ⟨rd, realm, active⟩ := atExit.realm
  exact ⟨rd, atExit.inv inv, ⟨atExit.valid, atExit.state⟩, atExit.owner, realm, active, atExit.held⟩

/-- At an exit the REC is served with the registers of the realm. -/
theorem Machine.Exits.serving {recW runW : Word} {before : List RealmStep} (exits : s.Exits recW runW before step u)
    (inv : s.core.Inv) :
    ∃ o rd, Serving u recW.toNat o rd ∧ (u.core.mem recW.toNat).asRec.getReg = step.context.gpRegs := by
  obtain ⟨o, atExit⟩ := exits.atExit inv fun _ => id
  obtain ⟨rd, serving⟩ := atExit.serving inv
  exact ⟨o, rd, serving, atExit.registers⟩

theorem Serving.inRec (serving : Serving t r o rd) :
    InRec (.recEnter (BitVec.ofNat 64 r) 0 []) t r o (fun _ => True) t := by
  refine ⟨⟨?_, .of_eq rfl rfl rfl, serving.has.2⟩, serving.owner, ⟨rd, serving.realm, serving.active⟩, .inr trivial⟩
  have bound := validateAddr_iff.mp serving.has.1
  change (BitVec.ofNat 64 r).toNat = r
  rw [BitVec.toNat_ofNat]
  omega

theorem Serving.owner_ne (serving : Serving t r o rd) : o ≠ r := by
  rintro rfl
  exact nomatch serving.has.2.symm.trans (Core.realm?_eq_some.mp serving.realm).2.1

/-! ### Registers -/

section Registers

omit [Platform]

theorem Rec.getReg_setReg (rc : Rec) {i : Nat} (general : i ≤ 30) (value : Word) (j : Nat) :
    (rc.setReg i value).getReg j = if j = i then value else rc.getReg j := by
  unfold Rec.setReg Rec.getReg
  rw [if_pos general]
  exact Function.update_apply ..

theorem Rec.getReg_setReg_same (rc : Rec) {i : Nat} (general : i ≤ 30) (value : Word) :
    (rc.setReg i value).getReg i = value := by
  rw [rc.getReg_setReg general, if_pos rfl]

theorem Rec.getReg_setReg_of_ne (rc : Rec) {i j : Nat} (general : i ≤ 30) (value : Word) (other : j ≠ i) :
    (rc.setReg i value).getReg j = rc.getReg j := by
  rw [rc.getReg_setReg general, if_neg other]

theorem Rec.getReg_foldl_setReg {α : Type} {register : α → Nat} {value : α → Word} (list : List α) (rc : Rec) {j : Nat}
    (general : ∀ x ∈ list, register x ≤ 30) (other : ∀ x ∈ list, j ≠ register x) :
    (list.foldl (fun rc x => rc.setReg (register x) (value x)) rc).getReg j = rc.getReg j := by
  induction list generalizing rc with
  | nil => rfl
  | cons x rest ih =>
    rw [List.foldl_cons, ih _ (fun y member => general y (List.mem_cons_of_mem _ member))
      fun y member => other y (List.mem_cons_of_mem _ member),
      rc.getReg_setReg_of_ne (general x List.mem_cons_self) _ (other x List.mem_cons_self)]

/-- The exit reason that the host reads. -/
def Run.exitReason (run : Page) : Word := run 256 &&& 0xff

theorem Run.exitReason_set (run : Page) {word : Nat} (value : Word) (other : word ≠ 256) :
    Run.exitReason (Run.set run word value) = Run.exitReason run := by
  unfold Run.exitReason Run.set
  rw [Function.update_of_ne (Ne.symm other)]

theorem Run.exitReason_setExitReason (run : Page) {reason : Word} (small : reason &&& 0xff = reason) :
    Run.exitReason (Run.setExitReason run reason) = reason := by
  unfold Run.exitReason Run.setExitReason Run.set Run.setLow
  rw [Function.update_self]
  have low : (run 256 >>> 8 <<< 8) &&& 0xff = 0#64 := by
    apply BitVec.eq_of_toNat_eq
    rw [BitVec.toNat_and, BitVec.toNat_shiftLeft, BitVec.toNat_ushiftRight, Nat.shiftRight_eq_div_pow, Nat.shiftLeft_eq,
      show (0xff : Word).toNat = 2 ^ 8 - 1 from rfl, Nat.and_two_pow_sub_one_eq_mod, BitVec.toNat_zero]
    omega
  rw [BitVec.and_or_distrib_right, low, BitVec.zero_or, small]

theorem Run.exitReason_setRipas (run : Page) (base size state : Word) :
    Run.exitReason (Run.setRipas run base size state) = Run.exitReason run := by
  unfold Run.setRipas
  rw [Run.exitReason_set _ _ (by decide), Run.exitReason_set _ _ (by decide), Run.exitReason_set _ _ (by decide)]

end Registers

/-! ### Rules -/

section Rules

variable (serving : Serving t r o rd)
include serving

/-- Services that look at the owner's descriptor. -/
theorem Serving.wp_ownerRd {α : Type} {f : Nat × Rd → RmmM α} {ok : α → Machine → Prop}
    (body : wp (f (granuleAddrToIndex o, rd)) ok err' { t with held := [granuleAddrToIndex o, granuleAddrToIndex r] }) :
    wp (Rsi.ownerRd (granuleAddrToIndex r) >>= f) ok err' t := by
  rw [wp_bind]
  refine Rmm.wp_ownerRd serving.owner serving.has.1 serving.owner_ne serving.held (fun none => ?_) fun rd' found => ?_
  · exact nomatch none.symm.trans serving.realm
  · cases serving.realm.symm.trans found
    exact body

end Rules

/-- The `Run` page of a PSCI exit. -/
def Rsi.psciRun (command : Nat) (arg : Option Word) (run : Page) : Page :=
  let run := Run.set (Run.setExitReason run Rsi.exitPsci) (Run.gpr 0) (BitVec.ofNat 64 command)
  match arg with
  | some arg => Run.set run (Run.gpr 1) arg
  | none => run

omit [Platform] in
theorem Rsi.exitReason_psciRun (command : Nat) (arg : Option Word) (run : Page) :
    Run.exitReason (Rsi.psciRun command arg run) = Rsi.exitPsci := by
  have first : Run.exitReason (Run.set (Run.setExitReason run Rsi.exitPsci) (Run.gpr 0) (BitVec.ofNat 64 command)) =
      Rsi.exitPsci := by
    rw [Run.exitReason_set _ _ (by decide), Run.exitReason_setExitReason _ (by decide)]
  cases arg with
  | none => exact first
  | some arg => exact (Run.exitReason_set _ _ (by decide)).trans first

omit [Platform] in
theorem wp_leaves {command : Nat} {arg : Option Word} {ok : Nat → Machine → Prop}
    (next : ok Rsi.rmiSuccess { t with run := Rsi.psciRun command arg t.run }) :
    wp (Rsi.exitToHost command arg) ok err' t := next

/-! ### Calls that are answered -/

namespace Rsi

/-- Numbers of the calls. -/
abbrev attestTokenContinueCmd : Nat := 0xc4000195
abbrev realmConfigCmd : Nat := 0xc4000196
abbrev ipaStateSetCmd : Nat := 0xc4000197
abbrev ipaStateGetCmd : Nat := 0xc4000198
abbrev hostCallCmd : Nat := 0xc4000199

/-- What a call may leave in `x0`: RSI status codes, PSCI return values and version numbers. -/
def results : List Word :=
  [success, errorInput, errorState, incomplete, psciAffinityOn, psciAffinityOff, psciNotSupported, psciInvalidParams,
    psciDenied, psciAlreadyOn, psciInvalidAddress, psciVersion, smcccVersion]

/-- No result is the number of a call. -/
theorem handler?_result {w : Word} (member : w ∈ results) (g : Nat) : handler? w.toNat g = none := by
  simp only [results, List.mem_cons, List.not_mem_nil, or_false] at member
  rcases member with rfl | rfl | rfl | rfl | rfl | rfl | rfl | rfl | rfl | rfl | rfl | rfl | rfl <;> rfl

end Rsi

/-- The request of the call is recorded for the host or another REC, or the REC or its realm is switched off. -/
def Recorded (command r o : Nat) (u : Machine) : Prop :=
  if command = Rsi.hostCallCmd then
    Run.exitReason u.run = Rsi.exitHostCall ∧ (u.core.mem r).asRec.hostCallPending = true
  else if command = Rsi.ipaStateSetCmd then
    Run.exitReason u.run = Rsi.exitRipasChange ∧ 0 < (u.core.mem r).asRec.ripas.endAddr
  else if command = Rsi.psciCpuOnCmd ∨ command = Rsi.psciAffinityInfoCmd then
    Run.exitReason u.run = Rsi.exitPsci ∧ (u.core.mem r).asRec.psciPending = true
  else if command = Rsi.psciCpuOffCmd then
    Run.exitReason u.run = Rsi.exitPsci ∧ (u.core.mem r).asRec.runnable = false
  else if command = Rsi.psciSystemOffCmd ∨ command = Rsi.psciSystemResetCmd then
    Run.exitReason u.run = Rsi.exitPsci ∧ ∃ rd, u.core.realm? o = some rd ∧ rd.state = .systemOff
  else False

/-- A service has ended as the realm relies on: it replies, or it leaves to the host with its request recorded. -/
def Served (command r o ret : Nat) (u : Machine) : Prop :=
  ret = Rsi.rmiSuccessRecEnter ∧ (u.core.mem r).asRec.getReg 0 ∈ Rsi.results ∨
    ret = Rsi.rmiSuccess ∧ Recorded command r o u

/-- The monitor can answer the call that is in the registers of the REC. -/
def Core.Answers (c : Core) (r : Nat) (rd : Rd) (command : Nat) : Prop :=
  let rc := (c.mem r).asRec
  let ipa := (rc.getReg 1).toNat
  if command = Rsi.hostCallCmd then
    HostCallIpa rd ipa → c.ipaToPa? rd ipa ≠ none ∧ rc.hostCallPending = false
  else if command = Rsi.attestTokenContinueCmd then
    rc.attestState = .attestInProgress → validateIpa rd ipa = true → c.ipaToPa? rd ipa ≠ none ∧
      ((rc.getReg 2).toNat + (rc.getReg 3).toNat ≤ granuleSize →
        ∃ token, Platform.getToken rc.attestChallenge rd.measurements rd.rpv rd.hashAlgo = some token ∧
          rc.attestTokenOffset ≤ token.length)
  else if command = Rsi.realmConfigCmd then validateIpa rd ipa = true → c.ipaToPa? rd ipa ≠ none
  else if command = Rsi.ipaStateGetCmd then
    validateIpa rd ipa = true → ∃ slot, rd.tables.walk c ipa 3 false = .found slot 3
  else command ≠ Rsi.psciCpuSuspendCmd

theorem Core.answers_other {c : Core} {command : Nat} (host : command ≠ Rsi.hostCallCmd)
    (token : command ≠ Rsi.attestTokenContinueCmd) (config : command ≠ Rsi.realmConfigCmd)
    (ripas : command ≠ Rsi.ipaStateGetCmd) (suspend : command ≠ Rsi.psciCpuSuspendCmd) : c.Answers r rd command := by
  unfold Core.Answers
  dsimp only
  rw [if_neg host, if_neg token, if_neg config, if_neg ripas]
  exact suspend

/-- A service has ended as the realm relies on, exactly if the monitor could answer the call. -/
def Decides (command r o : Nat) (rd : Rd) (t : Machine) (ret : Nat) (u : Machine) : Prop :=
  Served command r o ret u ↔ t.core.Answers r rd command

/-- A service has stopped, with the number of the call still in `x0`. -/
def Fails (command r : Nat) (rd : Rd) (t : Machine) (halt : Halt) (u : Machine) : Prop :=
  ¬t.core.Answers r rd command ∧ ∀ e, halt = .error e → (u.core.mem r).asRec.getReg 0 = (t.core.mem r).asRec.getReg 0

section Replies

variable {command : Nat}

theorem served_setContent {c : Core} {rc : Rec} {held : List Nat} (result : rc.getReg 0 ∈ Rsi.results) :
    Served command r o Rsi.rmiSuccessRecEnter { t with core := c.setContent r (.recCtx rc), held := held } := by
  refine .inl ⟨rfl, ?_⟩
  rw [Core.mem_setContent_same]
  exact result

/-- A reply in `x0`. -/
theorem wp_reply {code : Word} (valid : validateAddr r = true) (result : code ∈ Rsi.results) :
    wp (Rsi.answer (granuleAddrToIndex r) code) (Served command r o) err' t := by
  unfold Rsi.answer
  rw [wp_bind, wp_modifyRec valid, wp_pure]
  refine served_setContent ?_
  rw [Rec.getReg_setReg_same _ (by omega)]
  exact result

variable (serving : Serving t r o rd)
include serving

theorem Serving.attestTokenInit :
    wp (Rsi.attestTokenInit (granuleAddrToIndex r)) (Served command r o) (fun _ _ => False) t := by
  unfold Rsi.attestTokenInit
  rw [wp_bind, wp_modifyRec serving.has.1, wp_pure]
  refine served_setContent ?_
  rw [Rec.getReg_setReg_of_ne _ (by omega) _ (by omega), Rec.getReg_setReg_same _ (by omega)]
  decide

theorem Serving.features :
    wp (Rsi.features (granuleAddrToIndex r)) (Served command r o) (fun _ _ => False) t := by
  unfold Rsi.features
  rw [wp_bind, wp_modifyRec serving.has.1, wp_pure]
  refine served_setContent ?_
  rw [Rec.getReg_setReg_of_ne _ (by omega) _ (by omega), Rec.getReg_setReg_same _ (by omega)]
  decide

theorem Serving.abiVersion :
    wp (Rsi.abiVersion (granuleAddrToIndex r)) (Served command r o) (fun _ _ => False) t := by
  unfold Rsi.abiVersion
  rw [wp_bind, wp_contentRec]
  refine wp_if (fun _ => wp_reply serving.has.1 (by decide)) fun _ => ?_
  dsimp only
  rw [wp_bind, wp_modifyRec serving.has.1, wp_pure]
  refine served_setContent ?_
  rw [Rec.getReg_setReg_of_ne _ (by omega) _ (by omega), Rec.getReg_setReg_of_ne _ (by omega) _ (by omega),
    Rec.getReg_setReg_same _ (by omega)]
  decide

theorem Serving.measurementRead :
    wp (Rsi.measurementRead (granuleAddrToIndex r)) (Served command r o) (fun _ _ => False) t := by
  unfold Rsi.measurementRead
  refine serving.wp_ownerRd ?_
  dsimp only
  rw [wp_bind, wp_contentRec]
  refine wp_if (fun _ => wp_reply serving.has.1 (by decide)) fun _ => ?_
  rw [wp_bind, wp_modifyRec serving.has.1, wp_pure]
  refine served_setContent ?_
  rw [Rec.getReg_foldl_setReg, Rec.getReg_setReg_same _ (by omega)]
  · decide
  · intro i member
    have := List.mem_range.mp member
    omega
  · intro i member
    omega

theorem Serving.measurementExtend :
    wp (Rsi.measurementExtend (granuleAddrToIndex r)) (Served command r o) (fun _ _ => False) t := by
  unfold Rsi.measurementExtend
  refine serving.wp_ownerRd ?_
  dsimp only
  rw [wp_bind, wp_contentRec]
  refine wp_if (fun _ => wp_reply serving.has.1 (by decide)) fun fine => ?_
  rw [wp_bind, HashContext.extendMeasurement_ok (serving.inv.realms.hash serving.realm) _ (by omega)]
  refine wp_ofExcept nofun fun measured run => ?_
  rw [wp_bind, wp_setRd, wp_bind, wp_emit]
  exact wp_reply serving.has.1 (by decide)

theorem Serving.isletRealmSealingKey :
    wp (Rsi.isletRealmSealingKey (granuleAddrToIndex r)) (Served command r o) (fun _ _ => False) t := by
  unfold Rsi.isletRealmSealingKey
  rw [wp_bind, wp_contentRec]
  refine serving.wp_ownerRd ?_
  dsimp only
  rw [wp_bind]
  refine wp_result (wp_realmSealingKey (fun m has => ?_) (fun _ => wp_reply serving.has.1 (by decide)) fun key => ?_)
  · obtain ⟨validM, state, other⟩ := serving.inv.metadata_ne serving.realm has
    have notRec : m ≠ r := by
      rintro rfl
      exact nomatch serving.has.2.symm.trans state
    rw [List.mem_cons, List.mem_singleton, granuleAddrToIndex_inj validM serving.has.1,
      granuleAddrToIndex_inj validM (Core.realm?_eq_some.mp serving.realm).1, not_or]
    exact ⟨other, notRec⟩
  · rw [wp_bind, wp_modifyRec serving.has.1]
    exact wp_reply serving.has.1 (by decide)

theorem Serving.psciFeatures :
    wp (Rsi.psciFeatures (granuleAddrToIndex r)) (Served command r o) (fun _ _ => False) t := by
  unfold Rsi.psciFeatures
  rw [wp_bind, wp_contentRec]
  refine wp_reply serving.has.1 ?_
  split <;> decide

end Replies

section Requests

variable (serving : Serving t r o rd)
include serving

theorem Serving.psciCpuOn :
    wp (Rsi.psciCpuOn (granuleAddrToIndex r)) (Served Rsi.psciCpuOnCmd r o) (fun _ _ => False) t := by
  unfold Rsi.psciCpuOn
  refine serving.wp_ownerRd ?_
  dsimp only
  rw [wp_bind, wp_contentRec]
  refine wp_if (fun _ => wp_reply serving.has.1 (by decide)) fun _ =>
    wp_if (fun _ => wp_reply serving.has.1 (by decide)) fun _ =>
    wp_if (fun _ => wp_reply serving.has.1 (by decide)) fun _ => ?_
  rw [wp_bind, wp_modifyRec serving.has.1, wp_bind, wp_emit]
  refine wp_leaves (.inr ⟨rfl, Rsi.exitReason_psciRun .., ?_⟩)
  change ((t.core.setContent r _).mem r).asRec.psciPending = true
  rw [Core.mem_setContent_same]
  rfl

theorem Serving.psciAffinityInfo :
    wp (Rsi.psciAffinityInfo (granuleAddrToIndex r)) (Served Rsi.psciAffinityInfoCmd r o) (fun _ _ => False) t := by
  unfold Rsi.psciAffinityInfo
  rw [wp_bind, wp_contentRec]
  refine wp_if (fun _ => wp_reply serving.has.1 (by decide)) fun _ =>
    wp_if (fun _ => wp_reply serving.has.1 (by decide)) fun _ => ?_
  rw [wp_bind, wp_modifyRec serving.has.1]
  refine wp_leaves (.inr ⟨rfl, Rsi.exitReason_psciRun .., ?_⟩)
  change ((t.core.setContent r _).mem r).asRec.psciPending = true
  rw [Core.mem_setContent_same]
  rfl

theorem Serving.psciCpuOff :
    wp (Rsi.psciCpuOff (granuleAddrToIndex r)) (Served Rsi.psciCpuOffCmd r o) (fun _ _ => False) t := by
  unfold Rsi.psciCpuOff
  rw [wp_bind, wp_modifyRec serving.has.1]
  refine wp_leaves (.inr ⟨rfl, Rsi.exitReason_psciRun .., ?_⟩)
  change ((t.core.setContent r _).mem r).asRec.runnable = false
  rw [Core.mem_setContent_same]
  rfl

theorem Serving.psciSystemOff {command : Nat}
    (switches : command = Rsi.psciSystemOffCmd ∨ command = Rsi.psciSystemResetCmd) :
    wp (Rsi.psciSystemOff command (granuleAddrToIndex r)) (Served command r o) (fun _ _ => False) t := by
  unfold Rsi.psciSystemOff
  refine serving.wp_ownerRd ?_
  dsimp only
  rw [wp_bind, wp_setRd, indexToAddr_granuleAddrToIndex (Core.realm?_eq_some.mp serving.realm).1]
  have off : (t.core.setContent o (.rd { rd with state := .systemOff })).realm? o =
      some { rd with state := .systemOff } := by
    rw [realm?_setRd serving.realm, if_pos rfl]
  refine wp_leaves (.inr ⟨rfl, ?_⟩)
  rcases switches with rfl | rfl <;> exact ⟨Rsi.exitReason_psciRun .., _, off, rfl⟩

theorem Serving.setRipasState :
    wp (Rsi.setRipasState (granuleAddrToIndex r)) (Served Rsi.ipaStateSetCmd r o) (fun _ _ => False) t := by
  unfold Rsi.setRipasState
  rw [wp_bind, wp_contentRec]
  refine wp_if (fun _ => wp_reply serving.has.1 (by decide)) fun ordered => serving.wp_ownerRd ?_
  refine wp_if (fun _ => wp_reply serving.has.1 (by decide)) fun _ => ?_
  rw [wp_bind, wp_modifyRun, wp_bind, wp_modifyRec serving.has.1, wp_pure]
  refine .inr ⟨rfl, ?_, ?_⟩
  · rw [Run.exitReason_setRipas, Run.exitReason_setExitReason _ (by decide)]
  · rw [Core.mem_setContent_same]
    exact Nat.zero_lt_of_lt (Nat.not_le.mp ordered)

end Requests

section Failures

variable (serving : Serving t r o rd)
include serving

theorem Serving.doHostCall : wp (Rsi.doHostCall (granuleAddrToIndex r)) (Decides Rsi.hostCallCmd r o rd t)
    (Fails Rsi.hostCallCmd r rd t) t := by
  have same : ∀ {rd'}, t.core.realm? o = some rd' → rd' = rd := fun found =>
    Option.some.inj (found.symm.trans serving.realm)
  refine wp_doHostCall serving.inRec serving.inv serving.has.1 serving.held (fun rd' found wrong => ?_)
    (fun rd' found fine unmapped => ?_) (fun rd' pa found fine mapped isData pending => ?_)
    fun rd' pa found fine mapped idle => ?_
  all_goals cases same found
  · refine iff_of_true (served_setContent ?_) fun fine => absurd fine wrong
    rw [Rec.getReg_setReg_same _ (by omega)]
    decide
  · exact ⟨fun answers => (answers fine).1 unmapped, fun _ _ => rfl⟩
  · -- a call that answers another one records nothing
    refine iff_of_false ?_ fun answers => nomatch pending.symm.trans (answers fine).2
    rintro (⟨wrong, _⟩ | ⟨_, _, recorded⟩)
    · exact nomatch wrong
    · rw [Core.mem_setContent_same] at recorded
      exact nomatch recorded
  · refine iff_of_true (.inr ⟨rfl, Run.exitReason_setExitReason _ (by decide), ?_⟩) fun _ => ⟨?_, idle⟩
    · rw [Core.mem_setContent_same]
      rfl
    · rw [mapped]
      exact nofun

theorem Serving.realmConfig : wp (Rsi.realmConfig (granuleAddrToIndex r)) (Decides Rsi.realmConfigCmd r o rd t)
    (Fails Rsi.realmConfigCmd r rd t) t := by
  unfold Rsi.realmConfig
  rw [wp_bind, wp_contentRec, wp_bind, indexToAddr_granuleAddrToIndex serving.has.1]
  refine wp_recOwner serving.owner ?_
  rw [wp_bind, wp_getCore]
  refine serving.wp_ownerRd ?_
  dsimp only
  refine wp_if (fun bad => ?_) fun accepted => ?_
  · refine wp_mono (wp_reply serving.has.1 (by decide)) (fun _ _ served => iff_of_true served fun fine => ?_) fun _ _ => id
    rw [fine] at bad
    cases bad
  have fine : validateIpa rd ((t.core.mem r).asRec.getReg 1).toNat = true := by simpa using accepted
  have inPar : rd.addrInPar ((t.core.mem r).asRec.getReg 1).toNat = true := by
    simp only [validateIpa, Bool.and_eq_true] at fine
    exact fine.1.2
  rw [wp_bind]
  refine wp_ipaToPa (a := o) serving.realm serving.inv inPar (fun unmapped => ?_) fun pa mapped isData => ?_
  · rw [wp_bind]
    exact ⟨fun answers => answers fine unmapped, fun _ _ => rfl⟩
  rw [wp_bind, orInput, wp_pure, wp_bind, wp_contentPage, wp_bind, wp_setPage]
  refine wp_mono (wp_reply serving.has.1 (by decide)) (fun _ _ served => iff_of_true served fun _ => ?_) fun _ _ => id
  rw [show t.core.ipaToPa? rd _ = _ from mapped]
  simp

theorem Serving.getRipasState : wp (Rsi.getRipasState (granuleAddrToIndex r)) (Decides Rsi.ipaStateGetCmd r o rd t)
    (Fails Rsi.ipaStateGetCmd r rd t) t := by
  unfold Rsi.getRipasState
  refine serving.wp_ownerRd ?_
  dsimp only
  rw [wp_bind, wp_contentRec, indexToAddr_granuleAddrToIndex serving.has.1]
  refine wp_if (fun bad => ?_) fun accepted => ?_
  · refine wp_mono (wp_reply serving.has.1 (by decide)) (fun _ _ served => iff_of_true served fun fine => ?_) fun _ _ => id
    rw [fine] at bad
    exact nomatch bad
  have fine : validateIpa rd ((t.core.mem r).asRec.getReg 1).toNat = true := by simpa using accepted
  rw [wp_bind]
  unfold Rtt.getRipas
  rw [wp_bind]
  refine wp_getS2tte (a := o) serving.realm serving.inv (Nat.le_refl 3) 
    (validateIpa_spec (serving.inv.realms.shape serving.realm) fine).1 fun slot last found reached => ?_
  dsimp only
  rw [wp_bind]
  refine wp_errIf (fun short => ⟨fun answers => ?_, fun _ _ => rfl⟩) fun bottom => ?_
  · obtain ⟨_, whole⟩ := answers fine
    cases found.symm.trans whole
    exact short rfl
  have bottom : 3 = last := Decidable.not_not.mp bottom
  subst bottom
  have reply : ∀ ripas : Word, wp (do
      modifyRec (granuleAddrToIndex r) fun r => (r.setReg 0 Rsi.success).setReg 1 ripas
      pure Rsi.rmiSuccessRecEnter) (Decides Rsi.ipaStateGetCmd r o rd t) (Fails Rsi.ipaStateGetCmd r rd t)
      { t with held := [granuleAddrToIndex o, granuleAddrToIndex r] } := by
    intro ripas
    rw [wp_bind, wp_modifyRec serving.has.1, wp_pure]
    refine iff_of_true (served_setContent ?_) fun _ => ⟨slot, found⟩
    rw [Rec.getReg_setReg_of_ne _ (by omega) _ (by omega), Rec.getReg_setReg_same _ (by omega)]
    decide
  exact wp_if (fun _ => reply _) fun _ => reply _

theorem Serving.attestTokenContinue : wp (Rsi.attestTokenContinue (granuleAddrToIndex r))
    (Decides Rsi.attestTokenContinueCmd r o rd t) (Fails Rsi.attestTokenContinueCmd r rd t) t := by
  have valid := serving.has.1
  have replied : ∀ {u code}, t.core.Answers r rd Rsi.attestTokenContinueCmd → code ∈ Rsi.results →
      wp (Rsi.answer (granuleAddrToIndex r) code) (Decides Rsi.attestTokenContinueCmd r o rd t)
        (Fails Rsi.attestTokenContinueCmd r rd t) u := fun answers result =>
    wp_mono (wp_reply valid result) (fun _ _ served => iff_of_true served answers) fun _ _ => id
  unfold Rsi.attestTokenContinue
  refine serving.wp_ownerRd ?_
  dsimp only
  rw [wp_bind, wp_contentRec, indexToAddr_granuleAddrToIndex valid]
  refine wp_if (fun idle => replied (fun busy => absurd busy idle) (by decide)) fun busy =>
    wp_if (fun bad => replied (fun _ fine => ?_) (by decide)) fun accepted => ?_
  · rw [fine] at bad
    cases bad
  have busy : (t.core.mem r).asRec.attestState = .attestInProgress := Decidable.not_not.mp busy
  have fine : validateIpa rd ((t.core.mem r).asRec.getReg 1).toNat = true := by simpa using accepted
  have inPar : rd.addrInPar ((t.core.mem r).asRec.getReg 1).toNat = true := by
    simp only [validateIpa, Bool.and_eq_true] at fine
    exact fine.1.2
  rw [wp_bind]
  refine wp_ipaToPa (a := o) serving.realm serving.inv inPar (fun unmapped => ?_) fun pa mapped isData => ?_
  · rw [wp_bind]
    exact ⟨fun answers => (answers busy fine).1 unmapped, fun _ _ => rfl⟩
  have some : t.core.ipaToPa? rd ((t.core.mem r).asRec.getReg 1).toNat ≠ none := by
    rw [show t.core.ipaToPa? rd _ = _ from mapped]
    simp
  rw [wp_bind, orInput, wp_pure]
  refine wp_if (fun long => replied (fun _ _ => ⟨some, fun short => absurd short (Nat.not_le.mpr long)⟩) (by decide))
    fun short => ?_
  rw [wp_bind]
  unfold Rsi.getTokenPart
  rw [wp_bind, wp_contentRec, wp_bind, indexToAddr_granuleAddrToIndex valid]
  refine wp_orPanic (fun none => ⟨fun answers => ?_, (by simp)⟩) fun token has => ?_
  · obtain ⟨token, has, _⟩ := (answers busy fine).2 (Nat.not_lt.mp short)
    cases none.symm.trans has
  refine wp_if (fun ended => ⟨fun answers => ?_, (by simp)⟩) fun inside => ?_
  · obtain ⟨token', has', inside⟩ := (answers busy fine).2 (Nat.not_lt.mp short)
    cases has.symm.trans has'
    exact absurd ended (Nat.not_lt.mpr inside)
  have answers : t.core.Answers r rd Rsi.attestTokenContinueCmd := fun _ _ =>
    ⟨some, fun _ => ⟨token, has, Nat.not_lt.mp inside⟩⟩
  dsimp only
  rw [wp_bind, wp_modifyRec valid, wp_pure]
  dsimp only
  rw [wp_bind, wp_contentPage, wp_bind, wp_setPage]
  refine wp_if (fun _ => ?_) fun _ => ?_
  · rw [wp_bind, wp_modifyRec valid, wp_bind, wp_modifyRec valid, wp_pure]
    refine iff_of_true (served_setContent ?_) answers
    rw [Rec.getReg_setReg_of_ne _ (by omega) _ (by omega), Core.mem_setContent_same]
    change (Rec.setReg _ 0 _).getReg 0 ∈ _
    rw [Rec.getReg_setReg_same _ (by omega)]
    decide
  · rw [wp_bind, wp_modifyRec valid, wp_bind, wp_modifyRec valid, wp_pure]
    refine iff_of_true (served_setContent ?_) answers
    rw [Rec.getReg_setReg_of_ne _ (by omega) _ (by omega), Core.mem_setContent_same]
    change (Rec.setReg _ 0 _).getReg 0 ∈ _
    rw [Rec.getReg_setReg_same _ (by omega)]
    decide

end Failures

/-! ### Every call -/

theorem Rsi.handler_decides {command : Nat} {handler : RmmM Nat} (serving : Serving t r o rd)
    (found : Rsi.handler? command (granuleAddrToIndex r) = some handler) :
    wp handler (Decides command r o rd t) (Fails command r rd t) t := by
  have always : ∀ {m : RmmM Nat}, t.core.Answers r rd command → wp m (Served command r o) (fun _ _ => False) t →
      wp m (Decides command r o rd t) (Fails command r rd t) t := fun answers spec =>
    wp_mono spec (fun _ _ served => iff_of_true served answers) fun _ _ => False.elim
  have valid := serving.has.1
  unfold Rsi.handler? at found
  obtain ⟨rfl, rfl⟩ | found := some_of_ite found
  · exact always (Core.answers_other nofun nofun nofun nofun nofun) serving.abiVersion
  obtain ⟨rfl, rfl⟩ | found := some_of_ite found
  · exact always (Core.answers_other nofun nofun nofun nofun nofun) serving.features
  obtain ⟨rfl, rfl⟩ | found := some_of_ite found
  · exact always (Core.answers_other nofun nofun nofun nofun nofun) serving.measurementRead
  obtain ⟨rfl, rfl⟩ | found := some_of_ite found
  · exact always (Core.answers_other nofun nofun nofun nofun nofun) serving.measurementExtend
  obtain ⟨rfl, rfl⟩ | found := some_of_ite found
  · exact always (Core.answers_other nofun nofun nofun nofun nofun) serving.attestTokenInit
  obtain ⟨rfl, rfl⟩ | found := some_of_ite found
  · exact serving.attestTokenContinue
  obtain ⟨rfl, rfl⟩ | found := some_of_ite found
  · exact serving.realmConfig
  obtain ⟨rfl, rfl⟩ | found := some_of_ite found
  · exact always (Core.answers_other nofun nofun nofun nofun nofun) serving.setRipasState
  obtain ⟨rfl, rfl⟩ | found := some_of_ite found
  · exact serving.getRipasState
  obtain ⟨rfl, rfl⟩ | found := some_of_ite found
  · exact serving.doHostCall
  obtain ⟨rfl, rfl⟩ | found := some_of_ite found
  · exact always (Core.answers_other nofun nofun nofun nofun nofun) serving.isletRealmSealingKey
  obtain ⟨rfl, rfl⟩ | found := some_of_ite found
  · exact always (Core.answers_other nofun nofun nofun nofun nofun) (wp_reply valid (by decide))
  obtain ⟨rfl, rfl⟩ | found := some_of_ite found
  · -- nothing is recorded for a REC that is suspended
    refine wp_leaves (iff_of_false ?_ fun answers => answers rfl)
    rintro (⟨wrong, _⟩ | ⟨_, recorded⟩)
    · exact nomatch wrong
    · exact recorded
  obtain ⟨rfl, rfl⟩ | found := some_of_ite found
  · exact always (Core.answers_other nofun nofun nofun nofun nofun) serving.psciCpuOff
  obtain ⟨rfl, rfl⟩ | found := some_of_ite found
  · exact always (Core.answers_other nofun nofun nofun nofun nofun) serving.psciCpuOn
  obtain ⟨rfl, rfl⟩ | found := some_of_ite found
  · exact always (Core.answers_other nofun nofun nofun nofun nofun) serving.psciAffinityInfo
  obtain ⟨rfl, rfl⟩ | found := some_of_ite found
  · exact always (Core.answers_other nofun nofun nofun nofun nofun) (serving.psciSystemOff (.inl rfl))
  obtain ⟨rfl, rfl⟩ | found := some_of_ite found
  · exact always (Core.answers_other nofun nofun nofun nofun nofun) (serving.psciSystemOff (.inr rfl))
  obtain ⟨rfl, rfl⟩ | found := some_of_ite found
  · exact always (Core.answers_other nofun nofun nofun nofun nofun) serving.psciFeatures
  obtain ⟨rfl, rfl⟩ | found := some_of_ite found
  · exact always (Core.answers_other nofun nofun nofun nofun nofun) (wp_reply valid (by decide))
  exact nomatch found

omit [Platform] in
theorem Error.code_pos (e : Error) : e.code ≠ Rsi.rmiSuccess := by
  cases e <;> simp [Error.code]

/-- The realm goes on with a reply in `x0`, or the host is told of no failure and has a request to complete. -/
def CallEnds (command r o : Nat) (ret : Bool × Nat) (u : Machine) : Prop :=
  if ret.1 then ret.2 = Rsi.rmiSuccess ∧ Recorded command r o u else (u.core.mem r).asRec.getReg 0 ∈ Rsi.results

/-- A call goes to its handler, whose error becomes the result of the call. -/
theorem wp_callsHandler {handler : RmmM Nat} {ok : Bool × Nat → Machine → Prop} (isRsi : step.IsRsi)
    (found : Rsi.handler? (step.context.gpRegs 0).toNat (granuleAddrToIndex r) = some handler)
    (body : wp handler
      (fun ret u => ok (decide (ret ≠ Rsi.rmiSuccessRecEnter), ret) { u with held := t.held })
      (fun halt u => match halt with
        | .error e => ok (decide (e.code ≠ Rsi.rmiSuccessRecEnter), e.code) { u with held := t.held }
        | other => err' other { u with held := t.held }) t) :
    wp (Rmi.handleRealmExit (granuleAddrToIndex r) step) ok err' t := by
  unfold Rmi.handleRealmExit
  dsimp only
  refine wp_if (fun _ => ?_) fun other => absurd isRsi other
  rw [wp_bind]
  unfold Rsi.handleRsi
  rw [found]
  dsimp only
  rw [wp_bind]
  refine wp_result (wp_inScope (wp_mono body (fun _ _ => id) fun halt u held => ?_))
  cases halt <;> exact held

/-- A call ends as the realm relies on exactly if the monitor can answer it. -/
theorem Serving.handleRealmExit (serving : Serving t r o rd) (isRsi : step.IsRsi)
    (registers : (t.core.mem r).asRec.getReg = step.context.gpRegs) :
    wp (Rmi.handleRealmExit (granuleAddrToIndex r) step) (CallEnds (step.context.gpRegs 0).toNat r o)
      (fun _ _ => False) t ↔ t.core.Answers r rd (step.context.gpRegs 0).toNat := by
  refine wp_iff_of_decides ?_
  cases found : Rsi.handler? (step.context.gpRegs 0).toNat (granuleAddrToIndex r) with
  | none =>
    unfold Rmi.handleRealmExit
    dsimp only
    refine wp_if (fun _ => ?_) fun other => absurd isRsi other
    unfold Rsi.handleRsi
    rw [found, wp_bind, wp_bind, wp_modifyRec serving.has.1, wp_pure]
    refine iff_of_true ?_ (Core.answers_other ?_ ?_ ?_ ?_ ?_)
    · change ((t.core.setContent r _).mem r).asRec.getReg 0 ∈ _
      rw [Core.mem_setContent_same, Content.asRec_recCtx, Rec.getReg_setReg_same _ (by omega)]
      decide
    all_goals
      intro same
      rw [same] at found
      exact nomatch found
  | some handler =>
    refine wp_callsHandler isRsi found (wp_mono (Rsi.handler_decides serving found) (fun ret u decides => ?_)
      fun halt u fails => ?_)
    · refine Iff.trans ?_ decides
      by_cases resumes : ret = Rsi.rmiSuccessRecEnter
      · subst resumes
        exact ⟨fun result => .inl ⟨rfl, result⟩, fun served => (served.resolve_right fun both => nomatch both.1).2⟩
      · rw [decide_eq_true resumes]
        exact ⟨.inr, fun served => served.resolve_left fun both => resumes both.1⟩
    · cases halt with
      | error e =>
        refine iff_of_false ?_ fails.1
        by_cases resumes : e.code = Rsi.rmiSuccessRecEnter
        · -- the realm would go on with the number of its call in `x0`
          rw [resumes]
          intro (result : (u.core.mem r).asRec.getReg 0 ∈ Rsi.results)
          rw [fails.2 e rfl, registers] at result
          exact nomatch (Rsi.handler?_result result _).symm.trans found
        · rw [decide_eq_true resumes]
          exact fun ends => e.code_pos ends.1
      | _ => exact fails.1

/-- Whatever a realm asks for at an exit, it is answered, or the host is left with a request to complete and no
failure, exactly if the call is one that the monitor can answer. -/
theorem Machine.Reachable.calls_answered {recW runW : Word} {before : List RealmStep} (reached : s.Reachable)
    (exits : s.Exits recW runW before step u) (isRsi : step.IsRsi) :
    ∃ o rd, (u.core.mem recW.toNat).asRec.owner = some o ∧ u.core.realm? o = some rd ∧
      (wp (Rmi.handleRealmExit (granuleAddrToIndex recW.toNat) step)
          (CallEnds (step.context.gpRegs 0).toNat recW.toNat o) (fun _ _ => False) u ↔
        u.core.Answers recW.toNat rd (step.context.gpRegs 0).toNat) := by
  obtain ⟨o, atExit⟩ := exits.atExit reached.inv fun _ => id
  obtain ⟨rd, serving⟩ := atExit.serving reached.inv
  exact ⟨o, rd, serving.owner, serving.realm, serving.handleRealmExit isRsi atExit.registers⟩

/-- A realm calls the monitor with these registers. -/
def RealmStep.call (registers : Nat → Word) : RealmStep :=
  ⟨[], { Context.new with gpRegs := registers }, 0x10, 0, 0, 0⟩

omit [Platform] in
theorem RealmStep.call_isRsi (registers : Nat → Word) : (RealmStep.call registers).IsRsi := by
  change (0x10 : Word).toNat % 16 = 0 ∧ (0x10 : Word).toNat / 16 % 16 = 1
  decide

open Sample in
omit [Platform] in
/-- A realm asks for the version of PSCI. -/
theorem calls_answered_version : ∃ _ : Platform, ∃ (s u : Machine) (recW runW : Word) (step : RealmStep) (o : Nat),
    s.Reachable ∧ s.Exits recW runW [] step u ∧ step.IsRsi ∧
      wp (Rmi.handleRealmExit (granuleAddrToIndex recW.toNat) step) (CallEnds Rsi.psciVersionCmd recW.toNat o)
        (fun _ _ => False) u := by
  let step := RealmStep.call fun _ => BitVec.ofNat 64 Rsi.psciVersionCmd
  have exits : staffed.Exits (BitVec.ofNat 64 (bankAt 5)) (BitVec.ofNat 64 hostPage) [] step _ :=
    Machine.exits_firstExit (by decide +kernel)
  obtain ⟨o, _, _, _, ends⟩ := staffed_via.reachable.calls_answered exits (RealmStep.call_isRsi _)
  exact ⟨platform, staffed, _, _, _, step, o, staffed_via.reachable, exits, RealmStep.call_isRsi _,
    ends.mpr (Core.answers_other nofun nofun nofun nofun nofun)⟩

/-- Registers with the given values in `x0` and `x1`. -/
def registers (x0 x1 : Word) : Nat → Word := fun i => if i = 0 then x0 else if i = 1 then x1 else 0

open Sample in
omit [Platform] in
/-- A host call with an address that is not mapped ends the entry with the error of the lookup. -/
theorem call_unanswered : ∃ _ : Platform, ∃ (s u v : Machine) (recW runW : Word) (step : RealmStep), s.Reachable ∧
    s.Exits recW runW [] step u ∧ step.IsRsi ∧
    (Rmi.handleRealmExit (granuleAddrToIndex recW.toNat) step).run u = (.ok (true, Error.rmiErrorInput.code), v) := by
  let step := RealmStep.call (registers (BitVec.ofNat 64 Rsi.hostCallCmd) 0x200000)
  have exits : staffed.Exits (BitVec.ofNat 64 (bankAt 5)) (BitVec.ofNat 64 hostPage) [] step _ :=
    Machine.exits_firstExit (by decide +kernel)
  exact ⟨platform, staffed, _, _, _, _, step, staffed_via.reachable, exits, RealmStep.call_isRsi _,
    run_of_result (by decide +kernel)⟩

/-- The first REC has been entered, and has called the monitor with these registers. -/
def Sample.calling (registers : Nat → Word) : Machine :=
  Sample.staffed.next (.recEnter (BitVec.ofNat 64 (bankAt 5)) (BitVec.ofNat 64 hostPage) [.call registers])

end Islet.Rmm
