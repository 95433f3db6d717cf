import Islet.Rmm.Requests

/-! Data aborts of a realm. An abort that the host must not emulate is reported without
the value and the address of the access, and the host has no way to answer it. What the
monitor goes by is the entry that a walk of the faulting IPA ends at. -/

namespace Islet.Rmm

open Lib Prog Bits Rmi Stage2Translation Vmsa

variable [Platform] {c₀ c c' : Core} {cmd : Command} {s t u w : Machine} {r p o : Nat} {rd : Rd} {rc rc' : Rec}
  {step step' : RealmStep} {err' : Halt → Machine → Prop}

/-! ### The entry behind an abort -/

/-- The realm exits with a data abort. -/
def RealmStep.IsAbort (step : RealmStep) : Prop :=
  step.exitCode.toNat % 16 = 0 ∧ step.exitCode.toNat / 16 % 16 = 2

/-- The IPA that HPFAR_EL2 names. -/
def RealmStep.faultIpa (step : RealmStep) : Nat := ((step.hpfar &&& Platform.fipaMask) <<< 8).toNat

/-- Nothing is there for the realm, or it has been taken away. -/
def View.Absent : View → Prop
  | .unassigned _ => True
  | .assigned _ ripas => ripas = 2
  | _ => False

/-- The page is not mapped. -/
def View.Unmapped : View → Prop
  | .unassigned _ => True
  | .assigned _ _ => True
  | _ => False

omit [Platform] in
theorem View.absent_at {v : View} (k : Nat) : (v.at_ k).Absent ↔ v.Absent := by
  cases v <;> exact Iff.rfl

omit [Platform] in
theorem View.unmapped_at {v : View} (k : Nat) : (v.at_ k).Unmapped ↔ v.Unmapped := by
  cases v <;> exact Iff.rfl

/-- A walk of the IPA ends, and the page it comes to is absent, or at least not mapped for an IPA outside the
protected half. -/
def Core.HidesAbort (c : Core) (o : Nat) (rd : Rd) (ipa : Nat) : Prop :=
  rd.tables.rootSlot? (alignDown ipa 4096) ≠ none ∧ ∃ v, c.Page o (rd.walkPage ipa) v ∧
    if rd.addrInPar ipa then v.Absent else v.Unmapped

theorem SameForest.hidesAbort (same : SameForest c c') {ipa : Nat} : c'.HidesAbort o rd ipa ↔ c.HidesAbort o rd ipa := by
  unfold Core.HidesAbort
  simp only [same.page_iff]

section Entries

omit [Platform]

variable {e : Word} {l : Nat}

theorem S2tte.isDestroyed_iff : S2tte.isDestroyed e = true ↔ S2tte.descNum e = 0 ∧ S2tte.ripasNum e = 2 := by
  unfold S2tte.isDestroyed
  rw [Bool.and_eq_true, beq_iff_eq, beq_iff_eq, S2tte.descType_eq, S2tte.ripas_eq]
  rfl

theorem S2tte.absent_iff (fits : (S2tte.view l e).Protected) :
    (S2tte.isUnassigned e || S2tte.isDestroyed e) = true ↔ (S2tte.view l e).Absent := by
  rw [Bool.or_eq_true]
  cases meaning : S2tte.view l e with
  | unassigned _ => exact ⟨fun _ => trivial, fun _ => .inl (S2tte.isUnassigned_of_view meaning).1⟩
  | assigned _ ripas =>
    obtain ⟨assigned, _, _, _, ripas⟩ := S2tte.isAssigned_of_view meaning
    obtain ⟨desc, hipas, _⟩ := (S2tte.isAssigned_iff e).mp assigned
    rw [S2tte.isUnassigned_iff, S2tte.isDestroyed_iff, ripas]
    change _ ↔ S2tte.ripasNum e = 2
    omega
  | ram _ =>
    obtain ⟨_, _, _, _, desc⟩ := S2tte.mapped_of_view meaning
    rw [S2tte.isUnassigned_iff, S2tte.isDestroyed_iff]
    refine iff_of_false (fun either => ?_) id
    omega
  | _ =>
    rw [meaning] at fits
    exact fits.elim

theorem S2tte.unmapped_iff (fits : (S2tte.view l e).Protected ∨ (S2tte.view l e).Unprotected) :
    (S2tte.isUnassigned e || S2tte.isAssigned e) = true ↔ (S2tte.view l e).Unmapped := by
  rw [Bool.or_eq_true]
  cases meaning : S2tte.view l e with
  | unassigned _ => exact ⟨fun _ => trivial, fun _ => .inl (S2tte.isUnassigned_of_view meaning).1⟩
  | assigned _ _ => exact ⟨fun _ => trivial, fun _ => .inr (S2tte.isAssigned_of_view meaning).1⟩
  | ram _ =>
    obtain ⟨_, _, _, _, desc⟩ := S2tte.mapped_of_view meaning
    rw [S2tte.isUnassigned_iff, S2tte.isAssigned_iff]
    refine iff_of_false (fun either => ?_) id
    omega
  | ns _ =>
    obtain ⟨_, _, _, _, desc⟩ := S2tte.ns_of_view meaning
    rw [S2tte.isUnassigned_iff, S2tte.isAssigned_iff]
    refine iff_of_false (fun either => ?_) id
    omega
  | unassignedNs =>
    obtain ⟨_, _, ns⟩ := (S2tte.isUnassignedNs_iff e).mp (S2tte.isUnassignedNs_of_view meaning)
    rw [S2tte.isUnassigned_iff, S2tte.isAssigned_iff]
    refine iff_of_false (fun either => ?_) id
    omega
  | _ =>
    rw [meaning] at fits
    exact fits.elim False.elim False.elim

end Entries

theorem descend_ne_panic {addr level depth : Nat} {check : Bool} (slot : Slot) :
    descend c addr level check depth slot ≠ .panic := by
  induction depth generalizing slot with
  | zero =>
    unfold descend
    split_ifs <;> simp
  | succ depth ih =>
    unfold descend
    dsimp only
    split_ifs
    · simp
    · simp
    · exact ih _
    · simp

theorem rootSlot?_of_walk {tables : Stage2Translation} {ipa last : Nat} {slot : Slot}
    (walked : tables.walk c ipa 3 false = .found slot last) : tables.rootSlot? (alignDown ipa 4096) ≠ none := by
  intro none
  unfold walk at walked
  rw [if_neg (by omega), none] at walked
  exact nomatch walked

theorem rootSlot?_of_panic {tables : Stage2Translation} {ipa : Nat} (panic : tables.walk c ipa 3 false = .panic) :
    tables.rootSlot? (alignDown ipa 4096) = none := by
  unfold walk at panic
  rw [if_neg (by omega)] at panic
  cases root : tables.rootSlot? (alignDown ipa 4096) with
  | none => rfl
  | some slot =>
    rw [root] at panic
    exact absurd panic (descend_ne_panic slot)

/-- The test of `is_non_emulatable_data_abort` on the entry that the walk ends at. -/
def Rd.hidesEntry (rd : Rd) (ipa : Nat) (esr e : Word) : Bool :=
  if rd.addrInPar ipa then S2tte.isUnassigned e || S2tte.isDestroyed e
  else (S2tte.isUnassigned e && (esr &&& EsrEl2.isv == 0)) || S2tte.isAssigned e

/-- The monitor lets the host emulate the access. -/
def Core.Emulatable (c : Core) (rd : Rd) (step : RealmStep) : Prop :=
  ∃ slot level, rd.tables.walk c step.faultIpa 3 false = .found slot level ∧
    rd.hidesEntry step.faultIpa step.esr (pte c slot) = false

theorem wp_testsEntry {ipa : Nat} {esr : Word} {ok : Bool → Machine → Prop} (realm : t.core.realm? o = some rd)
    (inv : t.core.Inv) (lost : rd.tables.rootSlot? (alignDown ipa 4096) = none → ∀ u, err' .panic u)
    (next : ∀ slot last, rd.tables.walk t.core ipa 3 false = .found slot last →
      ok (rd.hidesEntry ipa esr (pte t.core slot)) t) : wp (isNonEmulatableDataAbort rd ipa esr) ok err' t := by
  have reached := walk_reached realm (inv.realms.shape realm) ipa false (Nat.le_refl 3)
  unfold isNonEmulatableDataAbort getS2tte
  rw [wp_bind, wp_bind]
  refine wp_walkTo (inv.realms.registered realm) (fun slot last walked => ?_) (fun walked => ?_)
    fun walked => lost (rootSlot?_of_panic walked) _
  · have done := next slot last walked
    unfold Rd.hidesEntry at done
    change wp (if rd.addrInPar ipa then _ else _) _ _ _
    refine wp_if (fun isProtected => ?_) fun outside => ?_
    · rw [if_pos isProtected] at done
      exact done
    · rw [if_neg outside] at done
      exact done
  · change rd.tables.walk t.core ipa 3 false = .missing at walked
    rw [walked] at reached
    cases reached

/-- The monitor's own test, for the aborts that the host must not emulate. -/
theorem Core.hidesEntry_iff {ipa last : Nat} {esr : Word} {slot : Slot} (realm : c.realm? o = some rd) (inv : c.Inv)
    (walked : rd.tables.walk c ipa 3 false = .found slot last)
    (guarded : rd.addrInPar ipa = true ∨ esr &&& EsrEl2.isv = 0) :
    rd.hidesEntry ipa esr (pte c slot) = true ↔ c.HidesAbort o rd ipa := by
  have shape := inv.realms.shape realm
  have reached := walk_reached realm shape ipa false (Nat.le_refl 3)
  have ends := rootSlot?_of_walk walked
  rw [walked] at reached
  have place := reached.1
  have page := Core.Page.of_entry place.entry (place.leaf rfl (by have := shape.level_le; omega)) place.high rfl
  have fits := (Rd.fits_at _).mp (inv.tables.pages realm page)
  have hides : c.HidesAbort o rd ipa ↔ if rd.addrInPar ipa then (S2tte.view last (pte c slot)).Absent
      else (S2tte.view last (pte c slot)).Unmapped := by
    have same : ∀ v, c.Page o (rd.walkPage ipa) v ↔ v = _ := fun v => ⟨fun other => other.unique page, fun eq => eq ▸ page⟩
    unfold Core.HidesAbort
    simp only [same, exists_eq_left, View.absent_at, View.unmapped_at]
    exact and_iff_right ends
  rw [hides, Rd.hidesEntry]
  by_cases isProtected : rd.addrInPar ipa = true
  · rw [if_pos isProtected, if_pos isProtected]
    refine S2tte.absent_iff ?_
    have below : ipa < rd.parSize := by simpa [Rd.addrInPar] using isProtected
    rw [shape.walkPage_eq (below.trans_le (Nat.div_le_self _ _)), Rd.Fits,
      if_pos (inPar_of_addrInPar isProtected)] at fits
    exact fits
  · have unknown : (esr &&& EsrEl2.isv == 0) = true := beq_iff_eq.mpr (guarded.resolve_left isProtected)
    rw [if_neg isProtected, if_neg isProtected, unknown, Bool.and_true]
    refine S2tte.unmapped_iff ?_
    unfold Rd.Fits at fits
    split at fits
    · exact .inl fits
    · exact .inr fits

/-! ### Reporting an abort -/

/-- The `Run` page of an abort that the host cannot emulate. -/
def RealmStep.hiddenRun (step : RealmStep) (run : Page) : Page :=
  let run := Run.set (Run.setExitReason run Rsi.exitSync) Run.hpfar step.hpfar
  Run.set (Run.set run Run.esr (step.esr &&& EsrEl2.nonEmulatableAbortMask)) Run.far 0

/-- The `Run` page of an abort that the host can emulate, with the value of a store. -/
def RealmStep.shownRun (step : RealmStep) (rc : Rec) (run : Page) : Page :=
  let run := Run.set (Run.setExitReason run Rsi.exitSync) Run.hpfar step.hpfar
  let run := if step.esr &&& EsrEl2.wnr ≠ 0 then Run.set run (Run.gpr 0) (writeVal rc step.esr) else run
  Run.set (Run.set run Run.esr (step.esr &&& EsrEl2.emulatableAbortMask)) Run.far (step.far &&& 0xfff)

/-- The state after an abort has been noted. -/
def Machine.noted (t : Machine) (r : Nat) (abort : RecEmulatableAbort) (run : Page) : Machine :=
  { t with core := t.core.setContent r (.recCtx { (t.core.mem r).asRec with emulatableAbort := abort }), run := run }

theorem Serving.wp_reports {ok : Bool × Nat → Machine → Prop} (serving : Serving t r o rd) (abort : step.IsAbort)
    (lost : rd.tables.rootSlot? (alignDown step.faultIpa 4096) = none → ∀ u, err' .panic u)
    (hidden : ∀ slot last, rd.tables.walk t.core step.faultIpa 3 false = .found slot last →
      rd.hidesEntry step.faultIpa step.esr (pte t.core slot) = true →
      ok (true, Rsi.rmiSuccess) (t.noted r .notEmulatableAbort (step.hiddenRun t.run)))
    (shown : ∀ slot last, rd.tables.walk t.core step.faultIpa 3 false = .found slot last →
      rd.hidesEntry step.faultIpa step.esr (pte t.core slot) = false →
      ok (true, Rsi.rmiSuccess) (t.noted r .emulatableAbort (step.shownRun (t.core.mem r).asRec t.run))) :
    wp (Rmi.handleRealmExit (granuleAddrToIndex r) step) ok err' t := by
  have valid := serving.has.1
  unfold Rmi.handleRealmExit
  dsimp only
  refine wp_if (fun isRsi => ?_) fun _ => wp_if (fun _ => ?_) fun other => absurd abort other
  · exact nomatch isRsi.2.symm.trans abort.2
  rw [wp_bind]
  unfold handleDataAbort
  refine wp_inScope (serving.wp_ownerRd ?_)
  dsimp only
  rw [wp_bind, wp_modifyRun, wp_bind]
  refine wp_testsEntry (o := o) serving.realm serving.inv (fun none _ => lost none _) fun slot last walked => ?_
  refine wp_if (fun hides => ?_) fun shows => ?_
  · have done := hidden slot last walked hides
    rw [wp_bind, wp_modifyRec valid, wp_bind, wp_modifyRun, wp_pure, wp_pure]
    exact done
  · have done := shown slot last walked (Bool.eq_false_iff.mpr shows)
    rw [wp_bind, wp_contentRec, indexToAddr_granuleAddrToIndex valid]
    unfold RealmStep.shownRun at done
    dsimp only at done
    refine wp_if (fun store => ?_) fun load => ?_
    · rw [wp_bind, wp_modifyRun, wp_bind, wp_modifyRec valid, wp_bind, wp_modifyRun, wp_pure, wp_pure]
      rw [if_pos store] at done
      exact done
    · rw [wp_bind, wp_modifyRec valid, wp_bind, wp_modifyRun, wp_pure, wp_pure]
      rw [if_neg load] at done
      exact done

theorem Serving.wp_abort {ok : Bool × Nat → Machine → Prop} (serving : Serving t r o rd) (abort : step.IsAbort)
    (lost : rd.tables.rootSlot? (alignDown step.faultIpa 4096) = none → ∀ u, err' .panic u)
    (hidden : (rd.addrInPar step.faultIpa = true ∨ step.esr &&& EsrEl2.isv = 0 →
        t.core.HidesAbort o rd step.faultIpa) →
      ok (true, Rsi.rmiSuccess) (t.noted r .notEmulatableAbort (step.hiddenRun t.run)))
    (shown : (rd.addrInPar step.faultIpa = true ∨ step.esr &&& EsrEl2.isv = 0 →
        ¬t.core.HidesAbort o rd step.faultIpa) →
      ok (true, Rsi.rmiSuccess) (t.noted r .emulatableAbort (step.shownRun (t.core.mem r).asRec t.run))) :
    wp (Rmi.handleRealmExit (granuleAddrToIndex r) step) ok err' t := by
  refine serving.wp_reports abort lost (fun slot last walked hides => hidden fun guard => ?_)
    fun slot last walked shows => shown fun guard hides => ?_
  · exact (Core.hidesEntry_iff serving.realm serving.inv walked guard).mp hides
  · exact nomatch shows.symm.trans ((Core.hidesEntry_iff serving.realm serving.inv walked guard).mpr hides)

/-- The part of the exit record that depends on the access. -/
def Run.access (run : Page) : Word × Word × Word := (run (Run.gpr 0), run Run.esr, run Run.far)

omit [Platform] in
theorem Run.access_set {run : Page} {word : Nat} {value : Word} (gpr : word ≠ Run.gpr 0) (esr : word ≠ Run.esr)
    (far : word ≠ Run.far) : Run.access (Run.set run word value) = Run.access run := by
  unfold Run.access Run.set
  rw [Function.update_of_ne (Ne.symm gpr), Function.update_of_ne (Ne.symm esr), Function.update_of_ne (Ne.symm far)]

/-- Interrupts and timers are reported elsewhere. -/
theorem Run.access_report (rc : Rec) (run : Page) : Run.access (rc.report run) = Run.access run := by
  have registers : ∀ (list : List Nat) (run : Page), Run.access (list.foldl (fun run i =>
      Run.set run (Run.gicLr i) (rc.context.gicState.ichLrEl2 i)) run) = Run.access run := by
    intro list
    induction list with
    | nil => exact fun _ => rfl
    | cons i rest ih =>
      intro run
      rw [List.foldl_cons, ih, Run.access_set] <;> simp only [Run.gicLr, Run.gpr, Run.esr, Run.far] <;> omega
  unfold Rec.report Timer.sendStateToHost Gic.sendStateToHost
  dsimp only
  iterate 7 rw [Run.access_set (by decide) (by decide) (by decide)]
  exact registers _ _

omit [Platform] in
theorem RealmStep.access_hiddenRun (step : RealmStep) (run : Page) :
    Run.access (step.hiddenRun run) = (run (Run.gpr 0), step.esr &&& EsrEl2.nonEmulatableAbortMask, 0) := rfl

omit [Platform] in
theorem RealmStep.far_shownRun (step : RealmStep) (rc : Rec) (run : Page) :
    (Run.access (step.shownRun rc run)).2.2 = step.far &&& 0xfff := rfl

/-- Two exits that differ in the registers of the realm and in FAR_EL2 only. -/
structure RealmStep.SameFault (step step' : RealmStep) : Prop where
  stores : step'.stores = step.stores
  exitCode : step'.exitCode = step.exitCode
  esr : step'.esr = step.esr
  hpfar : step'.hpfar = step.hpfar

/-- REC_ENTER, which comes to the exit `step` after the exits `before`, tells the host the same of every access
that causes the same fault. -/
def Machine.HidesAccess (s : Machine) (recW runW : Word) (before : List RealmStep) (step : RealmStep) : Prop :=
  ∃ record, ∀ {step' u'}, step.SameFault step' → s.Exits recW runW before step' u' →
    (∃ v, (handleRealmExit (granuleAddrToIndex recW.toNat) step').run u' = (.ok (true, Rsi.rmiSuccess), v) ∧
      Run.access v.run = record) ∧
    ∀ {t}, s.Succeeds (.recEnter recW runW (before ++ [step'])) t →
      Run.access (t.core.mem runW.toNat).words = record

/-- Runs from `s` in which the REC at `r` is there all the time and is not entered. -/
inductive Machine.Unentered (r : Nat) (s : Machine) : Machine → Prop where
  | refl : Unentered r s s
  | command {t u : Machine} (run : Unentered r s t) (cmd : Command) (returned : t.exec cmd = some u)
    (other : ¬EntersRec cmd r) (stays : u.core.Has r .recCtx) : Unentered r s u
  | hostWrite {t : Machine} (run : Unentered r s t) (addr : Nat) (page : Page) (valid : validateAddr addr)
    (outside : t.core.gptOf addr ≠ .realm) : Unentered r s (t.hostWrite addr page)

/-- When the REC is entered again with an emulated access, after REC_ENTER has come to the exit `step`, it has its
registers still, but for the answer of the monitor to a host call. -/
def Machine.KeepsRegisters (s : Machine) (recW runW : Word) (before : List RealmStep) (step : RealmStep) : Prop :=
  ∀ {t x y runW' script}, s.Succeeds (.recEnter recW runW (before ++ [step])) t → t.Unentered recW.toNat x →
    Run.entryFlags (x.core.mem runW'.toNat).words &&& 1 ≠ 0 → x.exec (.recEnter recW runW' script) = some y →
    ∀ i, (y.core.mem recW.toNat).asRec.getReg i = (x.core.mem recW.toNat).asRec.getReg i ∨
      i = 0 ∧ (x.core.mem recW.toNat).asRec.hostCallPending = true ∧
        ((y.core.mem recW.toNat).asRec.getReg i = Rsi.success ∨ (y.core.mem recW.toNat).asRec.getReg i = Rsi.errorInput)

/-! ### The REC after the report -/

/-- What a REC keeps of an attestation. -/
def Rec.attest (rc : Rec) : AttestState × List Byte × Nat := (rc.attestState, rc.attestChallenge, rc.attestTokenOffset)

/-- What can become of a REC that is not entered: a change of RIPAS that it has asked for may come further. -/
structure Rec.Unentered (rc rc' : Rec) : Prop where
  abort : rc'.emulatableAbort = rc.emulatableAbort
  attest : rc'.attest = rc.attest
  endAddr : rc'.ripas.endAddr = rc.ripas.endAddr
  low : rc.ripas.addr ≤ rc'.ripas.addr
  high : rc.ripas.addr ≤ rc.ripas.endAddr → rc'.ripas.addr ≤ rc'.ripas.endAddr

omit [Platform] in
theorem Rec.Unentered.of_eq (abort : rc'.emulatableAbort = rc.emulatableAbort) (attest : rc'.attest = rc.attest)
    (ripas : rc'.ripas = rc.ripas) : rc.Unentered rc' := by
  refine ⟨abort, attest, ?_, ?_, ?_⟩ <;> rw [ripas]
  exact id

omit [Platform] in
theorem Rec.Unentered.trans {rc'' : Rec} (first : rc.Unentered rc') (second : rc'.Unentered rc'') : rc.Unentered rc'' :=
  ⟨second.abort.trans first.abort, second.attest.trans first.attest, second.endAddr.trans first.endAddr,
    first.low.trans second.low, fun high => second.high (first.high high)⟩

theorem RecStep.unentered {events : List Event} (step : RecStep c₀ c cmd r rc rc' events) (other : ¬EntersRec cmd r) :
    rc.Unentered rc' := by
  cases step with
  | progress addr _ low high => exact ⟨rfl, rfl, rfl, Nat.le_of_lt low, fun _ => high⟩
  | answered same completes =>
    obtain ⟨_, _, _, _, _, _, run⟩ := completes.completed
    rw [same] at run
    obtain ⟨_, rfl⟩ := (completePsci?_spec run).answered
    exact .of_eq rfl rfl rfl
  | started same completes =>
    obtain ⟨_, _, _, _, _, _, run⟩ := completes.completed
    rw [same] at run
    rcases (completePsci?_spec run).started with rfl | ⟨_, _, rfl⟩
    · exact .of_eq rfl rfl rfl
    · exact .of_eq rfl rfl rfl
  | _ enters => exact absurd enters other

theorem Moves.unentered (moves : Moves c₀ cmd c₀ c) (inv : c₀.Inv) (other : ¬EntersRec cmd r) (has : c₀.Has r .recCtx)
    (after : c.stateOf r = .recCtx) : (c₀.mem r).asRec.Unentered (c.mem r).asRec := by
  refine moves.invariant (P := fun c => c.stateOf r = .recCtx → (c₀.mem r).asRec.Unentered (c.mem r).asRec) inv
    (fun _ => .of_eq rfl rfl rfl) ?_ after
  intro c c' inv' before move after
  cases (move.effect inv').recMove has.1 after with
  | kept state same _ =>
    rw [same]
    exact before state
  | step state step _ after _ =>
    rw [after]
    exact (before state).trans (step.unentered other)
  | enter _ enters _ _ _ => exact absurd enters other
  | created start _ state _ _ _ _ _ _ =>
    rw [start] at state
    exact nomatch state.symm.trans has.2

theorem Machine.Unentered.same (run : s.Unentered r t) (inv : s.core.Inv) (has : s.core.Has r .recCtx) :
    t.core.Inv ∧ t.core.Has r .recCtx ∧ (s.core.mem r).asRec.Unentered (t.core.mem r).asRec := by
  induction run with
  | refl => exact ⟨inv, has, .of_eq rfl rfl rfl⟩
  | command _ cmd returned other stays ih =>
    obtain ⟨inv, has, same⟩ := ih
    exact ⟨Machine.Step.inv (.command cmd returned) inv, stays,
      same.trans ((Machine.exec_moves inv returned).unentered inv other has stays.2)⟩
  | @hostWrite t _ addr page valid outside ih =>
    obtain ⟨inv, has, same⟩ := ih
    have moves : Moves t.core .unregistered t.core (t.hostWrite addr page).core :=
      .single (Move.hostWrite inv valid outside page)
    exact ⟨Machine.Step.inv (.hostWrite addr page valid outside) inv, has, same.trans (moves.unentered inv id has has.2)⟩

/-- A host call that is settled, if there is one, leaves an answer of the monitor. -/
theorem Settles.registers {page : Page} (settles : Settles c r rd page c') (i : Nat) :
    (c'.mem r).asRec.getReg i = (c.mem r).asRec.getReg i ∨ i = 0 ∧ (c.mem r).asRec.hostCallPending = true ∧
      ((c'.mem r).asRec.getReg i = Rsi.success ∨ (c'.mem r).asRec.getReg i = Rsi.errorInput) := by
  have answer : ∀ (rc : Rec) code, (Gic.receiveStateFromHost (rc.setReg 0 code) page).getReg i =
      if i = 0 then code else rc.getReg i := fun rc code => rc.getReg_setReg (i := 0) (by omega) code i
  cases settles with
  | idle =>
    rw [Core.mem_setContent_same]
    exact .inl rfl
  | refused pending =>
    rw [Core.mem_setContent_same, Content.asRec_recCtx, answer]
    by_cases first : i = 0
    · exact .inr ⟨first, pending, .inr (if_pos first)⟩
    · exact .inl (if_neg first)
  | answered pending =>
    rw [Core.mem_setContent_same, Content.asRec_recCtx]
    by_cases first : i = 0
    · exact .inr ⟨first, pending, .inl ((answer (c.mem r).asRec Rsi.success).trans (if_pos first))⟩
    · exact .inl ((answer (c.mem r).asRec Rsi.success).trans (if_neg first))

/-- REC_ENTER with an answer to an abort that cannot be emulated does not change the registers. -/
theorem Machine.rejected_registers {recW runW : Word} {script : List RealmStep} (inv : s.core.Inv)
    (rejected : (s.core.mem recW.toNat).asRec.MmioRejected (s.core.mem runW.toNat).words)
    (returned : s.exec (.recEnter recW runW script) = some t) (i : Nat) :
    (t.core.mem recW.toNat).asRec.getReg i = (s.core.mem recW.toNat).asRec.getReg i ∨
      i = 0 ∧ (s.core.mem recW.toNat).asRec.hostCallPending = true ∧
        ((t.core.mem recW.toNat).asRec.getReg i = Rsi.success ∨
          (t.core.mem recW.toNat).asRec.getReg i = Rsi.errorInput) := by
  have spec := recEnterBegins_spec (s := s.start) recW runW script inv rfl rfl rfl rfl
  have handle : s.handle (.recEnter recW runW script) = (do
      let recGranule ← recEnterBegins recW.toNat runW.toNat
      let ret ← recEnterLoop recGranule script
      recEnterReturns recGranule runW.toNat ret : RmmM Unit).run s.start := by
    rw [← recEnter_eq_begins]
    rfl
  rcases begins : (recEnterBegins recW.toNat runW.toNat).run s.start with ⟨halt | _, u⟩
  · rw [bind_run_of_error begins] at handle
    obtain ⟨e, core⟩ : ∃ e, halt = .error e ∧ t.core = u.core := by
      rcases Machine.exec_eq_some.mp returned with done | ⟨e, u', failed, rfl⟩
      · exact nomatch handle.symm.trans done
      · cases handle.symm.trans failed
        exact ⟨e, rfl, rfl⟩
    rw [core.2]
    rcases wp_error spec begins with ⟨panic, _⟩ | ⟨same, _⟩ | ⟨_, _, _, _, _, settles⟩
    · exact nomatch core.1.symm.trans panic
    · rw [same]
      exact .inl rfl
    · exact settles.registers i
  · obtain ⟨_, _, _, begun, _⟩ := wp_ok spec begins
    exact absurd rejected begun.accepted

/-! ### Protected accesses -/

section Exit

variable {recW runW : Word} {before : List RealmStep} {u' : Machine}

/-- Two exits after the same stores differ in the REC only. -/
theorem Machine.Exits.again (exits : s.Exits recW runW before step u) (inv : s.core.Inv)
    (serving : Serving u recW.toNat o rd) (stores : step'.stores = step.stores)
    (exits' : s.Exits recW runW before step' u') :
    Serving u' recW.toNat o rd ∧ SameForest u.core u'.core ∧ u'.run = u.run := by
  obtain ⟨t, _, rd', _, varies⟩ := exits.vary inv
  cases exits.unique (varies step)
  cases exits'.unique (varies step')
  have core : (t.stopped recW.toNat rd' step').core = (t.stopped recW.toNat rd' step).core.setContent recW.toNat
      (.recCtx ((t.core.mem recW.toNat).asRec.exited step')) := by
    unfold Machine.stopped Core.afterRun
    rw [stores, Core.setContent_setContent]
  have state := serving.has.2
  have notRd : (t.stopped recW.toNat rd' step).core.stateOf recW.toNat ≠ .rd := by
    rw [state]
    exact nofun
  have owner : (t.core.mem recW.toNat).asRec.owner = some o := by
    have owner := serving.owner
    unfold Machine.stopped Core.afterRun at owner
    rw [Core.mem_setContent_same] at owner
    exact owner
  have forest : SameForest (t.stopped recW.toNat rd' step).core (t.stopped recW.toNat rd' step').core := by
    rw [core]
    exact (sameOwners_setContent notRd (by rw [state]; exact nofun)).sameForest serving.inv.tables
  obtain ⟨_, atExit⟩ := exits'.atExit inv fun _ => id
  refine ⟨⟨atExit.inv inv, ⟨serving.has.1, ?_⟩, ?_, ?_, serving.active, atExit.held⟩, forest, rfl⟩
  · rw [core]
    exact state
  · rw [core, Core.mem_setContent_same]
    exact owner
  · rw [core, realm?_setContent notRd]
    exact serving.realm

/-- The access is one that the host must not emulate. -/
def RealmStep.Guarded (step : RealmStep) (rd : Rd) : Prop :=
  rd.addrInPar step.faultIpa = true ∨ step.esr &&& EsrEl2.isv = 0

theorem RealmStep.SameFault.faultIpa (same : step.SameFault step') : step'.faultIpa = step.faultIpa := by
  unfold RealmStep.faultIpa
  rw [same.hpfar]

variable (exits : s.Exits recW runW before step u) (inv : s.core.Inv) (abort : step.IsAbort)
  (serving : Serving u recW.toNat o rd) (guarded : step.Guarded rd)
include exits inv abort serving guarded

theorem Machine.Exits.reportsHidden (hides : u.core.HidesAbort o rd step.faultIpa) (same : step.SameFault step')
    (exits' : s.Exits recW runW before step' u') :
    (handleRealmExit (granuleAddrToIndex recW.toNat) step').run u' =
      (.ok (true, Rsi.rmiSuccess), u'.noted recW.toNat .notEmulatableAbort (step'.hiddenRun u.run)) := by
  obtain ⟨serving', forest, run⟩ := exits.again inv serving same.stores exits'
  have hides' : u'.core.HidesAbort o rd step'.faultIpa := by
    rw [same.faultIpa]
    exact forest.hidesAbort.mpr hides
  have guarded' : rd.addrInPar step'.faultIpa = true ∨ step'.esr &&& EsrEl2.isv = 0 := by
    rw [same.faultIpa, same.esr]
    exact guarded
  have spec : wp (handleRealmExit (granuleAddrToIndex recW.toNat) step')
      (fun ret v => ret = (true, Rsi.rmiSuccess) ∧
        v = u'.noted recW.toNat .notEmulatableAbort (step'.hiddenRun u'.run)) (fun _ _ => False) u' := by
    refine serving'.wp_abort ?_ (fun none _ => hides'.1 none) (fun _ => ⟨rfl, rfl⟩) fun shown => ?_
    · unfold RealmStep.IsAbort
      rw [same.exitCode]
      exact abort
    · exact absurd hides' (shown guarded')
  obtain ⟨_, _, handled, rfl, rfl⟩ := returns_of_wp spec
  rw [handled, run]

theorem Machine.Exits.hidesAccess (hides : u.core.HidesAbort o rd step.faultIpa) : s.HidesAccess recW runW before step := by
  refine ⟨(u.run (Run.gpr 0), step.esr &&& EsrEl2.nonEmulatableAbortMask, 0), fun {step' u'} same exits' => ?_⟩
  have handled := exits.reportsHidden inv abort serving guarded hides same exits'
  have access : Run.access (step'.hiddenRun u.run) =
      (u.run (Run.gpr 0), step.esr &&& EsrEl2.nonEmulatableAbortMask, 0) := by
    rw [RealmStep.access_hiddenRun, same.esr]
  refine ⟨⟨_, handled, access⟩, fun {t} done => ?_⟩
  obtain ⟨serving', _, _⟩ := exits.again inv serving same.stores exits'
  obtain ⟨pt, rfl⟩ := exits'.left handled inv serving'.held done
  unfold Machine.left Machine.returned
  dsimp only
  rw [Core.mem_setContent_same]
  exact (Run.access_report _ _).trans access

theorem Machine.Exits.keepsRegisters (hides : u.core.HidesAbort o rd step.faultIpa) :
    s.KeepsRegisters recW runW before step := by
  intro t x y runW' script done unentered flag returned i
  have handled := exits.reportsHidden inv abort serving guarded hides ⟨rfl, rfl, rfl, rfl⟩ exits
  have invT : t.core.Inv := Machine.Step.inv (.command _ done.exec) inv
  obtain ⟨_, _, can⟩ := exits.enterable inv
  obtain ⟨pt, rfl⟩ := exits.left handled inv serving.held done
  have has : (Machine.left _ recW.toNat runW.toNat Rsi.rmiSuccess pt).core.Has recW.toNat .recCtx :=
    ⟨serving.has.1, (serving.has.2 :)⟩
  obtain ⟨invX, _, same⟩ := unentered.same invT has
  have hidden : (x.core.mem recW.toNat).asRec.emulatableAbort = .notEmulatableAbort := by
    rw [same.abort]
    unfold Machine.left Machine.returned Machine.noted
    dsimp only
    rw [Core.mem_setContent_of_ne _ (Ne.symm can.other), Core.mem_setContent_same, Core.mem_setContent_same]
    rfl
  exact Machine.rejected_registers invX ⟨flag, .inr (by rw [hidden]; exact nofun)⟩ returned i

/-- What is reported otherwise depends on FAR_EL2. -/
theorem Machine.HidesAccess.hides (hidden : s.HidesAccess recW runW before step) :
    u.core.HidesAbort o rd step.faultIpa := by
  by_contra shown
  obtain ⟨record, same⟩ := hidden
  obtain ⟨t, _, rd', _, varies⟩ := exits.vary inv
  have far : ∀ value : Word, record.2.2 = value &&& 0xfff := by
    intro value
    have exits' := varies { step with far := value }
    have fault : step.SameFault { step with far := value } := ⟨rfl, rfl, rfl, rfl⟩
    obtain ⟨⟨v, handled, access⟩, _⟩ := same fault exits'
    obtain ⟨serving', forest, _⟩ := exits.again inv serving fault.stores exits'
    have spec : wp (handleRealmExit (granuleAddrToIndex recW.toNat) { step with far := value })
        (fun _ v => (Run.access v.run).2.2 = value &&& 0xfff) (fun _ _ => True)
        (t.stopped recW.toNat rd' { step with far := value }) := by
      refine serving'.wp_abort abort (fun _ _ => trivial) (fun hides => ?_) fun _ => RealmStep.far_shownRun ..
      exact absurd (forest.hidesAbort.mp (hides guarded)) shown
    rw [← access]
    have far := wp_ok spec handled
    exact far
  exact nomatch (far 0).symm.trans (far 1)

end Exit

/-- An abort that the host must not emulate is reported without the value and the address of the access, and cannot be
answered, exactly if the walk of the faulting IPA comes to a page that is absent, or not mapped when the IPA is outside
the protected half. -/
theorem Machine.Reachable.aborts_hidden {recW runW : Word} {before : List RealmStep} (reached : s.Reachable)
    (exits : s.Exits recW runW before step u) (abort : step.IsAbort) :
    ∃ o rd, (u.core.mem recW.toNat).asRec.owner = some o ∧ u.core.realm? o = some rd ∧
      ((step.Guarded rd → s.HidesAccess recW runW before step ∧ s.KeepsRegisters recW runW before step) ↔
        (step.Guarded rd → u.core.HidesAbort o rd step.faultIpa)) := by
  have inv := reached.inv
  obtain ⟨o, atExit⟩ := exits.atExit inv fun _ => id
  obtain ⟨rd, serving⟩ := atExit.serving inv
  refine ⟨o, rd, serving.owner, serving.realm, fun reports guarded => ?_, fun hides guarded => ⟨?_, ?_⟩⟩
  · exact (reports guarded).1.hides exits inv abort serving guarded
  · exact exits.hidesAccess inv abort serving guarded (hides guarded)
  · exact exits.keepsRegisters inv abort serving guarded (hides guarded)

/-- A realm stops at an access with these registers. -/
def RealmStep.access (registers : Nat → Word) (esr hpfar : Word) : RealmStep :=
  ⟨[], { Context.new with gpRegs := registers }, 0x20, esr, hpfar, 0⟩

omit [Platform] in
theorem RealmStep.access_isAbort (registers : Nat → Word) (esr hpfar : Word) :
    (RealmStep.access registers esr hpfar).IsAbort := by
  change (0x20 : Word).toNat % 16 = 0 ∧ (0x20 : Word).toNat / 16 % 16 = 2
  decide

open Sample in
omit [Platform] in
/-- An access to a protected page that is not there. -/
theorem aborts_hidden_absent : ∃ _ : Platform, ∃ (s u : Machine) (recW runW : Word) (step : RealmStep) (rd : Rd),
    s.Reachable ∧ s.Exits recW runW [] step u ∧ step.IsAbort ∧ step.Guarded rd ∧
      s.HidesAccess recW runW [] step ∧ s.KeepsRegisters recW runW [] step := by
  let step := RealmStep.access (registers 0 0) 0 0x2000
  have reached := staffed_via.reachable
  obtain ⟨u, rd, exits, owner, realm, entry, inPar, inside, page⟩ := staffed.exists_firstExit
    (BitVec.ofNat 64 (bankAt 5)) (BitVec.ofNat 64 hostPage) step (bankAt 0)
    (fun u rd => u.core.forest.entry (bankAt 0) 2 1 = some 0 ∧ rd.addrInPar step.faultIpa ∧
      rd.tables.rootSlot? (alignDown step.faultIpa 4096) ≠ none ∧ rd.walkPage step.faultIpa = 512)
    (by decide +kernel) (by decide +kernel)
  have leaf : u.core.forest.Leaf 3 (bankAt 0) 512 2 0 := ⟨by decide, entry, forest_next_none (by decide)⟩
  obtain ⟨o, rd', owner', realm', iff⟩ := reached.aborts_hidden exits (RealmStep.access_isAbort _ _ _)
  cases owner'.symm.trans owner
  cases realm'.symm.trans realm
  have guarded : step.Guarded rd := .inl inPar
  have hides : u.core.HidesAbort (bankAt 0) rd step.faultIpa := by
    refine ⟨inside, (S2tte.view 2 0).at_ 0, ?_, ?_⟩
    · rw [page]
      exact ⟨2, 0, leaf, rfl⟩
    · rw [if_pos inPar]
      trivial
  exact ⟨platform, staffed, u, _, _, step, rd, reached, exits, RealmStep.access_isAbort _ _ _, guarded,
    iff.mpr (fun _ => hides) guarded⟩

open Sample in
omit [Platform] in
/-- What a realm stores to a protected page that is there is shown to the host. -/
theorem store_shown : ∃ _ : Platform, ∃ (s u u' v v' : Machine) (recW runW : Word) (step step' : RealmStep) (rd : Rd),
    s.Reachable ∧ s.Exits recW runW [] step u ∧ s.Exits recW runW [] step' u' ∧ step.IsAbort ∧ step.SameFault step' ∧
    step'.far = step.far ∧ rd.addrInPar step.faultIpa = true ∧
    (handleRealmExit (granuleAddrToIndex recW.toNat) step).run u = (.ok (true, Rsi.rmiSuccess), v) ∧
    (handleRealmExit (granuleAddrToIndex recW.toNat) step').run u' = (.ok (true, Rsi.rmiSuccess), v') ∧
    Run.access v'.run ≠ Run.access v.run := by
  -- a store of `x0`, with a valid syndrome, to the page of data at the IPA 0
  let step (x : Word) := RealmStep.access (registers x 0) (EsrEl2.isv ||| EsrEl2.sas ||| EsrEl2.wnr) 0
  obtain ⟨rd, _, inPar⟩ := (Option.any_eq_true (·.addrInPar (step 0).faultIpa) (staffed.core.realm? (bankAt 0))).mp
    (by decide +kernel)
  have stores := fun x => staffed.exists_handled (BitVec.ofNat 64 (bankAt 5)) (BitVec.ofNat 64 hostPage) (step x)
    (.ok (true, Rsi.rmiSuccess)) fun _ v => (Run.access v.run).1 = x
  obtain ⟨u, v, exits, handled, value⟩ := stores 0 (by decide +kernel) (by decide +kernel) (by decide +kernel)
  obtain ⟨u', v', exits', handled', value'⟩ := stores 1 (by decide +kernel) (by decide +kernel) (by decide +kernel)
  refine ⟨platform, staffed, u, u', v, v', _, _, step 0, step 1, rd, staffed_via.reachable, exits, exits',
    RealmStep.access_isAbort _ _ _, ⟨rfl, rfl, rfl, rfl⟩, rfl, inPar, handled, handled', fun same => ?_⟩
  rw [same, value] at value'
  exact nomatch value'

end Islet.Rmm
