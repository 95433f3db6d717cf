import Islet.Rmm.Runs

/-! REC_ENTER from the side of the realm: the checks before an entry, what the monitor
completes for the REC, the exits that it handles and resumes, and the return to the
host. The states in which a realm exits to the monitor lie inside the command, so they
are described by the parts of the command that lead to them. -/

namespace Islet.Rmm

open Lib Prog Bits Rmi Stage2Translation

variable [Platform] {cmd : Command} {s t u v : Machine} {r p o : Nat} {rd : Rd} {step : RealmStep}
  {err' : Halt → Machine → Prop}

/-! ### What is completed before the entry -/

/-- The host has answered an abort that it cannot emulate. -/
def Rec.MmioRejected (rc : Rec) (run : Page) : Prop :=
  Run.entryFlags run &&& 1 ≠ 0 ∧ (getMaskedValue rc.context.esrEl2 EsrEl2.ec ≠ EsrEl2.ecDataAbort ∨
    rc.emulatableAbort ≠ .emulatableAbort)

/-- The access is a load that extends the sign of what it reads. -/
def EsrEl2.SignExtends (esr : Word) : Prop :=
  (getMaskedValue esr EsrEl2.wnr = 0 ∧ (getMaskedValue esr EsrEl2.srt).toNat ≠ 31) ∧ getMaskedValue esr EsrEl2.sse ≠ 0

/-- The REC with what the host has read for it. -/
def Rec.loaded (rc : Rec) (run : Page) : Rec :=
  let rt := (getMaskedValue rc.context.esrEl2 EsrEl2.srt).toNat
  if getMaskedValue rc.context.esrEl2 EsrEl2.wnr = 0 ∧ rt ≠ 31 then
    rc.setReg rt (Run.entryGpr run 0 &&& EsrEl2.accessSizeMask rc.context.esrEl2)
  else rc

/-- The REC after the instruction that it has stopped at. -/
def Rec.stepOver (rc : Rec) : Rec := { rc with context := { rc.context with elr := rc.context.elr + 4 } }

/-- The REC after the access that the host has emulated. -/
def Rec.emulated (rc : Rec) (run : Page) : Rec :=
  if Run.entryFlags run &&& 1 = 0 then rc else (rc.loaded run).stepOver

/-- The REC after the RIPAS change that it has asked for. -/
def Rec.ripasChanged (rc : Rec) (run : Page) : Rec :=
  if 0 < rc.ripas.endAddr then
    (((rc.setReg 0 Rsi.success).setReg 1 (BitVec.ofNat 64 rc.ripas.addr)).setReg 2
      (if Run.entryFlags run &&& (1#64 <<< 4) ≠ 0 then 1 else 0)).setRipas 0 0 0 0
  else rc

/-- The host call of the REC at `r` is settled, and the interrupts of the host are taken over. -/
inductive Settles (c : Core) (r : Nat) (rd : Rd) (run : Page) : Core → Prop where
  | idle (quiet : (c.mem r).asRec.hostCallPending = false) :
    Settles c r rd run (c.setContent r (.recCtx (Gic.receiveStateFromHost (c.mem r).asRec run)))
  | refused (pending : (c.mem r).asRec.hostCallPending = true)
    (wrong : ¬HostCallIpa rd ((c.mem r).asRec.getReg 1).toNat) :
    Settles c r rd run (c.setContent r
      (.recCtx (Gic.receiveStateFromHost ((c.mem r).asRec.setReg 0 Rsi.errorInput) run)))
  | answered {pa : Nat} (pending : (c.mem r).asRec.hostCallPending = true)
    (fine : HostCallIpa rd ((c.mem r).asRec.getReg 1).toNat)
    (mapped : c.ipaToPa? rd ((c.mem r).asRec.getReg 1).toNat = some pa) (isData : c.stateOf pa = .data) :
    Settles c r rd run ((c.setContent pa (.raw (Rsi.storeHostCall (c.mem pa).words run))).setContent r
      (.recCtx (Gic.receiveStateFromHost
        { (c.mem r).asRec.setReg 0 Rsi.success with hostCallPending := false } run)))

omit [Platform] in
theorem Core.setContent_setContent {c : Core} (x y : Content) :
    (c.setContent r x).setContent r y = c.setContent r y := by
  unfold Core.setContent
  rw [Function.update_idem]

omit [Platform] in
theorem Core.setContent_self {c : Core} {x : Content} (same : c.mem r = x) : c.setContent r x = c := by
  unfold Core.setContent
  rw [← same, Function.update_eq_self]

theorem Settles.content {c c' : Core} {run : Page} (settles : Settles c r rd run c') :
    ∃ rc, c'.mem r = .recCtx rc ∧ rc.context.esrEl2 = (c.mem r).asRec.context.esrEl2 ∧
      rc.emulatableAbort = (c.mem r).asRec.emulatableAbort := by
  cases settles with
  | idle => exact ⟨_, Core.mem_setContent_same _, rfl, rfl⟩
  | refused => exact ⟨_, Core.mem_setContent_same _, rfl, rfl⟩
  | answered => exact ⟨_, Core.mem_setContent_same _, rfl, rfl⟩

omit [Platform] in
@[simp] theorem wp_getRun {ok : Page → Machine → Prop} : wp getRun ok err' s ↔ ok s.run s := Iff.rfl

section Completes

variable {c : Core} {rc : Rec} {ok : Unit → Machine → Prop} (valid : validateAddr r = true)
include valid

theorem wp_emulates (content : t.core.mem r = .recCtx rc)
    (rejected : rc.MmioRejected t.run → err' (.error .rmiErrorRec) t)
    (panic : Run.entryFlags t.run &&& 1 ≠ 0 → ¬rc.MmioRejected t.run → EsrEl2.SignExtends rc.context.esrEl2 →
      ∀ u, err' .panic u)
    (next : ¬rc.MmioRejected t.run → (Run.entryFlags t.run &&& 1 ≠ 0 → ¬EsrEl2.SignExtends rc.context.esrEl2) →
      ok () { t with core := t.core.setContent r (.recCtx (rc.emulated t.run)) }) :
    wp (emulateMmio (granuleAddrToIndex r)) ok err' t := by
  unfold emulateMmio
  rw [wp_bind, wp_getRun]
  refine wp_if (fun none => ?_) fun some => ?_
  · have same := next (fun rejected => rejected.1 none) fun some => absurd none some
    rw [Rec.emulated, if_pos none, Core.setContent_self content] at same
    exact same
  rw [wp_bind, wp_contentRec, indexToAddr_granuleAddrToIndex valid, content, Content.asRec_recCtx]
  dsimp only
  rw [wp_bind]
  refine wp_errIf (fun bad => rejected ⟨some, bad⟩) fun good => ?_
  have done := next fun rejected => good rejected.2
  rw [Rec.emulated, if_neg some, Rec.loaded] at done
  refine wp_if (fun reads => ?_) fun writes => ?_
  · rw [if_pos reads] at done
    refine wp_if (fun signed => panic some (fun rejected => good rejected.2) ⟨reads, signed⟩ _) fun plain => ?_
    rw [wp_bind, wp_modifyRec valid, wp_modifyRec valid, Core.mem_setContent_same, Core.setContent_setContent, content]
    exact done fun _ signs => plain signs.2
  · rw [if_neg writes] at done
    rw [wp_modifyRec valid, content]
    exact done fun _ signs => writes signs.1

theorem wp_changesRipas (content : t.core.mem r = .recCtx rc)
    (next : ok () { t with core := t.core.setContent r (.recCtx (rc.ripasChanged t.run)) }) :
    wp (Rsi.completeRipas (granuleAddrToIndex r)) ok err' t := by
  unfold Rsi.completeRipas
  rw [wp_bind, wp_getRun, wp_bind, wp_contentRec, indexToAddr_granuleAddrToIndex valid, content]
  unfold Rec.ripasChanged at next
  refine wp_if (fun asked => ?_) fun idle => ?_
  · rw [wp_modifyRec valid, content]
    rw [if_pos (show 0 < rc.ripas.endAddr from asked)] at next
    exact next
  · rw [if_neg (show ¬0 < rc.ripas.endAddr from idle), Core.setContent_self content] at next
    exact next

end Completes

/-- What REC_ENTER does for an enterable REC before the realm runs. -/
theorem wp_recEnterCompletes {page : Page} {ok : Unit → Machine → Prop} (inv : s.core.Inv) (enters : EntersRec cmd r)
    (can : s.core.Enterable r p o rd) (kept : Kept s.core cmd s t) (core : t.core = s.core)
    (held : t.held = [granuleAddrToIndex r]) (run : t.run = page)
    (lost : (s.core.mem r).asRec.hostCallPending = true → HostCallIpa rd ((s.core.mem r).asRec.getReg 1).toNat →
      s.core.ipaToPa? rd ((s.core.mem r).asRec.getReg 1).toNat = none → err' (.error .rmiErrorInput) t)
    (rejected : ∀ c ret, Settles s.core r rd page c → (s.core.mem r).asRec.MmioRejected page →
      err' (.error .rmiErrorRec) { t with core := c, ret := ret })
    (panic : Run.entryFlags page &&& 1 ≠ 0 → ¬(s.core.mem r).asRec.MmioRejected page →
      EsrEl2.SignExtends (s.core.mem r).asRec.context.esrEl2 → ∀ u, err' .panic u)
    (next : ∀ c ret, Settles s.core r rd page c → ¬(s.core.mem r).asRec.MmioRejected page →
      (Run.entryFlags page &&& 1 ≠ 0 → ¬EsrEl2.SignExtends (s.core.mem r).asRec.context.esrEl2) → ok () { t with
        core := c.setContent r (.recCtx (((c.mem r).asRec.emulated page).ripasChanged page))
        ret := ret }) :
    wp (recEnterCompletes (granuleAddrToIndex r) (s.core.mem r).asRec page) ok err' t := by
  subst run
  have valid := can.has.1
  have rest : ∀ c c' ret, (c = c'.setContent r (.recCtx (Gic.receiveStateFromHost (c'.mem r).asRec t.run))) →
      Settles s.core r rd t.run c → wp (do
        modifyRec (granuleAddrToIndex r) (Gic.receiveStateFromHost · t.run)
        emulateMmio (granuleAddrToIndex r)
        Rsi.completeRipas (granuleAddrToIndex r)) ok err' { t with core := c', ret := ret } := by
    intro c c' ret eq settles
    obtain ⟨rc, content, esr, abort⟩ := settles.content
    have same : rc.MmioRejected t.run ↔ (s.core.mem r).asRec.MmioRejected t.run := by
      unfold Rec.MmioRejected
      rw [esr, abort]
    rw [wp_bind, wp_modifyRec valid, wp_bind]
    dsimp only
    rw [← eq]
    refine wp_emulates valid content (fun bad => rejected c ret settles (same.mp bad))
      (fun some good signs => panic some (fun bad => good (same.mpr bad)) (esr ▸ signs)) fun good plain => ?_
    refine wp_changesRipas valid (Core.mem_setContent_same _) ?_
    have done := next c ret settles (fun bad => good (same.mpr bad)) fun some => esr ▸ plain some
    rw [content] at done
    rw [Core.setContent_setContent]
    exact done
  unfold recEnterCompletes
  refine wp_if (fun pending => ?_) fun quiet => ?_
  · rw [wp_bind]
    have work : InRec cmd s r o (fun _ => True) t := by
      refine ⟨⟨enters, kept, ?_⟩, ?_, ?_, .inr trivial⟩ <;> rw [core]
      · exact can.has.2
      · exact can.owner
      · exact ⟨rd, can.realm, can.active⟩
    refine wp_doHostCall work inv valid held (fun rd' found wrong => ?_) (fun rd' found fine unmapped => ?_)
      (fun rd' pa found fine mapped isData _ => ?_) fun rd' pa found fine _ idle => ?_
    all_goals
      rw [core] at found
      cases can.realm.symm.trans found
    · rw [wp_bind, wp_setRet]
      rw [core] at wrong ⊢
      refine rest _ _ _ ?_ (.refused pending wrong)
      rw [Core.mem_setContent_same, Core.setContent_setContent]
      rfl
    · rw [core] at fine unmapped
      exact lost pending fine unmapped
    · rw [wp_bind, wp_setRet]
      rw [core] at fine mapped isData ⊢
      refine rest _ _ _ ?_ (.answered pending fine mapped isData)
      rw [Core.mem_setContent_same, Core.setContent_setContent]
      rfl
    · rw [core, pending] at idle
      exact nomatch idle
  · refine rest _ t.core t.ret ?_ (.idle (by simpa using quiet))
    rw [core]

/-! ### The realm runs -/

/-- Only memory of realms and of the host differs. -/
structure StoresOnly (c c' : Core) : Prop where
  granules : c'.granules = c.granules
  rttTables : c'.rttTables = c.rttTables
  log : c'.log = c.log
  mem : ∀ x, c.stateOf x ≠ .data → c.stateOf x ≠ .undelegated → c'.mem x = c.mem x

namespace StoresOnly

variable {c c' c'' : Core} (only : StoresOnly c c')
include only

omit [Platform] in
theorem stateOf (x : Nat) : c'.stateOf x = c.stateOf x := by
  unfold Core.stateOf Core.granule
  rw [only.granules]

theorem realm? (x : Nat) : c'.realm? x = c.realm? x := by
  unfold Core.realm?
  rw [only.stateOf]
  by_cases isRd : validateAddr x = true ∧ c.stateOf x = .rd
  · rw [if_pos isRd, if_pos isRd, only.mem x (by rw [isRd.2]; exact nofun) (by rw [isRd.2]; exact nofun)]
  · rw [if_neg isRd, if_neg isRd]

omit [Platform] in
theorem trans (second : StoresOnly c' c'') : StoresOnly c c'' := by
  refine ⟨second.granules.trans only.granules, second.rttTables.trans only.rttTables, second.log.trans only.log,
    fun x data host => ?_⟩
  rw [second.mem x (by rw [only.stateOf]; exact data) (by rw [only.stateOf]; exact host), only.mem x data host]

end StoresOnly

/-- The stores of a realm reach its own data and memory of the host. -/
theorem StoresOnly.of_stores {c : Core} (inv : c.Inv) (realm : c.realm? o = some rd) (stores : List RealmStore) :
    StoresOnly c (stores.foldl (Core.realmStore rd.tables) c) := by
  induction stores generalizing c with
  | nil => exact ⟨rfl, rfl, rfl, fun _ _ _ => rfl⟩
  | cons store rest ih =>
    have first : StoresOnly c (Core.realmStore rd.tables c store) ∧ (Core.realmStore rd.tables c store).Inv := by
      unfold Core.realmStore
      split
      · rename_i page hit
        have free := inv.realmTarget realm hit
        refine ⟨⟨rfl, rfl, rfl, fun x data host => Core.mem_setContent_of_ne _ ?_⟩, ?_⟩
        · rintro rfl
          exact free.elim data host
        · exact (show Move c .unregistered c _ from .write free).inv inv
      · exact ⟨⟨rfl, rfl, rfl, fun _ _ _ => rfl⟩, inv⟩
    rw [List.foldl_cons]
    exact first.1.trans (ih first.2 ((first.1.realm? o).trans realm))

/-- The REC as the realm runs in it. -/
def Rec.running (rc : Rec) : Rec := { rc with state := .running, emulatableAbort := .notEmulatableAbort }

/-- The REC as the realm leaves it. -/
def Rec.exited (rc : Rec) (step : RealmStep) : Rec :=
  { rc.running with context := { step.context with
      vttbr := rc.context.vttbr, vmpidr := rc.context.vmpidr, sveEn := rc.context.sveEn } }

/-- The core after the realm `rd` has run in the REC at `r`. -/
def Core.afterRun (c : Core) (r : Nat) (rd : Rd) (step : RealmStep) : Core :=
  (step.stores.foldl (Core.realmStore rd.tables)
    ((c.setContent r (.recCtx (c.mem r).asRec.running)).emit (.entered r (c.mem r).asRec.running))).setContent r
      (.recCtx ((c.mem r).asRec.exited step))

theorem wp_runs {rc : Rec} {ok : Unit → Machine → Prop} (inv : t.core.Inv) (has : t.core.Has r .recCtx)
    (content : t.core.mem r = .recCtx rc) (realm : t.core.realm? o = some rd)
    (panic : rc.context.sveEn = true → ∀ u, err' .panic u)
    (next : rc.context.sveEn = false → ok () { t with
      core := (step.stores.foldl (Core.realmStore rd.tables) (t.core.emit (.entered r rc))).setContent r
        (.recCtx { rc with context := { step.context with
          vttbr := rc.context.vttbr, vmpidr := rc.context.vmpidr, sveEn := rc.context.sveEn } }) }) :
    wp (runRealm (granuleAddrToIndex r) rd step) ok err' t := by
  have valid := has.1
  unfold runRealm
  rw [wp_bind]
  refine wp_s2Table realm inv ?_
  have only := StoresOnly.of_stores (((Calm.refl _).emits [.entered r rc]).inv inv) realm step.stores
  have stores : (step.stores.foldl (Core.realmStore rd.tables) (t.core.emit (.entered r rc))).mem r = .recCtx rc := by
    refine (only.mem r ?_ ?_).trans content
    · change t.core.stateOf r ≠ _
      rw [has.2]
      exact nofun
    · change t.core.stateOf r ≠ _
      rw [has.2]
      exact nofun
  rw [wp_bind, wp_contentRec, wp_bind, wp_emit, indexToAddr_granuleAddrToIndex valid, content, Content.asRec_recCtx,
    wp_bind, wp_modifyCore, wp_bind, wp_contentRec, indexToAddr_granuleAddrToIndex valid]
  dsimp only
  rw [stores, Content.asRec_recCtx]
  refine wp_if (fun vectors => panic vectors _) fun plain => ?_
  rw [wp_modifyRec valid]
  dsimp only
  rw [stores]
  exact next (by simpa using plain)

theorem wp_recEnterRun {ok : Unit → Machine → Prop} (inv : t.core.Inv) (has : t.core.Has r .recCtx)
    (owner : (t.core.mem r).asRec.owner = some o) (realm : t.core.realm? o = some rd)
    (held : t.held = [granuleAddrToIndex r])
    (panic : (t.core.mem r).asRec.context.sveEn = true → ∀ u, err' .panic u)
    (next : (t.core.mem r).asRec.context.sveEn = false →
      ok () { t with core := t.core.afterRun r rd step, run := Run.setImm t.run 0 }) :
    wp (recEnterRun (granuleAddrToIndex r) step) ok err' t := by
  have valid := has.1
  have notRd : t.core.stateOf r ≠ .rd := by
    rw [has.2]
    exact nofun
  have apart : o ≠ r := by
    rintro rfl
    exact notRd (Core.realm?_eq_some.mp realm).2.1
  have realm₁ : ∀ content, (t.core.setContent r content).realm? o = some rd := fun content =>
    (realm?_setContent notRd o).trans realm
  unfold recEnterRun
  rw [wp_bind, wp_modifyRun, wp_bind, wp_modifyRec valid, wp_bind]
  refine wp_inScope ?_
  rw [wp_bind]
  refine wp_ownerRd (o := o) ?_ valid apart held (fun none => ?_) fun rd' realm' => ?_
  · rw [Core.mem_setContent_same]
    exact owner
  · exact nomatch none.symm.trans (realm₁ _)
  cases (realm₁ _).symm.trans realm'
  clear realm'
  dsimp only
  rw [wp_bind, wp_modifyRec valid, wp_pure]
  dsimp only
  rw [Core.mem_setContent_same, Core.setContent_setContent]
  refine wp_runs ?_ has (Core.mem_setContent_same _) (realm₁ _) panic next
  exact (Calm.setRec (r := (t.core.mem r).asRec.running) has.2 rfl rfl id).inv inv

/-! ### Exits of the realm -/

namespace Rmi

/-- REC_ENTER up to the first entry of the realm. -/
def recEnterBegins (recAddr runPa : Nat) : RmmM Nat := do
  let (recGranule, r, run) ← recEnterChecks recAddr runPa
  recEnterCompletes recGranule r run
  pure recGranule

theorem recEnter_eq_begins (recAddr runPa : Nat) (script : List RealmStep) : recEnter recAddr runPa script = (do
    let recGranule ← recEnterBegins recAddr runPa
    let ret ← recEnterLoop recGranule script
    recEnterReturns recGranule runPa ret) := by
  simp only [recEnter_eq, recEnterBegins, Prog.bind_assoc, pure_bind]

/-- The realm is resumed, up to its next exit. -/
def recEnterResumes (recGranule : Nat) (step : RealmStep) : RmmM Unit := do
  modifyRec recGranule fun r => { r with state := .ready }
  recEnterRun recGranule step

end Rmi

/-- REC_ENTER of the REC at `r`, of the realm `rd` at `o`, is about to run the realm in `t`. -/
structure Begun (s : Machine) (r p o : Nat) (rd : Rd) (t : Machine) : Prop where
  can : s.core.Enterable r p o rd
  accepted : ¬(s.core.mem r).asRec.MmioRejected (s.core.mem p).words
  core : ∃ c, Settles s.core r rd (s.core.mem p).words c ∧ t.core = c.setContent r
    (.recCtx (((c.mem r).asRec.emulated (s.core.mem p).words).ripasChanged (s.core.mem p).words))
  held : t.held = [granuleAddrToIndex r]
  run : t.run = (s.core.mem p).words

/-- REC_ENTER does not come to run the realm. -/
def NotBegun (s : Machine) (r p : Nat) (halt : Halt) (t : Machine) : Prop :=
  halt = .panic ∧ Run.entryFlags (s.core.mem p).words &&& 1 ≠ 0 ∧
    (∀ o rd, s.core.Enterable r p o rd → ¬(s.core.mem r).asRec.MmioRejected (s.core.mem p).words) ∨
  t.core = s.core ∧ (∀ o rd, s.core.Enterable r p o rd → (s.core.mem r).asRec.hostCallPending = true ∧
    HostCallIpa rd ((s.core.mem r).asRec.getReg 1).toNat ∧
    s.core.ipaToPa? rd ((s.core.mem r).asRec.getReg 1).toNat = none) ∨
  halt = .error .rmiErrorRec ∧ ∃ o rd, s.core.Enterable r p o rd ∧
    (s.core.mem r).asRec.MmioRejected (s.core.mem p).words ∧ Settles s.core r rd (s.core.mem p).words t.core

theorem Core.Enterable.unique {c : Core} {o' : Nat} {rd' : Rd} (can : c.Enterable r p o rd)
    (can' : c.Enterable r p o' rd') : o' = o ∧ rd' = rd := by
  cases can.owner.symm.trans can'.owner
  cases can.realm.symm.trans can'.realm
  exact ⟨rfl, rfl⟩

theorem recEnterCompletes_begun (inv : s.core.Inv) (enters : EntersRec cmd r) (can : s.core.Enterable r p o rd)
    (kept : Kept s.core cmd s t) (core : t.core = s.core) (held : t.held = [granuleAddrToIndex r])
    (run : t.run = (s.core.mem p).words) :
    wp (recEnterCompletes (granuleAddrToIndex r) (s.core.mem r).asRec (s.core.mem p).words)
      (fun _ u => Begun s r p o rd u ∧ InRec cmd s r o Rec.Idle u) (NotBegun s r p) t := by
  have begun : wp (recEnterCompletes (granuleAddrToIndex r) (s.core.mem r).asRec (s.core.mem p).words)
      (fun _ u => Begun s r p o rd u) (NotBegun s r p) t := by
    refine wp_recEnterCompletes inv enters can kept core held run (fun pending fine unmapped => ?_)
      (fun c ret settles rejected => .inr (.inr ⟨rfl, o, rd, can, rejected, settles⟩))
      (fun some accepted _ _ => .inl ⟨rfl, some, fun _ _ _ => accepted⟩)
      fun c ret settles accepted _ => ⟨can, accepted, ⟨c, settles, rfl⟩, held, run⟩
    refine .inr (.inl ⟨core, fun o' rd' can' => ?_⟩)
    obtain ⟨rfl, rfl⟩ := can.unique can'
    exact ⟨pending, fine, unmapped⟩
  exact wp_mono (wp_and (recEnterCompletes_spec inv enters can kept core held) begun)
    (fun _ u both => ⟨both.2, both.1.1⟩) fun _ _ both => both.2

theorem recEnterBegins_spec (recW runW : Word) (script : List RealmStep) (inv : s.core.Inv) (idle : s.held = [])
    (recEq : recW.toNat = r) (runEq : runW.toNat = p) (command : cmd = .recEnter recW runW script) :
    wp (recEnterBegins r p)
      (fun g t => g = granuleAddrToIndex r ∧ ∃ o rd, Begun s r p o rd t ∧ InRec cmd s r o Rec.Idle t)
      (NotBegun s r p) s := by
  have enters : EntersRec cmd r := by
    rw [command]
    exact recEq
  unfold recEnterBegins
  rw [wp_bind]
  refine wp_mono (recEnterChecks_spec recW runW script inv idle recEq runEq command) ?_ fun halt t ⟨never, core, _⟩ =>
    .inr (.inl ⟨core, fun o rd can => absurd can (never o rd)⟩)
  rintro _ _ ⟨⟨o, rd, can⟩, rfl, pt, safe, rfl⟩
  dsimp only
  rw [wp_bind]
  have kept : Kept s.core cmd s { s with
      pageTable := pt
      held := [granuleAddrToIndex r]
      run := (s.core.mem p).words } := ⟨.refl, .of_eq rfl, safe⟩
  exact wp_mono (recEnterCompletes_begun inv enters can kept rfl rfl rfl)
    (fun _ t both => ⟨rfl, o, rd, both⟩) fun _ _ => id

/-- From `s`, REC_ENTER runs the realm, handles the exits of `before` without leaving to the host, and comes to the
exit `step` in the state `u`. -/
inductive Machine.Exits (s : Machine) (recW runW : Word) : List RealmStep → RealmStep → Machine → Prop where
  | first {t u : Machine} {step : RealmStep}
    (begins : (recEnterBegins recW.toNat runW.toNat).run s.start = (.ok (granuleAddrToIndex recW.toNat), t))
    (runs : (recEnterRun (granuleAddrToIndex recW.toNat) step).run t = (.ok (), u)) : Exits s recW runW [] step u
  | next {before : List RealmStep} {step step' : RealmStep} {u v w : Machine} {ret : Nat}
    (exits : Exits s recW runW before step u)
    (handled : (handleRealmExit (granuleAddrToIndex recW.toNat) step).run u = (.ok (false, ret), v))
    (resumes : (recEnterResumes (granuleAddrToIndex recW.toNat) step').run v = (.ok (), w)) :
    Exits s recW runW (before ++ [step]) step' w

/-- The state at the first exit of an entry. -/
def Machine.firstExit (s : Machine) (recW runW : Word) (step : RealmStep) : Machine :=
  ((recEnterRun (granuleAddrToIndex recW.toNat) step).run ((recEnterBegins recW.toNat runW.toNat).run s.start).2).2

/-- The entry gets there. -/
def Machine.getsOut (s : Machine) (recW runW : Word) (step : RealmStep) : Bool :=
  let begun := (recEnterBegins recW.toNat runW.toNat).run s.start
  begun.1 = .ok (granuleAddrToIndex recW.toNat) ∧
    ((recEnterRun (granuleAddrToIndex recW.toNat) step).run begun.2).1 = .ok ()

theorem Machine.exits_firstExit {recW runW : Word} (out : s.getsOut recW runW step = true) :
    s.Exits recW runW [] step (s.firstExit recW runW step) := by
  obtain ⟨begins, runs⟩ := of_decide_eq_true out
  exact .first (run_of_result begins) (run_of_result runs)

/-- What is evaluated at the first exit of an entry is true at an exit. -/
theorem Machine.exists_firstExit (s : Machine) (recW runW : Word) (step : RealmStep) (o : Nat)
    (P : Machine → Rd → Prop) [∀ u rd, Decidable (P u rd)] (out : s.getsOut recW runW step = true)
    (holds : ((s.firstExit recW runW step).core.mem recW.toNat).asRec.owner = some o ∧
      ((s.firstExit recW runW step).core.realm? o).any (fun rd => P (s.firstExit recW runW step) rd) = true) :
    ∃ u rd, s.Exits recW runW [] step u ∧ (u.core.mem recW.toNat).asRec.owner = some o ∧ u.core.realm? o = some rd ∧
      P u rd := by
  obtain ⟨rd, realm, holds'⟩ := (Option.any_eq_true _ _).mp holds.2
  exact ⟨_, rd, Machine.exits_firstExit out, holds.1, realm, of_decide_eq_true holds'⟩

/-- And what is evaluated after it has been handled. -/
theorem Machine.exists_handled (s : Machine) (recW runW : Word) (step : RealmStep)
    (result : Except Halt (Bool × Nat)) (P : Machine → Machine → Prop) (out : s.getsOut recW runW step = true)
    (known : ((handleRealmExit (granuleAddrToIndex recW.toNat) step).run (s.firstExit recW runW step)).1 = result)
    (holds : P (s.firstExit recW runW step)
      ((handleRealmExit (granuleAddrToIndex recW.toNat) step).run (s.firstExit recW runW step)).2) :
    ∃ u v, s.Exits recW runW [] step u ∧
      (handleRealmExit (granuleAddrToIndex recW.toNat) step).run u = (result, v) ∧ P u v :=
  ⟨_, _, Machine.exits_firstExit out, run_of_result known, holds⟩

theorem Machine.Exits.begins {recW runW : Word} {before : List RealmStep} (exits : s.Exits recW runW before step u) :
    ∃ t, (recEnterBegins recW.toNat runW.toNat).run s.start = (.ok (granuleAddrToIndex recW.toNat), t) := by
  induction exits with
  | first begins _ => exact ⟨_, begins⟩
  | next _ _ _ ih => exact ih

/-- What REC_ENTER does after an exit of the realm. -/
def Rmi.recEnterRest (recGranule runPa : Nat) (step : RealmStep) (rest : List RealmStep) : RmmM Unit := do
  let (returnToNs, ret) ← handleRealmExit recGranule step
  modifyRec recGranule fun r => { r with state := .ready }
  if returnToNs then recEnterReturns recGranule runPa ret
  else do
    let ret ← recEnterLoop recGranule rest
    recEnterReturns recGranule runPa ret

theorem Machine.Exits.handle {recW runW : Word} {before : List RealmStep} (exits : s.Exits recW runW before step u)
    (rest : List RealmStep) : s.handle (.recEnter recW runW (before ++ step :: rest)) =
      (recEnterRest (granuleAddrToIndex recW.toNat) runW.toNat step rest).run u := by
  induction exits generalizing rest with
  | first begins runs =>
    change (recEnter _ _ _).run s.start = _
    rw [recEnter_eq_begins, bind_run_of_ok begins, List.nil_append, recEnterLoop_cons, Prog.bind_assoc,
      bind_run_of_ok runs, recEnterRest]
    simp only [Prog.bind_assoc, Prog.ite_bind, pure_bind]
  | next _ handled resumes ih =>
    rw [List.append_assoc, List.singleton_append, ih, recEnterRest, bind_run_of_ok handled]
    simp only [Bool.false_eq_true, if_false]
    rw [recEnterLoop_cons, Prog.bind_assoc, ← Prog.bind_assoc]
    rw [show (_ >>= fun _ => recEnterRun _ _) = recEnterResumes _ _ from rfl, bind_run_of_ok resumes, recEnterRest]
    simp only [Prog.bind_assoc, Prog.ite_bind, pure_bind]

section Leaves

variable {recW runW : Word} {before : List RealmStep} {ret : Nat} (exits : s.Exits recW runW before step u)
  (handled : (handleRealmExit (granuleAddrToIndex recW.toNat) step).run u = (.ok (true, ret), v))
include exits

theorem Machine.Exits.enterable (inv : s.core.Inv) : ∃ o rd, s.core.Enterable recW.toNat runW.toNat o rd := by
  obtain ⟨t, begins⟩ := exits.begins
  obtain ⟨_, o, rd, begun, _⟩ := wp_ok (recEnterBegins_spec (s := s.start) recW runW [] inv rfl rfl rfl rfl) begins
  exact ⟨o, rd, begun.can⟩

include handled

/-- The state after an exit that goes to the host. -/
def Machine.left (v : Machine) (r p ret : Nat) (pt : Mm.PageTable) : Machine :=
  Machine.returned { v with core := v.core.setContent r (.recCtx { (v.core.mem r).asRec with state := .ready }) }
    r p ret pt

/-- An exit that goes to the host ends REC_ENTER. -/
theorem Machine.Exits.ends : s.handle (.recEnter recW runW (before ++ [step])) = (do
    modifyRec (granuleAddrToIndex recW.toNat) fun r => { r with state := .ready }
    recEnterReturns (granuleAddrToIndex recW.toNat) runW.toNat ret : RmmM Unit).run v := by
  rw [exits.handle, recEnterRest, bind_run_of_ok handled]
  rfl

variable (inv : s.core.Inv) (held : v.held = [granuleAddrToIndex recW.toNat])
include inv held

theorem Machine.Exits.left {t : Machine} (done : s.Succeeds (.recEnter recW runW (before ++ [step])) t) :
    ∃ pt, t = v.left recW.toNat runW.toNat ret pt := by
  obtain ⟨_, _, can⟩ := exits.enterable inv
  unfold Machine.Succeeds at done
  rw [exits.ends handled] at done
  have spec : wp (do
      modifyRec (granuleAddrToIndex recW.toNat) fun r => { r with state := .ready }
      recEnterReturns (granuleAddrToIndex recW.toNat) runW.toNat ret : RmmM Unit)
      (fun _ t => ∃ pt, t = v.left recW.toNat runW.toNat ret pt) (fun _ _ => True) v := by
    rw [wp_bind, wp_modifyRec can.has.1]
    exact wp_recEnterReturns can.has.1 can.host.1 can.other held (fun _ _ _ _ _ _ => trivial) fun _ pt _ => ⟨pt, rfl⟩
  exact wp_ok spec done

end Leaves

/-- What the monitor relies on when the realm exits. -/
structure AtExit (cmd : Command) (s : Machine) (r o : Nat) (step : RealmStep) (u : Machine) : Prop
    extends InRec cmd s r o Rec.Free u where
  valid : validateAddr r = true
  held : u.held = [granuleAddrToIndex r]
  registers : (u.core.mem r).asRec.getReg = step.context.gpRegs

theorem Machine.Exits.atExit {recW runW : Word} {before script : List RealmStep}
    (exits : s.Exits recW runW before step u) (inv : s.core.Inv) (steps : ∀ step ∈ before, step ∈ script) :
    ∃ o, AtExit (.recEnter recW runW script) s.start recW.toNat o step u := by
  replace inv : s.start.core.Inv := inv
  induction exits with
  | first begins runs =>
    obtain ⟨_, o, rd, begun, work⟩ := wp_ok (recEnterBegins_spec (s := s.start) recW runW script inv rfl rfl rfl rfl)
      begins
    have valid := begun.can.has.1
    obtain ⟨free, held, registers⟩ := wp_ok (recEnterRun_spec inv valid work begun.held) runs
    exact ⟨o, free, valid, held.trans begun.held, registers⟩
  | @next before step step' u v w ret _ handled resumes ih =>
    obtain ⟨o, atExit⟩ := ih fun step member => steps step (List.mem_append_left _ member)
    have member : step ∈ script := steps step (List.mem_append_right _ (List.mem_singleton.mpr rfl))
    obtain ⟨_, held, stays⟩ := wp_ok (handleRealmExit_spec atExit.toInRec inv atExit.valid atExit.held
      atExit.registers fun isRsi => ⟨step, member, isRsi, rfl⟩) handled
    have resumed := (stays rfl).setReady atExit.valid
    rw [recEnterResumes] at resumes
    have whole := wp_ok ((wp_bind _ _).mpr ((wp_modifyRec atExit.valid).mpr
      (recEnterRun_spec inv atExit.valid resumed (held.trans atExit.held)))) resumes
    exact ⟨o, whole.1, atExit.valid, whole.2.1.trans (held.trans atExit.held), whole.2.2⟩

/-- How a realm comes to an exit. -/
theorem Machine.Exits.cases {recW runW : Word} {steps : List RealmStep} (exits : s.Exits recW runW steps step u) :
    (∃ t, steps = [] ∧ (recEnterBegins recW.toNat runW.toNat).run s.start = (.ok (granuleAddrToIndex recW.toNat), t) ∧
      (recEnterRun (granuleAddrToIndex recW.toNat) step).run t = (.ok (), u)) ∨
    ∃ before last t v ret, steps = before ++ [last] ∧ s.Exits recW runW before last t ∧
      (handleRealmExit (granuleAddrToIndex recW.toNat) last).run t = (.ok (false, ret), v) ∧
      (recEnterResumes (granuleAddrToIndex recW.toNat) step).run v = (.ok (), u) := by
  cases exits with
  | first begins runs => exact .inl ⟨_, rfl, begins, runs⟩
  | next exits handled resumes => exact .inr ⟨_, _, _, _, _, rfl, exits, handled, resumes⟩

/-- The exits so far determine the state at the next one. -/
theorem Machine.Exits.unique {recW runW : Word} {steps : List RealmStep} (exits : s.Exits recW runW steps step u)
    (again : s.Exits recW runW steps step v) : v = u := by
  induction exits generalizing v with
  | first begins runs =>
    rcases again.cases with ⟨_, _, begins', runs'⟩ | ⟨_, _, _, _, _, wrong, _⟩
    · cases begins.symm.trans begins'
      cases runs.symm.trans runs'
      rfl
    · exact absurd wrong.symm (List.append_ne_nil_of_right_ne_nil _ (List.cons_ne_nil _ _))
  | next _ handled resumes ih =>
    rcases again.cases with ⟨_, wrong, _⟩ | ⟨_, _, _, _, _, same, exits', handled', resumes'⟩
    · exact absurd wrong (List.append_ne_nil_of_right_ne_nil _ (List.cons_ne_nil _ _))
    · obtain ⟨rfl, last⟩ := List.append_inj' same rfl
      cases last
      cases ih exits'
      cases handled.symm.trans handled'
      cases resumes.symm.trans resumes'
      rfl

/-- The state in which the realm `rd` stops with `step`, when it is about to run in `t`. -/
def Machine.stopped (t : Machine) (r : Nat) (rd : Rd) (step : RealmStep) : Machine :=
  { t with core := t.core.afterRun r rd step, run := Run.setImm t.run 0 }

/-- The monitor works for the REC at `r` of the active realm `rd` at `o`. -/
structure Serving (t : Machine) (r o : Nat) (rd : Rd) : Prop where
  inv : t.core.Inv
  has : t.core.Has r .recCtx
  owner : (t.core.mem r).asRec.owner = some o
  realm : t.core.realm? o = some rd
  active : rd.state = .active
  held : t.held = [granuleAddrToIndex r]

/-- A realm that has run could have stopped in any other way. -/
theorem recEnterRun_vary (work : InRec cmd s r o Rec.Idle t) (inv : s.core.Inv) (valid : validateAddr r = true)
    (held : t.held = [granuleAddrToIndex r]) (runs : (recEnterRun (granuleAddrToIndex r) step).run t = (.ok (), u)) :
    ∃ rd, Serving t r o rd ∧ ∀ step',
      (recEnterRun (granuleAddrToIndex r) step').run t = (.ok (), t.stopped r rd step') := by
  obtain ⟨rd, realm, active⟩ := work.realm
  have has : t.core.Has r .recCtx := ⟨valid, work.state⟩
  have plain : (t.core.mem r).asRec.context.sveEn = false := by
    have spec : wp (recEnterRun (granuleAddrToIndex r) step)
        (fun _ _ => (t.core.mem r).asRec.context.sveEn = false) (fun _ _ => True) t :=
      wp_recEnterRun (work.inv inv) has work.owner realm held (fun _ _ => trivial) id
    have plain := wp_ok spec runs
    exact plain
  refine ⟨rd, ⟨work.inv inv, has, work.owner, realm, active, held⟩, fun step' => ?_⟩
  have spec : wp (recEnterRun (granuleAddrToIndex r) step') (fun _ u => u = t.stopped r rd step')
      (fun _ _ => False) t :=
    wp_recEnterRun (work.inv inv) has work.owner realm held (fun some => nomatch plain.symm.trans some) fun _ => rfl
  obtain ⟨_, _, runs, rfl⟩ := returns_of_wp spec
  exact runs

/-- Before an exit the realm is about to run, and it can stop in any way. -/
theorem Machine.Exits.vary {recW runW : Word} {before : List RealmStep} (exits : s.Exits recW runW before step u)
    (inv : s.core.Inv) : ∃ (t : Machine) (o : Nat) (rd : Rd), Serving t recW.toNat o rd ∧
      ∀ step', s.Exits recW runW before step' (t.stopped recW.toNat rd step') := by
  replace inv : s.start.core.Inv := inv
  cases exits with
  | @first t _ _ begins runs =>
    obtain ⟨_, o, _, begun, work⟩ := wp_ok (recEnterBegins_spec (s := s.start) recW runW [] inv rfl rfl rfl rfl) begins
    obtain ⟨rd, serving, runs'⟩ := recEnterRun_vary work inv begun.can.has.1 begun.held runs
    exact ⟨t, o, rd, serving, fun step' => .first begins (runs' step')⟩
  | @next before step _ u v _ ret exits handled resumes =>
    obtain ⟨o, atExit⟩ : ∃ o, AtExit (.recEnter recW runW (before ++ [step])) s.start recW.toNat o step u :=
      exits.atExit inv fun _ => List.mem_append_left _
    have valid := atExit.valid
    obtain ⟨_, held, stays⟩ := wp_ok (handleRealmExit_spec atExit.toInRec inv valid atExit.held atExit.registers
      fun isRsi => ⟨step, List.mem_append_right _ (List.mem_singleton.mpr rfl), isRsi, rfl⟩) handled
    have work := (stays rfl).setReady valid
    have spec : wp (modifyRec (granuleAddrToIndex recW.toNat) fun r => { r with state := .ready })
        (fun _ t => t = { v with
          core := v.core.setContent recW.toNat (.recCtx { (v.core.mem recW.toNat).asRec with state := .ready }) })
        (fun _ _ => False) v := (wp_modifyRec valid).mpr rfl
    obtain ⟨_, t, ready, eq⟩ := returns_of_wp spec
    rw [← eq] at work
    have heldT : t.held = [granuleAddrToIndex recW.toNat] := by
      rw [eq]
      exact held.trans atExit.held
    rw [recEnterResumes, bind_run_of_ok ready] at resumes
    obtain ⟨rd, serving, runs⟩ := recEnterRun_vary work inv valid heldT resumes
    refine ⟨t, o, rd, serving, fun step' => .next exits handled ?_⟩
    rw [recEnterResumes, bind_run_of_ok ready]
    exact runs step'

/-! ### A rejected entry -/

/-- REC_ENTER is rejected for the answer to an abort, when it has already answered the host call of the REC or taken
over the interrupts of the host. -/
def Core.RejectsLate (c : Core) (r p : Nat) : Prop :=
  ∃ o rd, c.Enterable r p o rd ∧ (c.mem r).asRec.MmioRejected (c.mem p).words ∧
    ((c.mem r).asRec.hostCallPending = false ∧
        Gic.receiveStateFromHost (c.mem r).asRec (c.mem p).words ≠ (c.mem r).asRec ∨
      (c.mem r).asRec.hostCallPending = true ∧ ¬HostCallIpa rd ((c.mem r).asRec.getReg 1).toNat ∧
        Gic.receiveStateFromHost ((c.mem r).asRec.setReg 0 Rsi.errorInput) (c.mem p).words ≠ (c.mem r).asRec ∨
      (c.mem r).asRec.hostCallPending = true ∧ HostCallIpa rd ((c.mem r).asRec.getReg 1).toNat ∧
        c.ipaToPa? rd ((c.mem r).asRec.getReg 1).toNat ≠ none)

/-- The REC at `r` and all other memory are the same. -/
def Core.SameMemory (c : Core) (r : Nat) (c' : Core) : Prop :=
  (c'.mem r).asRec = (c.mem r).asRec ∧ ∀ x ≠ r, c'.mem x = c.mem x

theorem Settles.same_iff {c c' : Core} {page : Page} (settles : Settles c r rd page c') :
    c.SameMemory r c' ↔
      ((c.mem r).asRec.hostCallPending = false → Gic.receiveStateFromHost (c.mem r).asRec page = (c.mem r).asRec) ∧
      ((c.mem r).asRec.hostCallPending = true → ¬HostCallIpa rd ((c.mem r).asRec.getReg 1).toNat ∧
        Gic.receiveStateFromHost ((c.mem r).asRec.setReg 0 Rsi.errorInput) page = (c.mem r).asRec) := by
  cases settles with
  | idle quiet =>
    have busy : ¬(c.mem r).asRec.hostCallPending = true := by rw [quiet]; exact nofun
    unfold Core.SameMemory
    rw [Core.mem_setContent_same]
    exact ⟨fun same => ⟨fun _ => same.1, fun pending => absurd pending busy⟩,
      fun both => ⟨both.1 quiet, fun x other => Core.mem_setContent_of_ne _ other⟩⟩
  | refused pending wrong =>
    have busy : ¬(c.mem r).asRec.hostCallPending = false := by rw [pending]; exact nofun
    unfold Core.SameMemory
    rw [Core.mem_setContent_same]
    exact ⟨fun same => ⟨fun quiet => absurd quiet busy, fun _ => ⟨wrong, same.1⟩⟩,
      fun both => ⟨(both.2 pending).2, fun x other => Core.mem_setContent_of_ne _ other⟩⟩
  | answered pending fine =>
    refine iff_of_false (fun same => ?_) fun both => (both.2 pending).1 fine
    have flag := congrArg Rec.hostCallPending same.1
    rw [Core.mem_setContent_same, pending] at flag
    exact nomatch flag

theorem Settles.mapped {c c' : Core} {page : Page} (settles : Settles c r rd page c')
    (pending : (c.mem r).asRec.hostCallPending = true) (fine : HostCallIpa rd ((c.mem r).asRec.getReg 1).toNat) :
    c.ipaToPa? rd ((c.mem r).asRec.getReg 1).toNat ≠ none := by
  cases settles with
  | idle quiet => exact nomatch pending.symm.trans quiet
  | refused _ wrong => exact absurd fine wrong
  | answered _ _ mapped =>
    rw [mapped]
    exact nofun

/-- A realm that is entered runs, unless its vectors would have to be saved. -/
theorem Begun.runs (begun : Begun s r p o rd t) (inv : s.core.Inv) (work : InRec cmd s r o Rec.Idle t)
    (script : List RealmStep) :
    (∀ step, ∃ u, (recEnterRun (granuleAddrToIndex r) step).run t = (.ok (), u)) ∨
      ∃ u, (recEnterLoop (granuleAddrToIndex r) script).run t = (.error .panic, u) := by
  have has : t.core.Has r .recCtx := ⟨begun.can.has.1, work.state⟩
  obtain ⟨rd', realm, _⟩ := work.realm
  cases vectors : (t.core.mem r).asRec.context.sveEn with
  | false =>
    refine .inl fun step => ?_
    have spec : wp (recEnterRun (granuleAddrToIndex r) step) (fun _ _ => True) (fun _ _ => False) t :=
      wp_recEnterRun (work.inv inv) has work.owner realm begun.held (fun some => nomatch vectors.symm.trans some)
        fun _ => trivial
    obtain ⟨_, u, ran, _⟩ := returns_of_wp spec
    exact ⟨u, ran⟩
  | true =>
    have panics : ∀ step, ∃ u, (recEnterRun (granuleAddrToIndex r) step).run t = (.error .panic, u) := by
      intro step
      have spec : wp (recEnterRun (granuleAddrToIndex r) step) (fun _ _ => False) (fun halt _ => halt = .panic) t :=
        wp_recEnterRun (work.inv inv) has work.owner realm begun.held (fun _ _ => rfl)
          fun none => nomatch vectors.symm.trans none
      obtain ⟨_, u, stopped, rfl⟩ := stops_of_wp spec
      exact ⟨u, stopped⟩
    refine .inr ?_
    cases script with
    | nil =>
      obtain ⟨u, stopped⟩ := panics (.irq (t.core.mem (indexToAddr (granuleAddrToIndex r))).asRec.context)
      refine ⟨u, ?_⟩
      rw [recEnterLoop, bind_run_of_ok (t := t) rfl, recEnterRound_eq, Prog.bind_assoc]
      exact bind_run_of_error stopped _
    | cons step rest =>
      obtain ⟨u, stopped⟩ := panics step
      rw [recEnterLoop_cons]
      exact ⟨u, bind_run_of_error stopped _⟩

theorem Core.RejectsLate.changes {recW runW : Word} (late : s.core.RejectsLate recW.toNat runW.toNat) (inv : s.core.Inv)
    (script : List RealmStep) : ∃ t, s.handle (.recEnter recW runW script) = (.error (.error .rmiErrorRec), t) ∧
      (∀ step u, ¬s.Exits recW runW [] step u) ∧ ¬s.core.SameMemory recW.toNat t.core := by
  obtain ⟨o, rd, can, rejected, changes⟩ := late
  have spec := recEnterBegins_spec (s := s.start) recW runW script inv rfl rfl rfl rfl
  cases last : (recEnterBegins recW.toNat runW.toNat).run s.start with
  | mk outcome t =>
    cases outcome with
    | ok g =>
      obtain ⟨_, _, _, begun, _⟩ := wp_ok spec last
      exact absurd rejected begun.accepted
    | error halt =>
      rcases wp_error spec last with ⟨_, _, accepted⟩ | ⟨_, lost⟩ | ⟨rfl, o', rd', can', _, settles⟩
      · exact absurd rejected (accepted o rd can)
      · obtain ⟨pending, fine, unmapped⟩ := lost o rd can
        rcases changes with ⟨quiet, _⟩ | ⟨_, wrong, _⟩ | ⟨_, _, mapped⟩
        · exact nomatch pending.symm.trans quiet
        · exact absurd fine wrong
        · exact absurd unmapped mapped
      · obtain ⟨rfl, rfl⟩ := can.unique can'
        refine ⟨t, ?_, fun step u exits => ?_, fun same => ?_⟩
        · change (recEnter _ _ _).run s.start = _
          rw [recEnter_eq_begins, bind_run_of_error last]
        · obtain ⟨_, begins⟩ := exits.begins
          cases last.symm.trans begins
        · have same := settles.same_iff.mp same
          rcases changes with ⟨quiet, differs⟩ | ⟨pending, _, differs⟩ | ⟨pending, fine, _⟩
          · exact differs (same.1 quiet)
          · exact differs (same.2 pending).2
          · exact (same.2 pending).1 fine

/-- A `Run` page that answers an abort and asks for a maintenance interrupt. -/
def answeringPage : Page := fun i => if i = 0 then 1 else if i = 96 then 2 else 0

end Islet.Rmm
