import Islet.Rmm.SetRipas
import Islet.Rmm.Translation

/-! Calls of a realm about its own memory: the RIPAS of a page, and the structure of a
host call. -/

namespace Islet.Rmm

open Lib Prog Bits Rmi Stage2Translation

variable [Platform] {s t u : Machine} {c c' : Core} {r o ipa : Nat} {rd : Rd} {step : RealmStep}

/-! ### The RIPAS of a page -/

/-- The RIPAS of a leaf entry: the field of an invalid descriptor, RAM for a valid one. -/
def S2tte.leafRipas (e : Word) : Word := if S2tte.descNum e = 0 then S2tte.getRipas e else S2tte.ripasRam

omit [Platform] in
/-- At the lowest level the code reads the same. -/
theorem S2tte.leafRipas_eq {e : Word} (fits : (S2tte.view 3 e).Protected) :
    (if S2tte.isAssignedRam e 3 then S2tte.ripasRam else S2tte.getRipas e) = S2tte.leafRipas e := by
  unfold S2tte.leafRipas
  cases meaning : S2tte.view 3 e with
  | unassigned _ =>
    have free := (S2tte.isUnassigned_iff e).mp (S2tte.isUnassigned_of_view meaning).1
    rw [if_pos free.1, if_neg (by rw [S2tte.isAssignedRam_iff]; omega)]
  | assigned _ _ =>
    have held := (S2tte.isAssigned_iff e).mp (S2tte.isAssigned_of_view meaning).1
    rw [if_pos held.1, if_neg (by rw [S2tte.isAssignedRam_iff]; omega)]
  | ram _ =>
    obtain ⟨ns, _, _, _, desc⟩ := S2tte.mapped_of_view meaning
    rw [if_pos ((S2tte.isAssignedRam_iff e 3).mpr ⟨ns, by omega⟩), if_neg (by omega)]
  | _ =>
    rw [meaning] at fits
    exact fits.elim

/-- The realm goes on with success in `x0`, and the RIPAS of the entry for the page in `x1`. -/
def Core.TellsRipas (c : Core) (r o ipa : Nat) (returnToNs : Bool) (v : Machine) : Prop :=
  returnToNs = false ∧ (v.core.mem r).asRec.getReg 0 = Rsi.success ∧ ∃ l e, c.forest.Leaf 3 o (ipa / 4096) l e ∧
    (v.core.mem r).asRec.getReg 1 = S2tte.leafRipas e

theorem Serving.tellsRipas (serving : Serving t r o rd) (isRsi : step.IsRsi)
    (registers : (t.core.mem r).asRec.getReg = step.context.gpRegs)
    (number : (step.context.gpRegs 0).toNat = Rsi.ipaStateGetCmd) (aligned : (step.context.gpRegs 1).toNat % 4096 = 0)
    (inPar : rd.addrInPar (step.context.gpRegs 1).toNat = true) :
    wp (Rmi.handleRealmExit (granuleAddrToIndex r) step)
      (fun ret v => t.core.TellsRipas r o (step.context.gpRegs 1).toNat ret.1 v) (fun _ _ => False) t ↔
    ∃ e, t.core.forest.Leaf 3 o ((step.context.gpRegs 1).toNat / 4096) 3 e := by
  have shape := serving.inv.realms.shape serving.realm
  have fine := shape.validateIpa aligned inPar
  obtain ⟨inside, _, half⟩ := validateIpa_spec shape fine
  refine wp_iff_of_decides (wp_callsHandler isRsi (by rw [number]; rfl) ?_)
  unfold Rsi.getRipasState
  refine serving.wp_ownerRd ?_
  dsimp only
  rw [wp_bind, wp_contentRec, indexToAddr_granuleAddrToIndex serving.has.1, registers, if_neg (by simp [fine]), wp_bind]
  unfold Rtt.getRipas
  rw [wp_bind]
  refine wp_getS2tte (a := o) serving.realm serving.inv (Nat.le_refl 3) inside fun slot last _ reached => ?_
  have leaf := reached.leaf_page rfl (by have := shape.level_le; omega)
  dsimp only
  rw [wp_bind]
  refine wp_errIf (fun short => ?_) fun bottom => ?_
  · -- nothing has been written, so that the number of the call is still in `x0`
    refine iff_of_false ?_ fun ⟨e, other⟩ => short (other.unique leaf).1
    rintro ⟨_, zero, _⟩
    change (t.core.mem r).asRec.getReg 0 = _ at zero
    rw [registers] at zero
    rw [zero] at number
    exact nomatch number
  have bottom : 3 = last := Decidable.not_not.mp bottom
  subst bottom
  have page := Core.Page.of_entry leaf.stored (reached.leaf rfl (by have := shape.level_le; omega)) (Nat.le_refl 3) rfl
  have fits := (Rd.fits_at _).mp (serving.inv.tables.pages serving.realm page)
  rw [Rd.Fits, if_pos half] at fits
  have reads : (if S2tte.isAssignedRam (pte t.core slot) Rsi.pageLevel then S2tte.ripasRam
      else S2tte.getRipas (pte t.core slot)) = S2tte.leafRipas (pte t.core slot) := S2tte.leafRipas_eq fits
  have reply : ∀ ripas : Word, ripas = S2tte.leafRipas (pte t.core slot) → ∀ {err'}, wp (do
      modifyRec (granuleAddrToIndex r) fun r => (r.setReg 0 Rsi.success).setReg 1 ripas
      pure Rsi.rmiSuccessRecEnter)
      (fun ret v => t.core.TellsRipas r o (step.context.gpRegs 1).toNat (decide (ret ≠ Rsi.rmiSuccessRecEnter))
        { v with held := t.held } ↔ ∃ e, t.core.forest.Leaf 3 o ((step.context.gpRegs 1).toNat / 4096) 3 e) err'
      { t with held := [granuleAddrToIndex o, granuleAddrToIndex r] } := by
    intro ripas same err'
    rw [wp_bind, wp_modifyRec serving.has.1, wp_pure]
    refine iff_of_true ⟨rfl, ?_, 3, _, leaf, ?_⟩ ⟨_, leaf⟩
    · change ((t.core.setContent r _).mem r).asRec.getReg 0 = _
      rw [Core.mem_setContent_same, Content.asRec_recCtx, Rec.getReg_setReg_of_ne _ (by omega) _ (by omega),
        Rec.getReg_setReg_same _ (by omega)]
    · change ((t.core.setContent r _).mem r).asRec.getReg 1 = _
      rw [Core.mem_setContent_same, Content.asRec_recCtx, Rec.getReg_setReg_same _ (by omega), same]
  refine wp_if (fun ram => ?_) fun plain => ?_
  · rw [wp_pure]
    rw [if_pos ram] at reads
    exact reply _ reads
  · rw [wp_pure]
    rw [if_neg plain] at reads
    exact reply _ reads

/-- A realm is told the RIPAS of a page of its protected half, exactly if the entry for the page is at the lowest
level. -/
theorem Machine.Reachable.ripas_told {recW runW : Word} {before : List RealmStep} (reached : s.Reachable)
    (exits : s.Exits recW runW before step u) (isRsi : step.IsRsi)
    (number : (step.context.gpRegs 0).toNat = Rsi.ipaStateGetCmd)
    (aligned : (step.context.gpRegs 1).toNat % 4096 = 0) :
    ∃ o rd, (u.core.mem recW.toNat).asRec.owner = some o ∧ u.core.realm? o = some rd ∧
      (rd.addrInPar (step.context.gpRegs 1).toNat = true →
        (wp (Rmi.handleRealmExit (granuleAddrToIndex recW.toNat) step)
          (fun ret v => u.core.TellsRipas recW.toNat o (step.context.gpRegs 1).toNat ret.1 v) (fun _ _ => False) u ↔
        ∃ e, u.core.forest.Leaf 3 o ((step.context.gpRegs 1).toNat / 4096) 3 e)) := by
  obtain ⟨o, atExit⟩ := exits.atExit reached.inv fun _ => id
  obtain ⟨rd, serving⟩ := atExit.serving reached.inv
  exact ⟨o, rd, serving.owner, serving.realm, serving.tellsRipas isRsi atExit.registers number aligned⟩

open Sample in
omit [Platform] in
/-- A page with an entry at the lowest level. -/
theorem ripas_told_idle : ∃ _ : Platform, ∃ (s u : Machine) (recW runW : Word) (step : RealmStep) (o : Nat),
    s.Reachable ∧ s.Exits recW runW [] step u ∧ step.IsRsi ∧ (step.context.gpRegs 0).toNat = Rsi.ipaStateGetCmd ∧
      step.context.gpRegs 1 = 0x1000 ∧ wp (Rmi.handleRealmExit (granuleAddrToIndex recW.toNat) step)
        (fun ret v => u.core.TellsRipas recW.toNat o (step.context.gpRegs 1).toNat ret.1 v) (fun _ _ => False) u := by
  let step := RealmStep.call (registers (BitVec.ofNat 64 Rsi.ipaStateGetCmd) 0x1000)
  have reached := staffed_via.reachable
  have number : (step.context.gpRegs 0).toNat = Rsi.ipaStateGetCmd := by decide
  obtain ⟨u, rd, exits, owner, realm, inPar, entry⟩ := staffed.exists_firstExit (BitVec.ofNat 64 (bankAt 5))
    (BitVec.ofNat 64 hostPage) step (bankAt 0) (fun u rd => rd.addrInPar (step.context.gpRegs 1).toNat = true ∧
      u.core.forest.entry (bankAt 0) 3 ((step.context.gpRegs 1).toNat / 4096) = some idleDesc)
    (by decide +kernel) (by decide +kernel)
  obtain ⟨o, rd', owner', realm', iff⟩ := reached.ripas_told exits (RealmStep.call_isRsi _) number (by decide)
  cases owner'.symm.trans owner
  cases realm'.symm.trans realm
  exact ⟨platform, staffed, u, _, _, step, _, reached, exits, RealmStep.call_isRsi _, number, rfl,
    (iff inPar).mpr ⟨_, leaf_of_bottom entry⟩⟩

open Sample in
omit [Platform] in
/-- A realm without further tables is not told the RIPAS of its first page. -/
theorem ripas_untold : ∃ _ : Platform, ∃ (s u : Machine) (recW runW : Word) (step : RealmStep) (rd : Rd),
    s.Reachable ∧ s.Exits recW runW [] step u ∧ step.IsRsi ∧ (step.context.gpRegs 0).toNat = Rsi.ipaStateGetCmd ∧
      step.context.gpRegs 1 = 0 ∧ u.core.realm? (bankAt 0) = some rd ∧ rd.addrInPar 0 = true ∧
      ¬wp (Rmi.handleRealmExit (granuleAddrToIndex (bankAt 5)) step)
        (fun ret v => u.core.TellsRipas (bankAt 5) (bankAt 0) (step.context.gpRegs 1).toNat ret.1 v)
        (fun _ _ => False) u := by
  let step := RealmStep.call (registers (BitVec.ofNat 64 Rsi.ipaStateGetCmd) 0)
  have reached := wide_via.reachable
  obtain ⟨u, rd, exits, owner, realm, inPar, entry⟩ := wide.exists_firstExit (BitVec.ofNat 64 (bankAt 5))
    (BitVec.ofNat 64 hostPage) step (bankAt 0) (fun u rd => rd.addrInPar 0 = true ∧
      u.core.forest.entry (bankAt 0) 0 0 = some 0) (by decide +kernel) (by decide +kernel)
  have above : u.core.forest.Leaf 3 (bankAt 0) 0 0 0 := ⟨Nat.zero_le 3, entry, forest_next_none (by decide)⟩
  refine ⟨platform, wide, u, _, _, step, rd, reached, exits, RealmStep.call_isRsi _, by decide, rfl, realm, inPar, ?_⟩
  obtain ⟨o, rd', serving, registers⟩ := exits.serving reached.inv
  cases serving.owner.symm.trans owner
  cases serving.realm.symm.trans realm
  rw [toNat_bankAt (by omega)] at serving registers
  rw [serving.tellsRipas (RealmStep.call_isRsi _) registers (by decide) (by decide) inPar]
  rintro ⟨e, leaf⟩
  exact nomatch (leaf.unique above).1

/-! ### The structure of a host call -/

/-- The words of the structure that lies at `offset` in the granule `pa`. -/
def Core.callAt (c : Core) (pa offset : Nat) : Rmm.Page := fun i => (c.mem pa).words (offset / 8 + i)

/-- The `Run` page of a host call with this structure. -/
def Rsi.callRun (call run : Page) : Page :=
  Run.setExitReason (Run.setImm (Rsi.loadHostCall call run) (call 0 &&& 0xffff)) Rsi.exitHostCall

/-- The granule with the registers of the host in the structure at `offset`. -/
def Rsi.putCall (offset : Nat) (page run : Page) : Page := fun i =>
  if offset / 8 + 1 ≤ i ∧ i ≤ offset / 8 + 31 then Run.entryGpr run (i - (offset / 8 + 1)) else page i

/-- The REC after the answer of the host. -/
def Rec.callAnswered (rc : Rec) (run : Page) : Rec :=
  Gic.receiveStateFromHost { rc.setReg 0 Rsi.success with hostCallPending := false } run

/-- The page of the IPA is protected, and mapped to the granule `pa`. -/
def Core.CallPage (c : Core) (o ipa pa : Nat) : Prop :=
  ∃ rd, c.realm? o = some rd ∧ rd.addrInPar ipa = true ∧
    ∃ e, c.forest.Leaf 3 o (ipa / 4096) 3 e ∧ S2tte.view 3 e = .ram pa

/-- The same state with other contents of one granule. -/
def Machine.vary (u : Machine) (x : Nat) (page : Page) : Machine := { u with core := u.core.setContent x (.raw page) }

/-- Whatever is in the memory of realms, the host call is made of the structure, and nothing is written. -/
def Machine.ReadsCall (u : Machine) (r pa offset : Nat) (step : RealmStep) : Prop :=
  ∀ x page, u.core.stateOf x = .data → ∃ v,
    (handleRealmExit (granuleAddrToIndex r) step).run (u.vary x page) = (.ok (true, Rsi.rmiSuccess), v) ∧
    v.run = Rsi.callRun ((u.vary x page).core.callAt pa offset) u.run ∧
    v.core = (u.vary x page).core.setContent r (.recCtx { (u.core.mem r).asRec with hostCallPending := true })

/-- The registers of the host are in the structure, all other memory is as before, and the REC does not depend on it. -/
structure Core.CallStored (c : Core) (r pa offset : Nat) (run : Rmm.Page) (c' : Core) : Prop where
  stored : c'.mem pa = .raw (Rsi.putCall offset (c.mem pa).words run)
  others : ∀ x, x ≠ pa → x ≠ r → c'.mem x = c.mem x
  recCtx : c'.mem r = .recCtx ((c.mem r).asRec.callAnswered run) ∨
    c'.mem r = .recCtx ((((c.mem r).asRec.callAnswered run).emulated run).ripasChanged run)

/-- Whatever is in the memory of realms, REC_ENTER stores the registers of the host in the structure if it accepts its
arguments, and changes nothing otherwise. -/
def Machine.WritesCall (w : Machine) (recW runW : Word) (pa offset : Nat) : Prop :=
  ∀ x page, w.core.stateOf x = .data → wp (recEnterChecks recW.toNat runW.toNat)
    (fun out t => wp (recEnterCompletes out.1 out.2.1 out.2.2)
      (fun _ v => (w.vary x page).core.CallStored recW.toNat pa offset (w.core.mem runW.toNat).words v.core)
      (fun halt v => halt = .panic ∨
        (w.vary x page).core.CallStored recW.toNat pa offset (w.core.mem runW.toNat).words v.core) t)
    (fun _ t => t.core = (w.vary x page).core) (w.vary x page).start

section Vary

variable {x : Nat} {page : Rmm.Page} (data : u.core.stateOf x = .data)
include data

theorem Machine.vary_inv (inv : u.core.Inv) : (u.vary x page).core.Inv :=
  inv.setContent (by rw [data]; exact nofun) (by rw [data]; exact nofun) (by rw [data]; exact nofun)

theorem Machine.vary_forest (inv : u.core.Inv) : SameForest u.core (u.vary x page).core :=
  (sameOwners_setContent (by rw [data]; exact nofun) (by rw [data]; exact nofun)).sameForest inv.tables

omit [Platform] in
theorem Machine.vary_mem {y : Nat} {state : GranuleState} (has : u.core.stateOf y = state) (other : state ≠ .data) :
    (u.vary x page).core.mem y = u.core.mem y := by
  refine Core.mem_setContent_of_ne _ ?_
  rintro rfl
  exact other (has.symm.trans data)

theorem Core.CallPage.vary {pa : Nat} (page' : u.core.CallPage o ipa pa) (inv : u.core.Inv) :
    (u.vary x page).core.CallPage o ipa pa := by
  obtain ⟨rd, realm, inPar, e, leaf, view⟩ := page'
  refine ⟨rd, (realm?_setContent (by rw [data]; exact nofun) o).trans realm, inPar, e, ?_, view⟩
  exact (Forest.Leaf.congr ((Machine.vary_forest data inv).entry_eq o) fun _ _ => rfl).mpr leaf

end Vary

/-- The monitor translates the IPA to the granule. -/
theorem Core.CallPage.ipaToPa? {pa : Nat} (page : c.CallPage o ipa pa) (inv : c.Inv) (realm : c.realm? o = some rd) :
    c.ipaToPa? rd ipa = some pa ∧ c.stateOf pa = .data ∧ rd.addrInPar ipa = true := by
  obtain ⟨rd', realm', inPar, e, leaf, view⟩ := page
  cases realm.symm.trans realm'
  have shape := inv.realms.shape realm
  have below : ipa < rd.parSize := by simpa [Rd.addrInPar] using inPar
  obtain ⟨l, e', leaf', _, monitor, _⟩ := Core.translations realm shape (below.trans_le (Nat.div_le_self _ _))
  obtain ⟨rfl, rfl⟩ := leaf'.unique leaf
  obtain ⟨_, rfl, _, _, desc⟩ := S2tte.mapped_of_view view
  rw [if_pos (by omega)] at monitor
  exact ⟨monitor, (Core.ipaToPa?_page realm inv inPar monitor).2, inPar⟩

omit [Platform] in
theorem HostCallIpa.of_aligned {ipa : Nat} (aligned : ipa % 256 = 0) (inPar : rd.addrInPar ipa = true) :
    HostCallIpa rd ipa := by
  refine ⟨aligned, ?_, inPar⟩
  unfold granuleSize
  omega

/-! #### The exit -/

theorem Serving.vary {x : Nat} {page : Page} (serving : Serving u r o rd) (data : u.core.stateOf x = .data) :
    Serving (u.vary x page) r o rd := by
  have recEq : (u.vary x page).core.mem r = u.core.mem r := Machine.vary_mem data serving.has.2 nofun
  refine ⟨Machine.vary_inv data serving.inv, serving.has, ?_, ?_, serving.active, serving.held⟩
  · rw [recEq]
    exact serving.owner
  · exact (realm?_setContent (by rw [data]; exact nofun) o).trans serving.realm

section HostCall

variable {pa : Nat} (serving : Serving t r o rd) (isRsi : step.IsRsi)
  (registers : (t.core.mem r).asRec.getReg = step.context.gpRegs)
  (number : (step.context.gpRegs 0).toNat = Rsi.hostCallCmd) (aligned : (step.context.gpRegs 1).toNat % 256 = 0)
  (page : t.core.CallPage o (step.context.gpRegs 1).toNat pa)
include serving isRsi registers number aligned page

/-- The structure is taken to be at the start of the granule, and a second call ends the first. -/
theorem Serving.wp_hostCall {ok : Bool × Nat → Machine → Prop}
    (store : (t.core.mem r).asRec.hostCallPending = true → ok (true, Rsi.rmiSuccess) { t with
      core := (t.core.setContent pa (.raw (Rsi.storeHostCall (t.core.mem pa).words t.run))).setContent r
        (.recCtx { (t.core.mem r).asRec.setReg 0 Rsi.success with hostCallPending := false }) })
    (load : (t.core.mem r).asRec.hostCallPending = false → ok (true, Rsi.rmiSuccess) { t with
      run := Rsi.callRun (t.core.mem pa).words t.run
      core := t.core.setContent r (.recCtx { (t.core.mem r).asRec with hostCallPending := true }) }) :
    wp (Rmi.handleRealmExit (granuleAddrToIndex r) step) ok (fun _ _ => False) t := by
  obtain ⟨mapped, _, inPar⟩ := page.ipaToPa? serving.inv serving.realm
  have fine := HostCallIpa.of_aligned aligned inPar
  refine wp_callsHandler isRsi (by rw [number]; rfl) ?_
  refine wp_doHostCall serving.inRec serving.inv serving.has.1 serving.held (fun rd' realm wrong => ?_)
    (fun rd' realm _ unmapped => ?_) (fun rd' pa' realm _ mapped' _ pending => ?_)
    fun rd' pa' realm _ mapped' idle => ?_
  all_goals cases serving.realm.symm.trans realm
  · rw [registers] at wrong
    exact absurd fine wrong
  · rw [registers] at unmapped
    exact nomatch unmapped.symm.trans mapped
  · rw [registers] at mapped'
    cases mapped'.symm.trans mapped
    exact store pending
  · rw [registers] at mapped'
    cases mapped'.symm.trans mapped
    exact load idle

end HostCall

theorem Core.callAt_zero (c : Core) (pa : Nat) : c.callAt pa 0 = (c.mem pa).words := by
  funext i
  unfold Core.callAt
  congr 1
  omega

omit [Platform] in
/-- The first register of the structure goes to the host. -/
theorem Rsi.callRun_gpr (call run : Page) : Rsi.callRun call run 320 = call 1 := rfl

/-- The host call is made of the structure exactly if that is at the start of the granule, and no call is pending. -/
theorem Serving.readsCall_iff {pa : Nat} (serving : Serving u r o rd) (isRsi : step.IsRsi)
    (registers : (u.core.mem r).asRec.getReg = step.context.gpRegs)
    (number : (step.context.gpRegs 0).toNat = Rsi.hostCallCmd) (aligned : (step.context.gpRegs 1).toNat % 256 = 0)
    (page : u.core.CallPage o (step.context.gpRegs 1).toNat pa) :
    u.ReadsCall r pa ((step.context.gpRegs 1).toNat % 4096) step ↔
      (step.context.gpRegs 1).toNat % 4096 = 0 ∧ (u.core.mem r).asRec.hostCallPending = false := by
  have data := (page.ipaToPa? serving.inv serving.realm).2.1
  have same : ∀ {x : Nat} {content : Page}, u.core.stateOf x = .data →
      (u.vary x content).core.mem r = u.core.mem r :=
    fun isData => Machine.vary_mem isData serving.has.2 nofun
  have calls : ∀ {x : Nat} (content : Page) (ok : Bool × Nat → Machine → Prop), u.core.stateOf x = .data → _ → _ →
      wp (Rmi.handleRealmExit (granuleAddrToIndex r) step) ok (fun _ _ => False) (u.vary x content) :=
    fun content ok isData => (serving.vary isData).wp_hostCall isRsi (by rw [same isData]; exact registers) number
      aligned (page.vary isData serving.inv)
  constructor
  · intro reads
    -- a granule with one word set, that of the first register at its start
    let probe : Page := fun i => if i = 1 then 1 else 0
    obtain ⟨v, runs, run, core⟩ := reads pa probe data
    have spec := calls probe (fun _ v => (v.core.mem r).asRec.hostCallPending = true →
        (u.core.mem r).asRec.hostCallPending = false ∧ v.run 320 = 1) data
      (fun _ still => by rw [Core.mem_setContent_same] at still; exact nomatch still) fun idle _ => by
        rw [same data] at idle
        refine ⟨idle, ?_⟩
        change Rsi.callRun ((u.core.setContent pa (.raw probe)).mem pa).words u.run 320 = 1
        rw [Rsi.callRun_gpr, Core.mem_setContent_same]
        rfl
    obtain ⟨idle, first⟩ := wp_ok spec runs (by rw [core, Core.mem_setContent_same, Content.asRec_recCtx])
    refine ⟨?_, idle⟩
    by_contra inner
    rw [run, Rsi.callRun_gpr, Core.callAt, Machine.vary, Core.mem_setContent_same] at first
    change (if _ then _ else _) = _ at first
    rw [if_neg (by omega)] at first
    exact nomatch first
  · rintro ⟨zero, idle⟩ x content isData
    rw [zero]
    have spec := calls content (fun ret v => ret = (true, Rsi.rmiSuccess) ∧
        v.run = Rsi.callRun ((u.vary x content).core.callAt pa 0) u.run ∧
        v.core = (u.vary x content).core.setContent r (.recCtx { (u.core.mem r).asRec with hostCallPending := true }))
      isData (fun pending => by rw [same isData, idle] at pending; exact nomatch pending)
      (fun _ => ⟨rfl, by rw [Core.callAt_zero]; rfl, by rw [same isData]⟩)
    obtain ⟨_, v, runs, rfl, spec⟩ := returns_of_wp spec
    exact ⟨v, runs, spec⟩

/-! #### The next entry -/

omit [Platform] in
theorem Rsi.putCall_zero (page run : Page) : Rsi.putCall 0 page run = Rsi.storeHostCall page run := by
  funext i
  unfold Rsi.putCall Rsi.storeHostCall
  simp

/-- What a pending host call leads to. -/
theorem Settles.stored {pa : Nat} {run : Page} (settles : Settles c r rd run c') (has : c.Has r .recCtx)
    (pending : (c.mem r).asRec.hostCallPending = true) (fine : HostCallIpa rd ((c.mem r).asRec.getReg 1).toNat)
    (mapped : c.ipaToPa? rd ((c.mem r).asRec.getReg 1).toNat = some pa) :
    c'.mem pa = .raw (Rsi.putCall 0 (c.mem pa).words run) ∧ (∀ x, x ≠ pa → x ≠ r → c'.mem x = c.mem x) ∧
      c'.mem r = .recCtx ((c.mem r).asRec.callAnswered run) ∧ pa ≠ r := by
  cases settles with
  | idle quiet => exact nomatch quiet.symm.trans pending
  | refused _ wrong => exact absurd fine wrong
  | answered _ _ mapped' isData =>
    cases mapped'.symm.trans mapped
    have other : pa ≠ r := by
      rintro rfl
      exact nomatch isData.symm.trans has.2
    refine ⟨?_, fun x ne ne' => ?_, Core.mem_setContent_same _, other⟩
    · rw [Core.mem_setContent_of_ne _ other, Core.mem_setContent_same, Rsi.putCall_zero]
    · rw [Core.mem_setContent_of_ne _ ne', Core.mem_setContent_of_ne _ ne]

theorem recEnterCompletes_stores {p pa : Nat} {cmd : Command} (inv : s.core.Inv) (enters : EntersRec cmd r)
    (can : s.core.Enterable r p o rd) (kept : Kept s.core cmd s t) (core : t.core = s.core)
    (held : t.held = [granuleAddrToIndex r]) (run : t.run = (s.core.mem p).words)
    (pending : (s.core.mem r).asRec.hostCallPending = true)
    (fine : HostCallIpa rd ((s.core.mem r).asRec.getReg 1).toNat)
    (mapped : s.core.ipaToPa? rd ((s.core.mem r).asRec.getReg 1).toNat = some pa) :
    wp (recEnterCompletes (granuleAddrToIndex r) (s.core.mem r).asRec (s.core.mem p).words)
      (fun _ v => s.core.CallStored r pa 0 (s.core.mem p).words v.core)
      (fun halt v => halt = .panic ∨ s.core.CallStored r pa 0 (s.core.mem p).words v.core) t := by
  refine wp_recEnterCompletes inv enters can kept core held run (fun _ _ unmapped => nomatch unmapped.symm.trans mapped)
    (fun c ret settles _ => ?_) (fun _ _ _ _ => .inl rfl) fun c ret settles _ _ => ?_
  · obtain ⟨stored, others, recCtx, _⟩ := settles.stored can.has pending fine mapped
    exact .inr ⟨stored, others, .inl recCtx⟩
  · obtain ⟨stored, others, recCtx, ne⟩ := settles.stored can.has pending fine mapped
    refine ⟨?_, fun x other other' => ?_, .inr ?_⟩
    · exact (Core.mem_setContent_of_ne _ ne).trans stored
    · exact (Core.mem_setContent_of_ne _ other').trans (others x other other')
    · refine (Core.mem_setContent_same _).trans ?_
      rw [recCtx]
      rfl

/-- A structure at the start of its granule gets the registers of the host. -/
theorem Machine.Reachable.writesCall {pa : Nat} {recW runW : Word} (reached : s.Reachable)
    (pending : (s.core.mem recW.toNat).asRec.hostCallPending = true)
    (owner : (s.core.mem recW.toNat).asRec.owner = some o)
    (aligned : ((s.core.mem recW.toNat).asRec.getReg 1).toNat % 4096 = 0)
    (page : s.core.CallPage o ((s.core.mem recW.toNat).asRec.getReg 1).toNat pa) : s.WritesCall recW runW pa 0 := by
  intro x content isData
  have inv : (s.vary x content).core.Inv := Machine.vary_inv isData reached.inv
  refine wp_mono (recEnterChecks_spec recW runW [] inv rfl rfl rfl rfl) ?_ fun _ _ => And.left ∘ And.right
  rintro _ t ⟨⟨o', rd, can⟩, rfl, pt, safe, rfl⟩
  have same : (s.vary x content).core.mem recW.toNat = s.core.mem recW.toNat := Machine.vary_mem isData can.has.2 nofun
  have host : (s.vary x content).core.mem runW.toNat = s.core.mem runW.toNat := Machine.vary_mem isData can.host.2 nofun
  rw [← same] at pending owner aligned page
  rw [← host]
  cases owner.symm.trans can.owner
  obtain ⟨mapped, _, inPar⟩ := (page.vary isData reached.inv).ipaToPa? inv can.realm
  have fine := HostCallIpa.of_aligned (by omega) inPar
  have enters : EntersRec (.recEnter recW runW []) recW.toNat := rfl
  exact recEnterCompletes_stores inv enters can ⟨.refl, .of_eq rfl, safe⟩ rfl rfl rfl pending fine mapped

/-! #### Both steps -/

/-- The structure that a realm passes with a host call is what is read and what is written, exactly if it is at the
start of its granule and no call was pending. -/
theorem Machine.Reachable.call_exchanged {recW runW : Word} {before : List RealmStep} (reached : s.Reachable)
    (exits : s.Exits recW runW before step u) (isRsi : step.IsRsi)
    (number : (step.context.gpRegs 0).toNat = Rsi.hostCallCmd) (aligned : (step.context.gpRegs 1).toNat % 256 = 0) :
    ∃ o rd, (u.core.mem recW.toNat).asRec.owner = some o ∧ u.core.realm? o = some rd ∧
      ∀ pa, u.core.CallPage o (step.context.gpRegs 1).toNat pa →
        ((u.ReadsCall recW.toNat pa ((step.context.gpRegs 1).toNat % 4096) step ∧
          ∀ {w : Machine} {runW' : Word}, w.Reachable → (w.core.mem recW.toNat).asRec.hostCallPending = true →
            (w.core.mem recW.toNat).asRec.owner = some o →
            (w.core.mem recW.toNat).asRec.getReg 1 = step.context.gpRegs 1 →
            w.core.CallPage o (step.context.gpRegs 1).toNat pa →
            w.WritesCall recW runW' pa ((step.context.gpRegs 1).toNat % 4096)) ↔
        (step.context.gpRegs 1).toNat % 4096 = 0 ∧ (u.core.mem recW.toNat).asRec.hostCallPending = false) := by
  obtain ⟨o, atExit⟩ := exits.atExit reached.inv fun _ => id
  obtain ⟨rd, serving⟩ := atExit.serving reached.inv
  refine ⟨o, rd, serving.owner, serving.realm, fun pa page => ?_⟩
  rw [serving.readsCall_iff isRsi atExit.registers number aligned page]
  refine and_iff_left_of_imp fun ⟨zero, _⟩ w runW' reachedW pending owner same pageW => ?_
  rw [zero]
  rw [← same] at zero pageW
  exact reachedW.writesCall pending owner zero pageW

open Sample in
omit [Platform] in
/-- A structure at the start of its page. -/
theorem call_exchanged_start : ∃ _ : Platform, ∃ (s u : Machine) (recW runW : Word) (step : RealmStep),
    s.Reachable ∧ s.Exits recW runW [] step u ∧ step.IsRsi ∧ (step.context.gpRegs 0).toNat = Rsi.hostCallCmd ∧
      step.context.gpRegs 1 = 0 ∧ u.core.CallPage (bankAt 0) 0 (bankAt 4) ∧
      u.ReadsCall recW.toNat (bankAt 4) 0 step := by
  let step := RealmStep.call (registers (BitVec.ofNat 64 Rsi.hostCallCmd) 0)
  have reached := staffed_via.reachable
  have number : (step.context.gpRegs 0).toNat = Rsi.hostCallCmd := by decide
  obtain ⟨u, rd, exits, owner, realm, inPar, entry, idle⟩ := staffed.exists_firstExit (BitVec.ofNat 64 (bankAt 5))
    (BitVec.ofNat 64 hostPage) step (bankAt 0) (fun u rd => rd.addrInPar 0 = true ∧
      u.core.forest.entry (bankAt 0) 3 0 = some (Rtt.dataDesc (bankAt 4) true 1) ∧
      (u.core.mem (BitVec.ofNat 64 (bankAt 5)).toNat).asRec.hostCallPending = false) (by decide +kernel)
    (by decide +kernel)
  have page : u.core.CallPage (bankAt 0) 0 (bankAt 4) := ⟨rd, realm, inPar, _, leaf_of_bottom entry, by decide⟩
  obtain ⟨o, rd', owner', _, iff⟩ := reached.call_exchanged exits (RealmStep.call_isRsi _) number (by decide)
  cases owner'.symm.trans owner
  exact ⟨platform, staffed, u, _, _, step, reached, exits, RealmStep.call_isRsi _, number, rfl, page,
    ((iff (bankAt 4) page).mpr ⟨by decide, idle⟩).1⟩

open Sample in
omit [Platform] in
/-- A structure in the middle of its page is not what the host gets. -/
theorem call_misread : ∃ _ : Platform, ∃ (s u : Machine) (recW runW : Word) (step : RealmStep),
    s.Reachable ∧ s.Exits recW runW [] step u ∧ step.IsRsi ∧ (step.context.gpRegs 0).toNat = Rsi.hostCallCmd ∧
      step.context.gpRegs 1 = 0x100 ∧ u.core.CallPage (bankAt 0) 0x100 (bankAt 4) ∧
      ¬u.ReadsCall recW.toNat (bankAt 4) 0x100 step := by
  let step := RealmStep.call (registers (BitVec.ofNat 64 Rsi.hostCallCmd) 0x100)
  have reached := staffed_via.reachable
  obtain ⟨u, rd, exits, owner, realm, inPar, entry⟩ := staffed.exists_firstExit (BitVec.ofNat 64 (bankAt 5))
    (BitVec.ofNat 64 hostPage) step (bankAt 0) (fun u rd => rd.addrInPar 0x100 = true ∧
      u.core.forest.entry (bankAt 0) 3 (0x100 / 4096) = some (Rtt.dataDesc (bankAt 4) true 1)) (by decide +kernel)
    (by decide +kernel)
  have page : u.core.CallPage (bankAt 0) 0x100 (bankAt 4) := ⟨rd, realm, inPar, _, leaf_of_bottom entry, by decide⟩
  obtain ⟨o, rd', serving, registers⟩ := exits.serving reached.inv
  cases serving.owner.symm.trans owner
  refine ⟨platform, staffed, u, _, _, step, reached, exits, RealmStep.call_isRsi _, by decide, rfl, page, fun reads => ?_⟩
  exact nomatch ((serving.readsCall_iff (RealmStep.call_isRsi _) registers (by decide) (by decide) page).mp reads).1

end Islet.Rmm
