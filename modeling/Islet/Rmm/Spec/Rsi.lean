import Islet.Rmm.Spec.Rec

/-! The services of a realm. While the monitor works for a REC it keeps the moves of
the command, the REC in its granule, an active owner, and what it knows about the
requests of the REC that the host has not answered. -/

namespace Islet.Rmm

open Lib Prog Bits Rmi Stage2Translation

variable [Platform] {cmd : Command} {s t u : Machine} {a r o : Nat} {rd : Rd} {P Q : Rec → Prop}
  {err' : Halt → Machine → Prop}

/-! ### Memory that a realm reaches -/

section Reach

variable {c : Core} {ipa : Nat}

omit [Platform] in
theorem Rd.walkPage_low (rd : Rd) {level : Nat} (low : rd.s2StartingLevel ≤ level) (bound : level ≤ 3) :
    ipa % 2 ^ (39 - 9 * level) / 4096 = rd.walkPage ipa % 512 ^ (3 - level) := by
  have split : 512 ^ (3 - rd.s2StartingLevel) = 512 ^ (3 - level) * 512 ^ (level - rd.s2StartingLevel) := by
    rw [← Nat.pow_add]
    congr 1
    omega
  rw [entry_bytes bound, Nat.mod_mul_right_div_self]
  unfold Rd.walkPage
  rw [split, ← Nat.mul_assoc, Nat.mul_right_comm, Nat.mul_comm _ (512 ^ (3 - level)), Nat.mul_add_mod,
    Nat.mod_mul_right_mod]

omit [Platform] in
theorem S2tte.isHardwareLeaf_iff {e : Word} {level : Nat} : S2tte.isHardwareLeaf e level = true ↔
    level = 3 ∧ S2tte.descNum e = 3 ∨ (level = 1 ∨ level = 2) ∧ S2tte.descNum e = 1 := by
  simp only [S2tte.isHardwareLeaf, Bool.or_eq_true, Bool.and_eq_true, beq_iff_eq, S2tte.descType_eq]
  rfl

omit [Platform] in
/-- What the hardware takes as a page or a block is mapped, to the realm or to the host. -/
theorem S2tte.view_of_isHardwareLeaf {e : Word} {level : Nat} (leaf : S2tte.isHardwareLeaf e level = true) :
    1 ≤ level ∧ S2tte.isTable e level = false ∧ S2tte.view level e =
      if S2tte.nsNum e = 0 then .ram (S2tte.outAddr e level) else .ns (S2tte.outAddr e level) := by
  rw [S2tte.isHardwareLeaf_iff] at leaf
  refine ⟨by omega, ?_, ?_⟩
  · rw [← Bool.not_eq_true, S2tte.isTable_iff]
    omega
  · unfold S2tte.view
    rw [if_neg (by omega), if_pos (by omega)]

/-- A store of a realm reaches its own data or memory of the host. -/
theorem Core.Inv.realmTarget {page : Nat} (inv : c.Inv) (realm : c.realm? a = some rd)
    (hit : c.realmTarget? rd.tables ipa = some page) :
    c.stateOf page = .data ∨ c.stateOf page = .undelegated := by
  have shape := inv.realms.shape realm
  have reached := walk_reached realm shape ipa true (show 3 ≤ 3 from Nat.le_refl 3)
  unfold Core.realmTarget? at hit
  generalize rd.tables.walk c ipa 3 true = w at reached hit
  cases w with
  | missing => exact nomatch hit
  | panic => exact nomatch hit
  | found slot level =>
    obtain ⟨reached, _⟩ := reached
    dsimp only at hit
    rw [Option.ite_none_right_eq_some] at hit
    obtain ⟨⟨leaf, valid, world⟩, same⟩ := hit
    cases same
    obtain ⟨low, plain, view⟩ := S2tte.view_of_isHardwareLeaf leaf
    have page := Core.Page.of_entry reached.entry plain reached.high rfl
    rw [S2tte.toNat_blockMask low reached.high] at valid world ⊢
    by_cases secure : getMaskedValue (pte c slot) S2tte.ns = 0
    · refine .inl ?_
      have isRam : S2tte.nsNum (pte c slot) = 0 := S2tte.ns_eq.mp secure
      rw [view, if_pos isRam] at page
      have backed := (inv.tables.backed page rfl).2
      rw [← Rd.walkPage_low rd reached.low reached.high] at backed
      rw [granuleSize, Nat.mul_comm (_ / _)]
      exact backed
    · refine .inr ((inv.gpt _ valid).mpr ?_)
      rw [world, if_neg secure]
      exact nofun

omit [Platform] in
theorem S2tte.address_zero_eq (e : Word) :
    S2tte.address e 0 = if S2tte.descNum e = 3 then some (S2tte.outAddr e 3) else none := by
  unfold S2tte.address
  by_cases page : S2tte.pointsToTableOrPage e = true
  · rw [if_pos ((S2tte.pointsToTableOrPage_iff e).mp page)]
    simp only [S2tte.pointsToTableOrPage, Bool.and_eq_true] at page
    rw [if_pos page.1, if_pos page.2, S2tte.toNat_addrTblOrPage]
  · rw [if_neg fun three => page ((S2tte.pointsToTableOrPage_iff e).mpr three)]
    simp only [S2tte.pointsToTableOrPage, Bool.and_eq_true, not_and] at page
    split
    · rename_i valid
      rw [if_neg (page valid)]
      rfl
    · rfl

omit [Platform] in
theorem S2tte.address_zero (e : Word) : S2tte.address e 0 = none ∨
    S2tte.descNum e = 3 ∧ S2tte.address e 0 = some (S2tte.outAddr e 3) := by
  rw [S2tte.address_zero_eq]
  split_ifs with page
  · exact .inr ⟨page, rfl⟩
  · exact .inl rfl

/-- The address that the page of an IPA is mapped to. -/
def Core.ipaToPa? (c : Core) (rd : Rd) (ipa : Nat) : Option Nat :=
  match rd.tables.walk c ipa 3 true with
  | .found slot _ => S2tte.address (pte c slot) 0
  | _ => none

/-- The address of a protected page is that of a data granule. -/
theorem Core.ipaToPa?_page {pa : Nat} (realm : c.realm? a = some rd) (inv : c.Inv) (inPar : rd.addrInPar ipa = true)
    (mapped : c.ipaToPa? rd ipa = some pa) : c.Page a (ipa / 4096) (.ram pa) ∧ c.stateOf pa = .data := by
  have shape := inv.realms.shape realm
  have below : ipa < rd.parSize := by simpa [Rd.addrInPar] using inPar
  have inside : ipa < rd.ipaSize := Nat.lt_of_lt_of_le below (Nat.div_le_self _ _)
  have reached := walk_reached realm shape ipa true (show 3 ≤ 3 from Nat.le_refl 3)
  unfold Core.ipaToPa? at mapped
  generalize rd.tables.walk c ipa 3 true = w at reached mapped
  cases w with
  | missing => cases mapped
  | panic => cases mapped
  | found slot last =>
    rw [shape.walkPage_eq inside] at reached
    dsimp only at mapped
    obtain none | ⟨isPage, some⟩ := S2tte.address_zero (pte c slot)
    · cases none.symm.trans mapped
    cases some.symm.trans mapped
    have plain := reached.1.leaf rfl (Nat.le_trans shape.level_le (by omega))
    have bottom : last = 3 := by
      have high := reached.1.high
      rw [← Bool.not_eq_true, S2tte.isTable_iff] at plain
      omega
    subst bottom
    have page := Core.Page.of_entry reached.1.entry plain (Nat.le_refl 3) rfl
    rw [Nat.sub_self, Nat.pow_zero, Nat.mod_one, View.at_zero] at page
    have fits := inv.tables.pages realm page
    rw [Rd.Fits, if_pos (by unfold Rd.inPar; omega)] at fits
    have view : S2tte.view 3 (pte c slot) = .ram (S2tte.outAddr (pte c slot) 3) := by
      unfold S2tte.view at fits ⊢
      rw [if_neg (by omega), if_pos (by omega)] at fits ⊢
      split
      · rfl
      · rename_i host
        rw [if_neg host] at fits
        exact absurd fits id
    rw [view] at page
    exact ⟨page, (inv.tables.backed page rfl).2⟩

theorem wp_ipaToPa {ok : Option Nat → Machine → Prop} (realm : s.core.realm? a = some rd) (inv : s.core.Inv)
    (inPar : rd.addrInPar ipa = true) (missing : s.core.ipaToPa? rd ipa = none → ok none s)
    (found : ∀ pa, s.core.ipaToPa? rd ipa = some pa → s.core.stateOf pa = .data → ok (some pa) s) :
    wp (ipaToPa rd ipa Rsi.pageLevel) ok err' s := by
  have shape := inv.realms.shape realm
  have below : ipa < rd.parSize := by simpa [Rd.addrInPar] using inPar
  have reached := walk_reached realm shape ipa true (show 3 ≤ 3 from Nat.le_refl 3)
  have isData := fun {pa} => @Core.ipaToPa?_page _ a rd s.core ipa pa realm inv inPar
  unfold ipaToPa
  unfold Core.ipaToPa? at missing found isData
  rw [wp_bind]
  refine wp_walkTo (inv.realms.registered realm) (fun slot last walked => ?_) (fun walked => ?_) fun walked => ?_
  · change ok (S2tte.address (pte s.core slot) 0) s
    simp only [S2tte.rttPageLevel] at walked
    simp only [walked] at missing found isData
    cases address : S2tte.address (pte s.core slot) 0 with
    | none => exact missing address
    | some pa => exact found pa address (isData address).2
  · simp only [S2tte.rttPageLevel] at walked
    simp only [walked] at missing
    exact missing trivial
  · simp only [S2tte.rttPageLevel] at walked
    rw [walked] at reached
    exact absurd (Nat.lt_of_lt_of_le below (Nat.div_le_self _ _)) reached

end Reach

theorem Quiet.getRipas (rd : Rd) (ipa level : Nat) : Quiet (Rtt.getRipas rd ipa level) :=
  (Quiet.getS2tte rd ipa level _).bind fun _ => (Quiet.errIf _ _).bind fun _ => .ite (.pure _) (.pure _)

/-! ### Requests of a REC -/

/-- The same owner and the same requests. -/
structure Rec.SameFlags (rc rc' : Rec) : Prop where
  owner : rc'.owner = rc.owner
  aux : rc'.aux = rc.aux
  vcpuid : rc'.vcpuid = rc.vcpuid
  runnable : rc'.runnable = rc.runnable
  psci : rc'.psciPending = rc.psciPending
  host : rc'.hostCallPending = rc.hostCallPending
  ripas : rc'.ripas = rc.ripas
  abort : rc'.emulatableAbort = rc.emulatableAbort

/-- A REC that may run once its RIPAS request is completed. -/
structure Rec.Settled (rc : Rec) : Prop where
  psci : rc.psciPending = false
  host : rc.hostCallPending = false
  runnable : rc.runnable = true

/-- A REC that may run. -/
structure Rec.Idle (rc : Rec) : Prop extends rc.Settled where
  ripas : rc.ripas.endAddr = 0

/-- A REC that runs. -/
structure Rec.Free (rc : Rec) : Prop extends rc.Idle where
  abort : rc.emulatableAbort = .notEmulatableAbort

section Flags

omit [Platform]

variable {rc rc' rc'' : Rec}

theorem Rec.Free.clear (free : rc.Free) : rc.Clear := ⟨free.psci, free.host, free.ripas, free.abort⟩

theorem Rec.SameBesidesContext.sameFlags (same : rc.SameBesidesContext rc') : rc.SameFlags rc' := by
  obtain ⟨_, rfl⟩ := same
  exact ⟨rfl, rfl, rfl, rfl, rfl, rfl, rfl, rfl⟩

namespace Rec.SameFlags

theorem trans (first : rc.SameFlags rc') (second : rc'.SameFlags rc'') : rc.SameFlags rc'' :=
  ⟨second.owner.trans first.owner, second.aux.trans first.aux, second.vcpuid.trans first.vcpuid,
    second.runnable.trans first.runnable, second.psci.trans first.psci, second.host.trans first.host,
    second.ripas.trans first.ripas, second.abort.trans first.abort⟩

protected theorem refl (rc : Rec) : rc.SameFlags rc := ⟨rfl, rfl, rfl, rfl, rfl, rfl, rfl, rfl⟩

theorem setReg {register : Nat} {value : Word} (same : rc.SameFlags rc') :
    rc.SameFlags (rc'.setReg register value) :=
  same.trans (Rec.SameBesidesRegs.setReg rc' register value).besidesContext.sameFlags

theorem foldl_setReg {α : Type} {register : α → Nat} {value : α → Word} {list : List α} (same : rc.SameFlags rc') :
    rc.SameFlags (list.foldl (fun rc x => rc.setReg (register x) (value x)) rc') :=
  same.trans (Rec.SameBesidesRegs.foldl_setReg register value list rc').besidesContext.sameFlags

variable (same : rc.SameFlags rc')
include same

theorem fixed : rc.Fixed rc' := ⟨same.owner, same.aux, same.vcpuid, by rw [same.ripas]; exact id⟩

theorem settled (settled : rc.Settled) : rc'.Settled :=
  ⟨same.psci.trans settled.psci, same.host.trans settled.host, same.runnable.trans settled.runnable⟩

theorem idle (idle : rc.Idle) : rc'.Idle := ⟨same.settled idle.toSettled, by rw [same.ripas]; exact idle.ripas⟩

theorem free (free : rc.Free) : rc'.Free := ⟨same.idle free.toIdle, same.abort.trans free.abort⟩

end Rec.SameFlags

end Flags

theorem RecStep.of_sameFlags {c₀ c : Core} {rc rc' : Rec} (enters : EntersRec cmd r) (settled : rc.Settled) (same : rc.SameFlags rc') :
    RecStep c₀ c cmd r rc rc' [] := by
  refine .work enters ⟨settled.psci, (same.settled settled).psci⟩ (fun pending => ?_) (.inl same.ripas)
    (fun abort => by rw [← same.abort]; exact abort) fun _ => settled.runnable
  rw [(same.settled settled).host] at pending
  exact nomatch pending

/-! ### Working for a REC -/

/-- The command has kept everything, and the REC is still in its granule. -/
structure Left (cmd : Command) (s : Machine) (r : Nat) (t : Machine) : Prop where
  enters : EntersRec cmd r
  kept : Kept s.core cmd s t
  state : t.core.stateOf r = .recCtx

/-- The same, with an active realm as the owner and requests as `P` says, unless a host call was stale. -/
structure InRec (cmd : Command) (s : Machine) (r o : Nat) (P : Rec → Prop) (t : Machine) : Prop
    extends Left cmd s r t where
  owner : (t.core.mem r).asRec.owner = some o
  realm : ∃ rd, t.core.realm? o = some rd ∧ rd.state = .active
  flags : StaleHostCall s.core cmd ∨ P (t.core.mem r).asRec

theorem Left.of_eq (left : Left cmd s r t) (core : u.core = t.core) (trace : u.trace = t.trace)
    (pageTable : u.pageTable = t.pageTable) : Left cmd s r u :=
  ⟨left.enters, left.kept.trans (.of_eq core trace pageTable), by rw [core]; exact left.state⟩

theorem Left.withLocal (left : Left cmd s r t) (held : List Nat) (run : Page) :
    Left cmd s r { t with held := held, run := run } :=
  left.of_eq rfl rfl rfl

namespace InRec

variable (work : InRec cmd s r o P t)
include work

theorem of_eq (core : u.core = t.core) (trace : u.trace = t.trace)
    (pageTable : u.pageTable = t.pageTable) : InRec cmd s r o P u :=
  ⟨work.toLeft.of_eq core trace pageTable, by rw [core]; exact work.owner, by rw [core]; exact work.realm,
    by rw [core]; exact work.flags⟩

theorem withLocal (held : List Nat) (run : Page) : InRec cmd s r o P { t with held := held, run := run } :=
  work.of_eq rfl rfl rfl

theorem mono (weaker : ∀ {rc}, P rc → Q rc) : InRec cmd s r o Q t :=
  ⟨work.toLeft, work.owner, work.realm, work.flags.imp_right weaker⟩

theorem inv (inv : s.core.Inv) : t.core.Inv := work.kept.moves.inv inv

theorem owner_ne (inv : s.core.Inv) (valid : validateAddr r = true) : o ≠ r := by
  obtain ⟨o', owner, other⟩ := ((work.inv inv).recs r valid work.state).owner
  cases work.owner.symm.trans owner
  exact other

/-- The realm or the host writes its own memory. -/
theorem write {x : Nat} (content : Content)
    (free : t.core.stateOf x = .data ∨ t.core.stateOf x = .undelegated) :
    InRec cmd s r o P { t with core := t.core.setContent x content } := by
  have other : r ≠ x := by
    rintro rfl
    rw [work.state] at free
    exact free.elim nofun nofun
  have notRd : t.core.stateOf x ≠ .rd := by
    intro same
    rw [same] at free
    exact free.elim nofun nofun
  have mem : (t.core.setContent x content).mem r = t.core.mem r := Core.mem_setContent_of_ne _ other
  refine ⟨⟨work.enters, work.kept.trans ⟨.single (.write free), .of_eq rfl, .refl _⟩, work.state⟩, ?_, ?_, ?_⟩
  · rw [mem]
    exact work.owner
  · rw [realm?_setContent notRd]
    exact work.realm
  · rw [mem]
    exact work.flags

/-- The REC changes in a way that keeps its owner. -/
theorem setRec {rc' : Rec} (valid : validateAddr r = true) (events : List Event)
    (step : RecStep s.core t.core cmd r (t.core.mem r).asRec rc' events) (fixed : (t.core.mem r).asRec.Fixed rc')
    (flags : StaleHostCall s.core cmd ∨ Q rc') :
    InRec cmd s r o Q { t with core := (t.core.setContent r (.recCtx rc')).emits events } := by
  have notRd : t.core.stateOf r ≠ .rd := by
    rw [work.state]
    exact nofun
  have mem : ((t.core.setContent r (.recCtx rc')).mem r).asRec = rc' := by
    rw [Core.mem_setContent_same, Content.asRec_recCtx]
  refine ⟨⟨work.enters, work.kept.trans ⟨.single (.setRec valid work.state step fixed), .of_eq rfl, .refl _⟩, work.state⟩,
    ?_, ?_, ?_⟩
  · exact (congrArg Rec.owner mem).trans (fixed.owner.trans work.owner)
  · obtain ⟨rd, realm, active⟩ := work.realm
    exact ⟨rd, (realm?_setContent notRd o).trans realm, active⟩
  · exact flags.imp_right fun holds => (congrArg Q mem).mpr holds

/-- The REC changes, but not its requests. -/
theorem sameFlags {rc' : Rec} (valid : validateAddr r = true) (settled : ∀ {rc}, P rc → rc.Settled)
    (same : (t.core.mem r).asRec.SameFlags rc') (kept : P (t.core.mem r).asRec → P rc') :
    InRec cmd s r o P { t with core := t.core.setContent r (.recCtx rc') } := by
  refine work.setRec valid [] ?_ same.fixed (work.flags.imp_right kept)
  rcases work.flags with stale | holds
  · exact .stale work.enters stale
  · exact .of_sameFlags work.enters (settled holds) same

end InRec

/-- A service returned; a REC that goes back to the realm has no request. -/
def Answered (cmd : Command) (s : Machine) (r o ret : Nat) (t : Machine) : Prop :=
  Left cmd s r t ∧ (ret = Rsi.rmiSuccessRecEnter → InRec cmd s r o Rec.Free t)

/-- A service stopped; with an error it has made no request. -/
def Refused (cmd : Command) (s : Machine) (r o : Nat) (halt : Halt) (t : Machine) : Prop :=
  match halt with
  | .error _ => InRec cmd s r o Rec.Free t
  | .deadlock => False
  | _ => LegalSince s t

theorem InRec.refused {halt : Halt} (work : InRec cmd s r o Rec.Free t) (free : halt ≠ .deadlock) :
    Refused cmd s r o halt t := by
  cases halt with
  | error e => exact work
  | panic => exact work.kept.legal
  | deadlock => exact absurd rfl free
  | diverge => exact work.kept.legal

theorem InRec.answered {ret : Nat} (work : InRec cmd s r o Rec.Free t) : Answered cmd s r o ret t :=
  ⟨work.toLeft, fun _ => work⟩

/-- The REC leaves to the host. -/
theorem Left.answered {ret : Nat} (left : Left cmd s r t) (leaves : ret ≠ Rsi.rmiSuccessRecEnter) :
    Answered cmd s r o ret t := ⟨left, fun stays => absurd stays leaves⟩

/-- Lock the owner's descriptor. -/
theorem wp_ownerRd {ok : Nat × Rd → Machine → Prop} (owner : (s.core.mem r).asRec.owner = some o)
    (valid : validateAddr r = true) (other : o ≠ r) (held : s.held = [granuleAddrToIndex r])
    (bad : s.core.realm? o = none → err' (.error .rmiErrorInput) s)
    (good : ∀ rd, s.core.realm? o = some rd →
      ok (granuleAddrToIndex o, rd) { s with held := [granuleAddrToIndex o, granuleAddrToIndex r] }) :
    wp (Rsi.ownerRd (granuleAddrToIndex r)) ok err' s := by
  unfold Rsi.ownerRd
  rw [wp_bind, wp_contentRec, indexToAddr_granuleAddrToIndex valid, wp_bind]
  refine wp_recOwner owner (wp_lockRd (fun none _ => bad none) (fun validO locked => ?_) fun rd realm _ => ?_)
  · rw [held] at locked
    exact absurd locked (free_of_ne valid validO other)
  · rw [held]
    exact good rd realm

omit [Platform] in
@[simp] theorem wp_modifyRun {f : Page → Page} {ok : Unit → Machine → Prop} :
    wp (modifyRun f) ok err' s ↔ ok () { s with run := f s.run } := Iff.rfl

section Services

variable (work : InRec cmd s r o Rec.Free t) (inv : s.core.Inv) (valid : validateAddr r = true)
include work inv valid

omit inv in
theorem InRec.setRegs {rc' : Rec} (same : (t.core.mem r).asRec.SameFlags rc') :
    InRec cmd s r o Rec.Free { t with core := t.core.setContent r (.recCtx rc') } :=
  work.sameFlags valid (fun free => free.toSettled) same same.free

omit inv in
theorem wp_setRegs {f : Rec → Rec} {ok : Unit → Machine → Prop} (same : ∀ rc : Rec, rc.SameFlags (f rc))
    (next : ∀ u, InRec cmd s r o Rec.Free u → ok () u) :
    wp (modifyRec (granuleAddrToIndex r) f) ok err' t := by
  rw [wp_modifyRec valid]
  exact next _ (work.setRegs valid (same _))

omit inv in
theorem wp_answer {code : Word} :
    wp (Rsi.answer (granuleAddrToIndex r) code) (Answered cmd s r o) (Refused cmd s r o) t := by
  unfold Rsi.answer
  rw [wp_bind]
  exact wp_setRegs work valid (fun _ => .setReg (.refl _)) fun _ work => work.answered

/-- Services that look at the owner's descriptor. -/
theorem wp_withOwner {α : Type} {f : Nat × Rd → RmmM α} {ok : α → Machine → Prop}
    (held : t.held = [granuleAddrToIndex r])
    (body : ∀ rd u, t.core.realm? o = some rd → rd.state = .active → u.core = t.core →
      InRec cmd s r o Rec.Free u → u.held = [granuleAddrToIndex o, granuleAddrToIndex r] →
      wp (f (granuleAddrToIndex o, rd)) ok (Refused cmd s r o) u) :
    wp (Rsi.ownerRd (granuleAddrToIndex r) >>= f) ok (Refused cmd s r o) t := by
  rw [wp_bind]
  obtain ⟨rd, realm, active⟩ := work.realm
  refine wp_ownerRd work.owner valid (work.owner_ne inv valid) held (fun none => ?_) fun rd' found => ?_
  · rw [none] at realm
    exact nomatch realm
  · cases realm.symm.trans found
    exact body rd _ realm active rfl (work.of_eq rfl rfl rfl) rfl

omit inv in
/-- The REC makes a request, and then leaves to the host. -/
theorem wp_ask {f : Rec → Rec} {ok : Unit → Machine → Prop}
    (step : ∀ rc : Rec, rc.Free → RecStep s.core t.core cmd r rc (f rc) [])
    (fixed : ∀ rc : Rec, rc.Fixed (f rc)) (next : ∀ u, Left cmd s r u → ok () u) :
    wp (modifyRec (granuleAddrToIndex r) f) ok err' t := by
  rw [wp_modifyRec valid]
  refine next _ (work.setRec valid (Q := fun _ => True) [] ?_ (fixed _) (.inr trivial)).toLeft
  rcases work.flags with stale | free
  · exact .stale work.enters stale
  · exact step _ free

/-! ### Attestation, version, measurements and configuration -/

omit inv in
theorem Rsi.attestTokenInit_spec :
    wp (Rsi.attestTokenInit (granuleAddrToIndex r)) (Answered cmd s r o) (Refused cmd s r o) t := by
  unfold Rsi.attestTokenInit
  rw [wp_bind]
  exact wp_setRegs work valid (fun _ => .setReg (.setReg ⟨rfl, rfl, rfl, rfl, rfl, rfl, rfl, rfl⟩))
    fun _ work => work.answered

omit inv in
theorem wp_getTokenPart {size : Nat} {ok : List Byte × Nat → Machine → Prop}
    (next : ∀ part left u, InRec cmd s r o Rec.Free u → (∀ x, u.core.stateOf x = t.core.stateOf x) →
      ok (part, left) u) :
    wp (Rsi.getTokenPart rd (granuleAddrToIndex r) size) ok (Refused cmd s r o) t := by
  unfold Rsi.getTokenPart
  rw [wp_bind, wp_contentRec, wp_bind]
  refine wp_orPanic (fun _ => work.refused nofun) fun token _ => ?_
  refine wp_if (fun _ => work.kept.legal) fun _ => ?_
  rw [wp_bind, wp_modifyRec valid, wp_pure]
  exact next _ _ _ (work.setRegs valid ⟨rfl, rfl, rfl, rfl, rfl, rfl, rfl, rfl⟩) fun _ => rfl

theorem Rsi.attestTokenContinue_spec (held : t.held = [granuleAddrToIndex r]) :
    wp (Rsi.attestTokenContinue (granuleAddrToIndex r)) (Answered cmd s r o) (Refused cmd s r o) t := by
  unfold Rsi.attestTokenContinue
  refine wp_withOwner work inv valid held fun rd u realm active core work _ => ?_
  rw [← core] at realm
  dsimp only
  rw [wp_bind, wp_contentRec]
  refine wp_if (fun _ => wp_answer work valid) fun _ => wp_if (fun _ => wp_answer work valid) fun accepted => ?_
  have inPar : rd.addrInPar ((u.core.mem (indexToAddr (granuleAddrToIndex r))).asRec.getReg 1).toNat = true := by
    simp only [validateIpa, Bool.not_eq_true', Bool.not_eq_false, Bool.and_eq_true] at accepted
    exact accepted.1.2
  rw [wp_bind]
  refine wp_ipaToPa realm (work.inv inv) inPar (fun _ => ?_) fun pa _ isData => ?_
  · rw [wp_bind]
    exact work
  rw [wp_bind, orInput, wp_pure]
  refine wp_if (fun _ => wp_answer work valid) fun _ => ?_
  rw [wp_bind]
  refine wp_getTokenPart work valid fun part left v work states => ?_
  dsimp only
  rw [wp_bind, wp_contentPage, wp_bind, wp_setPage]
  have work := fun content => work.write (x := pa) content (.inl (by rw [states]; exact isData))
  refine wp_if (fun _ => ?_) fun _ => ?_
  · rw [wp_bind]
    refine wp_setRegs (work _) valid (fun rc => ?_) fun _ work => ?_
    · have same : rc.SameFlags (rc.setReg 0 Rsi.success) := .setReg (.refl rc)
      exact ⟨same.owner, same.aux, same.vcpuid, same.runnable, same.psci, same.host, same.ripas, same.abort⟩
    rw [wp_bind]
    exact wp_setRegs work valid (fun _ => .setReg (.refl _)) fun _ work => work.answered
  · rw [wp_bind]
    refine wp_setRegs (work _) valid (fun _ => .setReg (.refl _)) fun _ work => ?_
    rw [wp_bind]
    exact wp_setRegs work valid (fun _ => .setReg (.refl _)) fun _ work => work.answered

omit inv in
theorem Rsi.features_spec :
    wp (Rsi.features (granuleAddrToIndex r)) (Answered cmd s r o) (Refused cmd s r o) t := by
  unfold Rsi.features
  rw [wp_bind]
  exact wp_setRegs work valid (fun _ => .setReg (.setReg (.refl _))) fun _ work => work.answered

omit inv in
theorem Rsi.abiVersion_spec :
    wp (Rsi.abiVersion (granuleAddrToIndex r)) (Answered cmd s r o) (Refused cmd s r o) t := by
  unfold Rsi.abiVersion
  rw [wp_bind, wp_contentRec]
  refine wp_if (fun _ => wp_answer work valid) fun _ => ?_
  dsimp only
  rw [wp_bind]
  exact wp_setRegs work valid (fun _ => .setReg (.setReg (.setReg (.refl _)))) fun _ work => work.answered

theorem Rsi.measurementRead_spec (held : t.held = [granuleAddrToIndex r]) :
    wp (Rsi.measurementRead (granuleAddrToIndex r)) (Answered cmd s r o) (Refused cmd s r o) t := by
  unfold Rsi.measurementRead
  refine wp_withOwner work inv valid held fun rd u _ _ _ work _ => ?_
  dsimp only
  rw [wp_bind, wp_contentRec]
  refine wp_if (fun _ => wp_answer work valid) fun _ => ?_
  rw [wp_bind]
  exact wp_setRegs work valid (fun _ => .foldl_setReg (.setReg (.refl _))) fun _ work => work.answered

omit valid in
/-- The owner's descriptor changes. -/
theorem InRec.setRd {rd' : Rd} {events : List Event} (realm : t.core.realm? o = some rd)
    (step : RdStep t.core cmd o rd rd' events) (valid : validateAddr r = true) :
    Left cmd s r { t with core := (t.core.setContent o (.rd rd')).emits events } ∧ (rd'.state = .active →
      InRec cmd s r o Rec.Free { t with core := (t.core.setContent o (.rd rd')).emits events }) := by
  have other := work.owner_ne inv valid
  have mem : ((t.core.setContent o (.rd rd')).emits events).mem r = t.core.mem r :=
    Core.mem_setContent_of_ne _ (Ne.symm other)
  have left : Left cmd s r { t with core := (t.core.setContent o (.rd rd')).emits events } :=
    ⟨work.enters, work.kept.trans ⟨.single (.setRd realm step), .of_eq rfl, .refl _⟩, work.state⟩
  refine ⟨left, fun active => ⟨left, ?_, ⟨rd', ?_, active⟩, ?_⟩⟩
  · rw [mem]
    exact work.owner
  · exact (realm?_setRd realm rd' o).trans (if_pos rfl)
  · rw [mem]
    exact work.flags

theorem Rsi.measurementExtend_spec (held : t.held = [granuleAddrToIndex r]) :
    wp (Rsi.measurementExtend (granuleAddrToIndex r)) (Answered cmd s r o) (Refused cmd s r o) t := by
  unfold Rsi.measurementExtend
  refine wp_withOwner work inv valid held fun rd u realm active core work _ => ?_
  rw [← core] at realm
  obtain ⟨validO, _, _⟩ := Core.realm?_eq_some.mp realm
  dsimp only
  rw [wp_bind, wp_contentRec]
  refine wp_if (fun _ => wp_answer work valid) fun fine => ?_
  generalize (List.flatMap _ _).take _ = buffer
  generalize ((Content.asRec _).getReg 1).toNat = index at fine ⊢
  have inside : index < measurementsSlotNr := by omega
  have other : (⟨index, inside⟩ : Fin measurementsSlotNr) ≠ 0 := by
    intro same
    exact fine (.inr (.inl (congrArg Fin.val same)))
  rw [wp_bind, HashContext.extendMeasurement_ok ((work.inv inv).realms.hash realm) buffer inside]
  refine wp_ofExcept nofun fun measured run => ?_
  cases run
  rw [wp_bind, wp_setRd, indexToAddr_granuleAddrToIndex validO, wp_bind, wp_emit]
  exact wp_answer ((work.setRd inv realm (.extend ⟨index, inside⟩ buffer active other) valid).2 active) valid

theorem Rsi.realmConfig_spec (held : t.held = [granuleAddrToIndex r]) :
    wp (Rsi.realmConfig (granuleAddrToIndex r)) (Answered cmd s r o) (Refused cmd s r o) t := by
  unfold Rsi.realmConfig
  rw [wp_bind, wp_contentRec, wp_bind, indexToAddr_granuleAddrToIndex valid]
  refine wp_recOwner work.owner ?_
  rw [wp_bind, wp_getCore]
  refine wp_withOwner work inv valid held fun rd u realm active core work _ => ?_
  rw [← core] at realm
  refine wp_if (fun _ => wp_answer work valid) fun accepted => ?_
  have inPar : rd.addrInPar ((t.core.mem r).asRec.getReg 1).toNat = true := by
    simp only [validateIpa, Bool.not_eq_true', Bool.not_eq_false, Bool.and_eq_true] at accepted
    exact accepted.1.2
  rw [wp_bind]
  refine wp_ipaToPa realm (work.inv inv) inPar (fun _ => ?_) fun pa _ isData => ?_
  · rw [wp_bind]
    exact work
  rw [wp_bind, orInput, wp_pure, wp_bind, wp_contentPage, wp_bind, wp_setPage]
  exact wp_answer (work.write _ (.inl isData)) valid

/-! ### RIPAS -/

theorem Rsi.getRipasState_spec (held : t.held = [granuleAddrToIndex r]) :
    wp (Rsi.getRipasState (granuleAddrToIndex r)) (Answered cmd s r o) (Refused cmd s r o) t := by
  unfold Rsi.getRipasState
  refine wp_withOwner work inv valid held fun rd u _ _ _ work _ => ?_
  dsimp only
  rw [wp_bind, wp_contentRec]
  refine wp_if (fun _ => wp_answer work valid) fun _ => ?_
  rw [wp_bind]
  refine (Quiet.getRipas rd _ _).wp (fun ripas => ?_) fun halt free => work.refused free
  rw [wp_bind]
  exact wp_setRegs work valid (fun _ => .setReg (.setReg (.refl _))) fun _ work => work.answered

theorem Rsi.setRipasState_spec (held : t.held = [granuleAddrToIndex r]) :
    wp (Rsi.setRipasState (granuleAddrToIndex r)) (Answered cmd s r o) (Refused cmd s r o) t := by
  unfold Rsi.setRipasState
  rw [wp_bind, wp_contentRec, indexToAddr_granuleAddrToIndex valid]
  refine wp_if (fun _ => wp_answer work valid) fun ordered => ?_
  refine wp_withOwner work inv valid held fun rd u _ _ core work _ => ?_
  refine wp_if (fun _ => wp_answer work valid) fun accepted => ?_
  rw [wp_bind, wp_modifyRun, wp_bind]
  refine wp_ask (work.withLocal _ _) valid (fun rc free => .askRipas work.enters free.clear (Nat.not_le.mp ordered))
    (fun rc => ⟨rfl, rfl, rfl, fun _ => ?_⟩) fun _ left => ?_
  · simp only [not_or, Bool.not_eq_true, Bool.not_eq_false', Rsi.isRipasValid, Bool.or_eq_true, beq_iff_eq] at accepted
    change ((t.core.mem r).asRec.getReg 3).toNat % 256 ≤ 1
    omega
  · rw [wp_pure]
    exact left.answered nofun

/-! ### Sealing keys -/

omit work valid inv in
theorem wp_metadataMaterial {m : Nat} {flags svn : Word} {ok : List Byte × List Byte × Word → Machine → Prop}
    (free : granuleAddrToIndex m ∉ t.held)
    (bad : ∀ e, err' (.error e) t) (good : ∀ material, ok material t) :
    wp (inScope (Rsi.metadataMaterial m flags svn)) ok err' t := by
  refine wp_inScope ?_
  unfold Rsi.metadataMaterial
  rw [wp_bind]
  refine wp_getGranuleIf (fun _ _ => bad _) (fun _ locked => absurd locked free) fun _ _ _ => ?_
  rw [wp_bind, wp_contentPage, wp_bind]
  exact wp_errIf (fun _ => bad _) fun _ => good _

omit work valid inv in
/-- Key material is only read. -/
theorem wp_realmSealingKey {flags svn : Word} {ok : (Nat → Word) → Machine → Prop}
    (free : ∀ m, rd.metadata = some m → granuleAddrToIndex m ∉ t.held)
    (bad : ∀ e, err' (.error e) t) (good : ∀ key, ok key t) :
    wp (Rsi.realmSealingKey rd flags svn) ok err' t := by
  unfold Rsi.realmSealingKey
  refine wp_inScope ?_
  dsimp only
  split
  · rename_i m has
    rw [wp_bind]
    exact wp_metadataMaterial (free m has) bad fun _ => wp_orInput (fun _ => bad _) fun key _ => good key
  · rw [wp_bind, wp_pure]
    exact wp_orInput (fun _ => bad _) fun key _ => good key

theorem Rsi.isletRealmSealingKey_spec (held : t.held = [granuleAddrToIndex r]) :
    wp (Rsi.isletRealmSealingKey (granuleAddrToIndex r)) (Answered cmd s r o) (Refused cmd s r o) t := by
  unfold Rsi.isletRealmSealingKey
  rw [wp_bind, wp_contentRec]
  refine wp_withOwner work inv valid held fun rd u realm _ core work locked => ?_
  rw [← core] at realm
  dsimp only
  rw [wp_bind]
  refine wp_result (wp_realmSealingKey (fun m has => ?_) (fun _ => wp_answer work valid) fun key => ?_)
  · obtain ⟨validM, state, other⟩ := (work.inv inv).metadata_ne realm has
    have notRec : m ≠ r := by
      rintro rfl
      rw [work.state] at state
      exact nomatch state
    rw [locked, List.mem_cons, List.mem_singleton, granuleAddrToIndex_inj validM valid,
      granuleAddrToIndex_inj validM (Core.realm?_eq_some.mp realm).1, not_or]
    exact ⟨other, notRec⟩
  · rw [wp_bind]
    exact wp_setRegs work valid (fun _ => .foldl_setReg (.refl _)) fun _ work => wp_answer work valid

/-! ### PSCI -/

omit work valid inv [Platform] in
theorem wp_exitToHost {command : Nat} {arg : Option Word} {ok : Nat → Machine → Prop}
    (next : ∀ run, ok Rsi.rmiSuccess { t with run := run }) : wp (Rsi.exitToHost command arg) ok err' t := by
  unfold Rsi.exitToHost
  rw [wp_bind, wp_modifyRun, wp_pure]
  exact next _

theorem Rsi.psciCpuOn_spec (held : t.held = [granuleAddrToIndex r]) :
    wp (Rsi.psciCpuOn (granuleAddrToIndex r)) (Answered cmd s r o) (Refused cmd s r o) t := by
  unfold Rsi.psciCpuOn
  refine wp_withOwner work inv valid held fun rd u realm active core work _ => ?_
  rw [← core] at realm
  dsimp only
  rw [wp_bind, wp_contentRec, indexToAddr_granuleAddrToIndex valid]
  refine wp_if (fun _ => wp_answer work valid) fun entry => wp_if (fun _ => wp_answer work valid) fun index =>
    wp_if (fun _ => wp_answer work valid) fun other => ?_
  rw [wp_bind, wp_modifyRec valid, wp_bind, wp_emit]
  refine wp_exitToHost fun run => Left.answered ?_ nofun
  have step : RecStep s.core u.core cmd r (u.core.mem r).asRec { (u.core.mem r).asRec with psciPending := true } _ :=
    .askCpuOn work.enters (work.flags.imp_right fun free => ⟨free.clear, free.runnable⟩) work.owner realm
      (by simpa using entry) (Nat.not_le.mp index) other
  exact (work.setRec valid (Q := fun _ => True) _ step ⟨rfl, rfl, rfl, id⟩ (.inr trivial)).toLeft.withLocal _ run

omit inv in
theorem Rsi.psciCpuOff_spec :
    wp (Rsi.psciCpuOff (granuleAddrToIndex r)) (Answered cmd s r o) (Refused cmd s r o) t := by
  unfold Rsi.psciCpuOff
  rw [wp_bind]
  refine wp_ask work valid (fun rc free => ?_) (fun rc => ⟨rfl, rfl, rfl, id⟩) fun u left =>
    wp_exitToHost fun run => (left.withLocal _ run).answered nofun
  refine .work work.enters ⟨free.psci, free.psci⟩ (fun pending => ?_) (.inl rfl) id nofun
  rw [show (rc.setRunnable 0).hostCallPending = rc.hostCallPending from rfl, free.host] at pending
  exact nomatch pending

theorem Rsi.psciSystemOff_spec {command : Nat} (held : t.held = [granuleAddrToIndex r]) :
    wp (Rsi.psciSystemOff command (granuleAddrToIndex r)) (Answered cmd s r o) (Refused cmd s r o) t := by
  unfold Rsi.psciSystemOff
  refine wp_withOwner work inv valid held fun rd u realm active core work _ => ?_
  rw [← core] at realm
  obtain ⟨validO, _, _⟩ := Core.realm?_eq_some.mp realm
  dsimp only
  rw [wp_bind, wp_setRd, indexToAddr_granuleAddrToIndex validO]
  refine wp_exitToHost fun run => Left.answered ?_ nofun
  exact (work.setRd inv realm (.off active) valid).1.withLocal _ run

omit inv in
theorem Rsi.psciAffinityInfo_spec (asks : ((t.core.mem r).asRec.getReg 0).toNat = Rsi.psciAffinityInfoCmd)
    (calls : cmd.Calls (t.core.mem r).asRec.getReg) :
    wp (Rsi.psciAffinityInfo (granuleAddrToIndex r)) (Answered cmd s r o) (Refused cmd s r o) t := by
  unfold Rsi.psciAffinityInfo
  rw [wp_bind, wp_contentRec, indexToAddr_granuleAddrToIndex valid]
  refine wp_if (fun _ => wp_answer work valid) fun _ => wp_if (fun _ => wp_answer work valid) fun other => ?_
  rw [wp_bind, wp_modifyRec valid]
  refine wp_exitToHost fun run => Left.answered ?_ nofun
  have step : RecStep s.core t.core cmd r (t.core.mem r).asRec { (t.core.mem r).asRec with psciPending := true } [] := by
    rcases work.flags with stale | free
    · exact .stale work.enters stale
    · exact .askAffinityInfo work.enters free.clear free.runnable asks calls other
  exact (work.setRec valid (Q := fun _ => True) _ step ⟨rfl, rfl, rfl, id⟩ (.inr trivial)).toLeft.withLocal _ run

omit inv in
theorem Rsi.psciFeatures_spec :
    wp (Rsi.psciFeatures (granuleAddrToIndex r)) (Answered cmd s r o) (Refused cmd s r o) t := by
  unfold Rsi.psciFeatures
  rw [wp_bind, wp_contentRec]
  exact wp_answer work valid

end Services

/-! ### Host calls -/

/-- What a host call does: it is refused, it brings the answer of the host, or it asks the host. -/
theorem wp_doHostCall {ok : Nat → Machine → Prop} (work : InRec cmd s r o P t) (inv : s.core.Inv)
    (valid : validateAddr r = true) (held : t.held = [granuleAddrToIndex r])
    (bad : ∀ rd, t.core.realm? o = some rd → ¬HostCallIpa rd ((t.core.mem r).asRec.getReg 1).toNat →
      ok Rsi.rmiSuccessRecEnter { t with
        core := t.core.setContent r (.recCtx ((t.core.mem r).asRec.setReg 0 Rsi.errorInput)) })
    (stop : ∀ rd, t.core.realm? o = some rd → HostCallIpa rd ((t.core.mem r).asRec.getReg 1).toNat →
      t.core.ipaToPa? rd ((t.core.mem r).asRec.getReg 1).toNat = none → err' (.error .rmiErrorInput) t)
    (store : ∀ rd pa, t.core.realm? o = some rd → HostCallIpa rd ((t.core.mem r).asRec.getReg 1).toNat →
      t.core.ipaToPa? rd ((t.core.mem r).asRec.getReg 1).toNat = some pa → t.core.stateOf pa = .data →
      (t.core.mem r).asRec.hostCallPending = true → ok Rsi.rmiSuccess { t with
        core := (t.core.setContent pa (.raw (Rsi.storeHostCall (t.core.mem pa).words t.run))).setContent r
          (.recCtx { (t.core.mem r).asRec.setReg 0 Rsi.success with hostCallPending := false }) })
    (load : ∀ rd pa, t.core.realm? o = some rd → HostCallIpa rd ((t.core.mem r).asRec.getReg 1).toNat →
      t.core.ipaToPa? rd ((t.core.mem r).asRec.getReg 1).toNat = some pa →
      (t.core.mem r).asRec.hostCallPending = false → ok Rsi.rmiSuccess { t with
        run := Run.setExitReason (Run.setImm (Rsi.loadHostCall (t.core.mem pa).words t.run)
          ((t.core.mem pa).words 0 &&& 0xffff)) Rsi.exitHostCall
        core := t.core.setContent r (.recCtx { (t.core.mem r).asRec with hostCallPending := true }) }) :
    wp (Rsi.doHostCall (granuleAddrToIndex r)) ok err' t := by
  unfold Rsi.doHostCall
  refine wp_inScope ?_
  rw [wp_bind]
  refine wp_ownerRd work.owner valid (work.owner_ne inv valid) held (fun none => ?_) fun rd realm => ?_
  · obtain ⟨_, realm, _⟩ := work.realm
    cases none.symm.trans realm
  dsimp only
  rw [wp_bind, wp_contentRec, indexToAddr_granuleAddrToIndex valid]
  refine wp_if (fun refused => ?_) fun accepted => ?_
  · unfold Rsi.answer
    rw [wp_bind, wp_modifyRec valid, wp_pure]
    refine bad rd realm fun fine => ?_
    obtain ⟨aligned, one, inPar⟩ := fine
    rcases refused with misaligned | crosses | outside
    · exact misaligned aligned
    · exact crosses one
    · rw [inPar] at outside
      cases outside
  have fine : HostCallIpa rd ((t.core.mem r).asRec.getReg 1).toNat := by
    simp only [not_or, not_not, Bool.not_eq_true, Bool.not_eq_false'] at accepted
    exact accepted
  rw [wp_bind]
  refine wp_ipaToPa (a := o) realm (work.inv inv) fine.2.2 (fun unmapped => ?_) fun pa mapped isData => ?_
  · rw [wp_bind]
    exact stop rd realm fine unmapped
  rw [wp_bind, orInput, wp_pure, wp_bind, wp_contentPage, wp_bind]
  change wp (if (t.core.mem r).asRec.hostCallPending = true then _ else _) _ _ _
  refine wp_if (fun pending => ?_) fun idle => ?_
  · have other : r ≠ pa := by
      rintro rfl
      have state : t.core.stateOf r = .data := isData
      rw [work.state] at state
      cases state
    rw [wp_bind, wp_setPage, wp_bind, wp_modifyRec valid, wp_pure, Core.mem_setContent_of_ne _ other]
    exact store rd pa realm fine mapped isData pending
  · rw [wp_bind, wp_modifyRun, wp_bind, wp_modifyRec valid, wp_pure]
    exact load rd pa realm fine mapped (by simpa using idle)

section Dispatch

variable (work : InRec cmd s r o Rec.Free t) (inv : s.core.Inv) (valid : validateAddr r = true)
  (held : t.held = [granuleAddrToIndex r])
include work inv valid held

theorem Rsi.doHostCall_spec :
    wp (Rsi.doHostCall (granuleAddrToIndex r)) (Answered cmd s r o) (Refused cmd s r o) t := by
  refine wp_doHostCall work inv valid held (fun _ _ _ => (work.setRegs valid (.setReg (.refl _))).answered)
    (fun _ _ _ _ => work) (fun rd pa realm fine _ isData pending => ?_) fun rd pa realm fine _ idle => ?_
  · have stale : StaleHostCall s.core cmd := by
      refine work.flags.resolve_right fun free => ?_
      rw [free.host] at pending
      exact nomatch pending
    have other : r ≠ pa := by
      rintro rfl
      rw [work.state] at isData
      exact nomatch isData
    refine Left.answered ((work.write (.raw _) (.inl isData)).setRec valid (Q := fun _ => True) []
      (.stale work.enters stale) ?_ (.inl stale)).toLeft nofun
    have same : (t.core.mem r).asRec.SameFlags ((t.core.mem r).asRec.setReg 0 Rsi.success) := .setReg (.refl _)
    change (((t.core.setContent pa (.raw _)).mem r).asRec).Fixed _
    rw [Core.mem_setContent_of_ne _ other]
    exact ⟨same.owner, same.aux, same.vcpuid, same.fixed.ripas⟩
  · have step : RecStep s.core t.core cmd r (t.core.mem r).asRec
        { (t.core.mem r).asRec with hostCallPending := true } [] := by
      rcases work.flags with stale | free
      · exact .stale work.enters stale
      · exact .askHost work.enters free.clear work.owner realm fine
    exact Left.answered ((work.setRec valid (Q := fun _ => True) _ step ⟨rfl, rfl, rfl, id⟩ (.inr trivial)).toLeft.withLocal _ _)
      nofun

omit work inv valid held [Platform] in
/-- One entry of a chain of alternatives. -/
theorem some_of_ite {α : Type} {c : Prop} [Decidable c] {a b : α} {rest : Option α}
    (found : (if c then some a else rest) = some b) : c ∧ a = b ∨ rest = some b := by
  by_cases holds : c
  · rw [if_pos holds, Option.some_inj] at found
    exact .inl ⟨holds, found⟩
  · rw [if_neg holds] at found
    exact .inr found

theorem Rsi.handler_spec {command : Nat} {handler : RmmM Nat}
    (asks : command = ((t.core.mem r).asRec.getReg 0).toNat) (calls : cmd.Calls (t.core.mem r).asRec.getReg)
    (found : Rsi.handler? command (granuleAddrToIndex r) = some handler) :
    wp handler (Answered cmd s r o) (Refused cmd s r o) t := by
  unfold Rsi.handler? at found
  obtain ⟨_, rfl⟩ | found := some_of_ite found
  · exact Rsi.abiVersion_spec work valid
  obtain ⟨_, rfl⟩ | found := some_of_ite found
  · exact Rsi.features_spec work valid
  obtain ⟨_, rfl⟩ | found := some_of_ite found
  · exact Rsi.measurementRead_spec work inv valid held
  obtain ⟨_, rfl⟩ | found := some_of_ite found
  · exact Rsi.measurementExtend_spec work inv valid held
  obtain ⟨_, rfl⟩ | found := some_of_ite found
  · exact Rsi.attestTokenInit_spec work valid
  obtain ⟨_, rfl⟩ | found := some_of_ite found
  · exact Rsi.attestTokenContinue_spec work inv valid held
  obtain ⟨_, rfl⟩ | found := some_of_ite found
  · exact Rsi.realmConfig_spec work inv valid held
  obtain ⟨_, rfl⟩ | found := some_of_ite found
  · exact Rsi.setRipasState_spec work inv valid held
  obtain ⟨_, rfl⟩ | found := some_of_ite found
  · exact Rsi.getRipasState_spec work inv valid held
  obtain ⟨_, rfl⟩ | found := some_of_ite found
  · exact Rsi.doHostCall_spec work inv valid held
  obtain ⟨_, rfl⟩ | found := some_of_ite found
  · exact Rsi.isletRealmSealingKey_spec work inv valid held
  obtain ⟨_, rfl⟩ | found := some_of_ite found
  · exact wp_answer work valid
  obtain ⟨_, rfl⟩ | found := some_of_ite found
  · exact wp_exitToHost fun run => (work.toLeft.withLocal _ run).answered nofun
  obtain ⟨_, rfl⟩ | found := some_of_ite found
  · exact Rsi.psciCpuOff_spec work valid
  obtain ⟨_, rfl⟩ | found := some_of_ite found
  · exact Rsi.psciCpuOn_spec work inv valid held
  obtain ⟨isInfo, rfl⟩ | found := some_of_ite found
  · exact Rsi.psciAffinityInfo_spec work valid (asks.symm.trans isInfo) calls
  obtain ⟨_, rfl⟩ | found := some_of_ite found
  · exact Rsi.psciSystemOff_spec work inv valid held
  obtain ⟨_, rfl⟩ | found := some_of_ite found
  · exact Rsi.psciSystemOff_spec work inv valid held
  obtain ⟨_, rfl⟩ | found := some_of_ite found
  · exact Rsi.psciFeatures_spec work valid
  obtain ⟨_, rfl⟩ | found := some_of_ite found
  · exact wp_answer work valid
  exact nomatch found

/-- Every service keeps what the monitor relies on while it works for a REC. -/
theorem Rsi.handleRsi_spec {command : Nat} (asks : command = ((t.core.mem r).asRec.getReg 0).toNat)
    (calls : cmd.Calls (t.core.mem r).asRec.getReg) :
    wp (Rsi.handleRsi command (granuleAddrToIndex r))
      (fun ret u => Left cmd s r u ∧ u.held = t.held ∧
        (ret = none ∨ ret = some Rsi.rmiSuccessRecEnter → InRec cmd s r o Rec.Free u))
      (fun halt u => halt ≠ .deadlock ∧ (∀ e, halt ≠ .error e) ∧ LegalSince s u) t := by
  unfold Rsi.handleRsi
  split
  · rw [wp_bind, wp_modifyRec valid, wp_pure]
    have work := work.setRegs valid (show (t.core.mem r).asRec.SameFlags ((t.core.mem r).asRec.setReg 0 Rsi.psciNotSupported) from .setReg (.refl _))
    exact ⟨work.toLeft, rfl, fun _ => work⟩
  · rename_i handler found
    rw [wp_bind]
    refine wp_result (wp_inScope (wp_mono (Rsi.handler_spec work inv valid held asks calls found) ?_ ?_))
    · rintro ret u ⟨left, stays⟩
      refine ⟨left.of_eq rfl rfl rfl, rfl, fun resumed => (stays ?_).of_eq rfl rfl rfl⟩
      simpa using resumed
    · intro halt u refused
      cases halt with
      | error e =>
        have work : InRec cmd s r o Rec.Free u := refused
        exact ⟨work.toLeft.of_eq rfl rfl rfl, rfl, fun _ => work.of_eq rfl rfl rfl⟩
      | panic => exact ⟨nofun, nofun, refused⟩
      | deadlock => exact absurd refused id
      | diverge => exact ⟨nofun, nofun, refused⟩

end Dispatch

end Islet.Rmm
