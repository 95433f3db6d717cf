import Islet.Rmm.Runs

/-! Commands that are ready succeed, and what long runs can therefore reach: a stock of
delegated granules, and from it more RECs and tables than a run can be evaluated with.
These are the states in which the limits of the monitor show. -/

namespace Islet.Rmm

open Lib Prog Bits Rmi Stage2Translation

variable [Platform] {s t : Machine} {cmd : Command} {a : Nat}

/-! ### Success -/

/-- A command whose specification leaves no way to stop early succeeds. -/
theorem Machine.succeeds_of_wp (s : Machine) (cmd : Command) {ok : Unit → Machine → Prop} {err' : Halt → Machine → Prop}
    (spec : wp cmd.handler ok err' s.start) (never : ∀ halt t, ¬err' halt t) :
    ∃ t, s.Succeeds cmd t ∧ ok () t := by
  cases last : cmd.handler.run s.start with
  | mk outcome t =>
    cases outcome with
    | ok => exact ⟨t, last, wp_ok spec last⟩
    | error halt => exact absurd (wp_error spec last) (never halt t)

theorem Machine.Reachable.succeeds (reached : s.Reachable) (done : s.Succeeds cmd t) : t.Reachable :=
  .step reached (.command cmd done.exec)

theorem Machine.Reachable.hostWrite (reached : s.Reachable) {x : Nat} (has : s.core.Has x .undelegated) (page : Page) :
    (s.hostWrite x page).Reachable :=
  .step reached (.hostWrite x page has.1 ((reached.inv.gpt x has.1).mp has.2))

theorem Machine.delegates {addr : Word} (ready : ReadyToDelegate s.core addr.toNat) :
    ∃ t, s.Succeeds (.granuleDelegate addr) t ∧ t.core = delegatedCore s.core addr.toNat := by
  have hands : Command.HandsOver (.granuleDelegate addr) := trivial
  obtain ⟨t, done, post⟩ := Machine.succeeds_of_wp s (.granuleDelegate addr) (granuleDelegate_spec hands rfl)
    fun _ _ stops => stops.1 ready
  exact ⟨t, done, post.1⟩

theorem Machine.createsRec (rd rc ptr : Word) (inv : s.core.Inv)
    (ready : ReadyForRec s.core rd.toNat rc.toNat ptr.toNat ⟨(s.core.mem ptr.toNat).words⟩) :
    ∃ t, s.Succeeds (.recCreate rd rc ptr) t ∧ ∃ desc : Rd, NewRec s.core t.core rd.toNat rc.toNat desc
      (desc.newRec rd.toNat ⟨(s.core.mem ptr.toNat).words⟩) := by
  obtain ⟨t, done, post⟩ := Machine.succeeds_of_wp s (.recCreate rd rc ptr)
    (recCreate_spec rd rc ptr inv rfl rfl rfl rfl rfl) fun _ _ stops => stops.2.2 ready
  obtain ⟨_, _, _, desc, new, _⟩ := post
  exact ⟨t, done, desc, new⟩

theorem Machine.createsTable (rd rtt ipa level : Word) (inv : s.core.Inv)
    (ready : ReadyToSplit s.core rd.toNat rtt.toNat ipa.toNat level.toNat) :
    ∃ t, s.Succeeds (.rttCreate rd rtt ipa level) t ∧
      HasSplit s.core t.core rd.toNat rtt.toNat ipa.toNat level.toNat := by
  obtain ⟨t, done, post⟩ := Machine.succeeds_of_wp s (.rttCreate rd rtt ipa level)
    (rttCreate_spec (.rttCreate rd rtt ipa level) inv rfl) fun _ _ stops => stops.1.1 ready.splittable
  exact ⟨t, done, post.1⟩

theorem Machine.createsData (rd target ipa src flags : Word) {desc : Rd} (inv : s.core.Inv)
    (copies : CopiesData s.core rd.toNat target.toNat ipa.toNat src.toNat desc)
    (place : FindsPlace s.core rd.toNat ipa.toNat) :
    ∃ t, s.Succeeds (.dataCreate rd target ipa src flags) t ∧
      HasData s.core t.core rd.toNat target.toNat ipa.toNat := by
  obtain ⟨t, done, post⟩ := Machine.succeeds_of_wp s (.dataCreate rd target ipa src flags)
    (dataCreate_spec (s := s.start) rd target ipa src flags inv rfl rfl rfl rfl rfl rfl)
    fun _ _ stops => stops.1.1 ⟨⟨desc, copies⟩, place⟩
  exact ⟨t, done, post.2.2.2⟩

theorem Machine.mapsUnprotected (rd ipa level host : Word) (inv : s.core.Inv)
    (ready : ReadyToMap s.core rd.toNat ipa.toNat level.toNat host) :
    ∃ t, s.Succeeds (.rttMapUnprotected rd ipa level host) t ∧
      HasMapped s.core t.core rd.toNat ipa.toNat level.toNat host := by
  obtain ⟨t, done, post⟩ := Machine.succeeds_of_wp s (.rttMapUnprotected rd ipa level host)
    (rttMapUnprotected_spec rd ipa level inv rfl rfl rfl) fun _ _ stops => stops.1 ready
  exact ⟨t, done, post.2⟩

theorem Machine.readsEntry (rd ipa level : Word) (inv : s.core.Inv)
    (ready : ReadyToRead s.core rd.toNat ipa.toNat level.toNat) :
    ∃ t, s.Succeeds (.rttReadEntry rd ipa level) t ∧ HasRead s.core rd.toNat ipa.toNat level.toNat t := by
  obtain ⟨t, done, post⟩ := Machine.succeeds_of_wp s (.rttReadEntry rd ipa level)
    (rttReadEntry_spec (.rttReadEntry rd ipa level) inv rfl) fun _ _ stops => stops.1 ready
  exact ⟨t, done, post.2⟩

theorem Machine.unmapsUnprotected (rd ipa level : Word) (inv : s.core.Inv)
    (ready : ReadyToUnmap s.core rd.toNat ipa.toNat level.toNat) :
    ∃ t, s.Succeeds (.rttUnmapUnprotected rd ipa level) t ∧ ∃ old, S2tte.isAssignedNs old level.toNat = true ∧
      Replaced s.core t.core rd.toNat ipa.toNat level.toNat old (Rtt.destroyedDesc false) ∧
      s.StoresPte t level.toNat old (Rtt.destroyedDesc false) := by
  obtain ⟨t, done, post⟩ := Machine.succeeds_of_wp s (.rttUnmapUnprotected rd ipa level)
    (rttUnmapUnprotected_spec (.rttUnmapUnprotected rd ipa level) inv rfl) fun _ _ stops => stops.1 ready
  exact ⟨t, done, post.2.2⟩

/-! ### A stock of granules -/

omit [Platform] in
theorem validateAddr_bankAt {i : Nat} (inside : i < 0x7C000) : validateAddr (bankAt i) = true := by
  unfold bankAt
  rw [validateAddr_iff]
  omega

omit [Platform] in
theorem validateAddr_hostPage : validateAddr hostPage = true := by decide

omit [Platform] in
theorem bankAt_inj {i j : Nat} : bankAt i = bankAt j ↔ i = j := by
  unfold bankAt
  omega

omit [Platform] in
theorem toNat_bankAt {i : Nat} (inside : i < 0x7C000) : (BitVec.ofNat 64 (bankAt i)).toNat = bankAt i := by
  rw [BitVec.toNat_ofNat]
  unfold bankAt
  omega

omit [Platform] in
theorem bankAt_ne_hostPage {i : Nat} (inside : i < 0x7C000) : hostPage ≠ bankAt i := by
  unfold bankAt hostPage
  omega

/-- Of the first `n` granules those from `k` on are delegated and free, and the host has its page. -/
structure Core.Stocked (c : Core) (k n : Nat) : Prop where
  size : n ≤ 0x7C000
  free : ∀ i, k ≤ i → i < n → c.Has (bankAt i) .delegated
  host : c.Has hostPage .undelegated

omit [Platform] in
theorem gptOf_setGpt_of_ne {c : Core} {x y : Nat} {world : GranuleGpt} (validX : validateAddr x = true)
    (validY : validateAddr y = true) (other : y ≠ x) : (c.setGpt x world).gptOf y = c.gptOf y :=
  Function.update_of_ne (fun same => other ((granuleAddrToIndex_inj validY validX).mp same)) _ _

/-- The granules from `j` to `n` are as boot left them, and the host has its page. -/
structure Core.Spare (c : Core) (j n : Nat) : Prop where
  size : n ≤ 0x7C000
  ready : ∀ i, j ≤ i → i < n → ReadyToDelegate c (bankAt i)
  host : c.Has hostPage .undelegated

instance {c : Core} {addr : Nat} : Decidable (ReadyToDelegate c addr) := inferInstanceAs (Decidable (_ ∧ _ ∧ _))

/-- Delegating the next of them. -/
theorem Core.Spare.delegate {j n : Nat} (spare : s.core.Spare j n) (inside : j < n) (reached : s.Reachable) :
    ∃ t : Machine, t.Reachable ∧ t.core.Spare (j + 1) n ∧ t.core.Has (bankAt j) .delegated ∧
      (∀ i, i ≠ j → i < n → t.core.stateOf (bankAt i) = s.core.stateOf (bankAt i)) ∧
      (∀ a, t.core.realm? a = s.core.realm? a) ∧ SameForest s.core t.core ∧ ∀ a, t.core.numRecs a = s.core.numRecs a := by
  have size := spare.size
  have ready := spare.ready j (Nat.le_refl j) inside
  have valid := ready.1
  have same : (BitVec.ofNat 64 (bankAt j)).toNat = bankAt j := toNat_bankAt (by omega)
  obtain ⟨t, done, core⟩ := Machine.delegates (s := s) (by rw [same]; exact ready)
  rw [same] at core
  have old : (s.core.setGpt (bankAt j) .realm).stateOf (bankAt j) = .undelegated := ready.2.1
  have states : ∀ y, validateAddr y = true →
      t.core.stateOf y = if y = bankAt j then .delegated else s.core.stateOf y := by
    intro y validY
    rw [core]
    exact stateOf_setState valid validY
  have others : ∀ i, i ≠ j → i < n → t.core.stateOf (bankAt i) = s.core.stateOf (bankAt i) := by
    intro i other less
    rw [states _ (validateAddr_bankAt (by omega)), if_neg (by rw [bankAt_inj]; exact other)]
  have notRd : (s.core.setGpt (bankAt j) .realm).stateOf (bankAt j) ≠ .rd := by
    rw [old]
    exact nofun
  have tables : (s.core.setGpt (bankAt j) .realm).stateOf (bankAt j) ≠ .rtt := by
    rw [old]
    exact nofun
  have data : (s.core.setGpt (bankAt j) .realm).stateOf (bankAt j) ≠ .data := by
    rw [old]
    exact nofun
  have notRec : (s.core.setGpt (bankAt j) .realm).stateOf (bankAt j) ≠ .recCtx := by
    rw [old]
    exact nofun
  have owners : SameOwners s.core t.core := by
    rw [core]
    have same := sameOwners_setState valid notRd (show GranuleState.delegated ≠ .rd from nofun) tables data
    exact ⟨same.realms, same.tables, same.data⟩
  have recs : SameRecs s.core t.core := by
    rw [core]
    have same := sameRecs_setState valid notRec (show GranuleState.delegated ≠ .recCtx from nofun)
    exact ⟨same.states, same.owner, same.aux, same.ripas⟩
  refine ⟨t, reached.succeeds done, ⟨size, fun i low high => ?_, validateAddr_hostPage, ?_⟩, ⟨valid, ?_⟩, others, fun a => ?_,
    owners.sameForest reached.inv.tables, numRecs_eq recs⟩
  · obtain ⟨validI, state, gpt⟩ := spare.ready i (by omega) high
    refine ⟨validI, (others i (by omega) high).trans state, ?_⟩
    rw [core, delegatedCore, Core.gptOf_setStateCore,
      gptOf_setGpt_of_ne valid validI (by rw [ne_eq, bankAt_inj]; omega), gpt]
  · rw [states _ validateAddr_hostPage, if_neg (bankAt_ne_hostPage (by omega)), spare.host.2]
  · rw [states _ valid, if_pos rfl]
  · rw [core]
    exact realm?_setState valid notRd (show GranuleState.delegated ≠ .rd from nofun) a

/-- All of them become a stock. -/
theorem Core.Spare.stock {j n : Nat} (spare : s.core.Spare j n) (reached : s.Reachable) : ∀ k, j + k ≤ n →
    ∃ t : Machine, t.Reachable ∧ t.core.Spare (j + k) n ∧ t.core.Stocked j (j + k) ∧
      (∀ a, t.core.realm? a = s.core.realm? a) ∧ SameForest s.core t.core ∧ ∀ a, t.core.numRecs a = s.core.numRecs a
  | 0, _ => ⟨s, reached, spare, ⟨by have := spare.size; omega, fun i low high => by omega, spare.host⟩, fun _ => rfl,
      .refl _, fun _ => rfl⟩
  | k + 1, enough => by
    obtain ⟨t, reached', spare', stocked, realms, forest, count⟩ := spare.stock reached k (by omega)
    obtain ⟨u, reached'', spare'', has, others, realms', forest', count'⟩ := spare'.delegate (by omega) reached'
    refine ⟨u, reached'', spare'', ⟨by have := spare.size; omega, fun i low high => ?_, spare''.host⟩,
      fun a => (realms' a).trans (realms a), forest.trans forest', fun a => (count' a).trans (count a)⟩
    by_cases last : i = j + k
    · rw [last]
      exact has
    · obtain ⟨valid, state⟩ := stocked.free i low (by omega)
      exact ⟨valid, (others i last (by omega)).trans state⟩

/-! ### A realm -/

/-- A realm with 39 bits of address space is there, under the first granule. -/
structure Core.HasRealm (c : Core) (rd : Rd) : Prop where
  realm : c.realm? (bankAt 0) = some rd
  level : rd.s2StartingLevel = 1
  bits : rd.ipaBits = 39

/-- The tables of a realm that has the same descriptor. -/
theorem Core.HasRealm.of_realm {c c' : Core} {rd : Rd} (has : c.HasRealm rd) (same : c'.realm? (bankAt 0) = some rd) :
    c'.HasRealm rd :=
  ⟨same, has.level, has.bits⟩

theorem Core.HasRealm.validateIpa {c : Core} {rd : Rd} (small : c.HasRealm rd) {ipa : Nat} (inside : ipa < 2 ^ 38)
    (aligned : ipa % 4096 = 0 ∧ BitVec.ofNat 64 ipa &&& S2tte.addrBlkL3 = BitVec.ofNat 64 ipa) :
    validateIpa rd ipa = true := by
  have half : ipa < rd.parSize ∧ ipa < rd.ipaSize := by
    rw [Rd.parSize, Rd.ipaSize, small.bits]
    omega
  simp [Rmi.validateIpa, isGranuleAligned, Rd.addrInPar, half, isValidRttCmd, aligned, S2tte.levelMask, S2tte.rttPageLevel]

/-! ### Its RECs -/

omit [Platform] in
/-- The MPIDR of each of the first 256 RECs of a realm. -/
theorem mpidr_spec : ∀ k < 256, Mpidr.index (BitVec.ofNat 64 (k % 16 + 256 * (k / 16))) = k ∧
    Mpidr.validate (BitVec.ofNat 64 (k % 16 + 256 * (k / 16))) = true := by
  decide +kernel

omit [Platform] in
theorem aux_recPage {flags : Word} {mpidr first i : Nat} (inside : i < maxRecAuxGranules)
    (small : first + i < 0x7C000) : RecParams.aux ⟨recPage flags mpidr first⟩ i = bankAt (first + i) := by
  have low : (0x101 : Nat) ≤ 0x101 + i ∧ 0x101 + i < 0x111 := ⟨by omega, Nat.add_lt_add_left inside _⟩
  unfold RecParams.aux recPage
  dsimp only
  rw [if_neg (by omega), if_neg (by omega), if_neg (by omega), if_pos low, Nat.add_sub_cancel_left, toNat_bankAt small]

/-- A further REC, with the next seventeen granules of the stock. -/
theorem Core.Stocked.createsRec {k j n : Nat} {rd : Rd} (reached : s.Reachable) (small : s.core.HasRealm rd)
    (isNew : rd.state = .new) (index : rd.recIndex = k) (few : k < 256) (used : 2 ≤ j) (stocked : s.core.Stocked j n)
    (enough : j + 17 ≤ n) :
    ∃ (t : Machine) (rd' : Rd), t.Reachable ∧ t.core.HasRealm rd' ∧ rd'.state = .new ∧ rd'.recIndex = k + 1 ∧
      t.core.numRecs (bankAt 0) = s.core.numRecs (bankAt 0) + 1 ∧ t.core.Stocked (j + 17) n := by
  have size := stocked.size
  let page := recPage 0 (k % 16 + 256 * (k / 16)) (j + 1)
  have written : (s.hostWrite hostPage page).Reachable := reached.hostWrite stocked.host page
  generalize tEq : s.hostWrite hostPage page = t at written
  have core : t.core = s.core.setContent hostPage (.raw page) := by rw [← tEq]; rfl
  have notRd : s.core.stateOf hostPage ≠ .rd := by
    rw [stocked.host.2]
    exact nofun
  have notRec : s.core.stateOf hostPage ≠ .recCtx := by
    rw [stocked.host.2]
    exact nofun
  have words : (t.core.mem hostPage).words = page := by
    rw [core, Core.mem_setContent_same]
    rfl
  have free : ∀ i, j ≤ i → i < n → t.core.Has (bankAt i) .delegated := by
    intro i low high
    rw [core]
    exact stocked.free i low high
  have aux : ∀ i < maxRecAuxGranules, RecParams.aux ⟨page⟩ i = bankAt (j + 1 + i) := fun i inside =>
    aux_recPage inside (by have := show i < 16 from inside; omega)
  have realm : t.core.realm? (bankAt 0) = some rd := by
    rw [core, realm?_setContent notRd]
    exact small.realm
  have rdEq := toNat_bankAt (i := 0) (by omega)
  have recEq := toNat_bankAt (i := j) (by omega)
  have ptrEq : (BitVec.ofNat 64 hostPage).toNat = hostPage := by decide
  obtain ⟨u, done, desc, new⟩ := Machine.createsRec (s := t) (BitVec.ofNat 64 (bankAt 0))
    (BitVec.ofNat 64 (bankAt j)) (BitVec.ofNat 64 hostPage) written.inv (by
      rw [rdEq, recEq, ptrEq, words]
      refine ⟨?_, ?_, ⟨?_, by rfl, fun i inside => ?_, fun i inside i' less => ?_⟩, ⟨rd, realm, isNew, ?_⟩,
        free j (by omega) (by omega)⟩
      · rw [ne_eq, bankAt_inj]
        omega
      · rw [core]
        exact stocked.host
      · exact (mpidr_spec k few).2
      · have bound : i < 16 := inside
        rw [aux i inside, ne_eq, ne_eq, bankAt_inj, bankAt_inj]
        exact ⟨free _ (by omega) (by omega), by omega, by omega⟩
      · rw [aux i inside, aux i' (Nat.lt_trans less inside), ne_eq, bankAt_inj]
        omega
      · rw [index]
        exact (mpidr_spec k few).1)
  rw [rdEq, recEq, ptrEq, words] at new
  cases realm.symm.trans new.realm
  have same : (rd.newRec (bankAt 0) ⟨page⟩).aux = RecParams.aux ⟨page⟩ := (Rec.created_spec _ _ _ _ _ _).2.2.2.1
  obtain ⟨page', found, _⟩ := new.realm_same
  refine ⟨u, rd.addRec page', written.succeeds done, ⟨found, small.level, small.bits⟩, isNew, congrArg (· + 1) index, ?_,
    ⟨size, fun i low high => ?_, validateAddr_hostPage, ?_⟩⟩
  · rw [new.numRecs_same, core, numRecs_eq (sameRecs_setContent notRec)]
  · refine ⟨validateAddr_bankAt (by omega), ?_⟩
    rw [new.others _ (validateAddr_bankAt (by omega)), (free i (by omega) high).2]
    · rw [ne_eq, bankAt_inj]
      omega
    · intro i' inside
      have bound : i' < 16 := inside
      rw [same, aux i' inside, ne_eq, bankAt_inj]
      omega
  · have used : t.core.stateOf hostPage = .undelegated := by
      rw [core]
      exact stocked.host.2
    rw [new.kept validateAddr_hostPage (by rw [used]; exact nofun), used]

/-- As many RECs as MPIDRs are numbered for. -/
theorem Core.Stocked.exists_recs {n : Nat} {rd : Rd} (reached : s.Reachable) (small : s.core.HasRealm rd)
    (isNew : rd.state = .new) (first : rd.recIndex = 0) (alone : s.core.numRecs (bankAt 0) = 0) (stocked : s.core.Stocked 2 n) :
    ∀ k ≤ 256, 2 + 17 * k ≤ n → ∃ (t : Machine) (rd' : Rd), t.Reachable ∧ t.core.HasRealm rd' ∧ rd'.state = .new ∧ rd'.recIndex = k ∧
      t.core.numRecs (bankAt 0) = k ∧ t.core.Stocked (2 + 17 * k) n
  | 0, _, _ => ⟨s, rd, reached, small, isNew, first, alone, stocked⟩
  | k + 1, few, enough => by
    obtain ⟨t, rd', reached', small', isNew', index, count, stocked'⟩ :=
      stocked.exists_recs reached small isNew first alone k (by omega) (by omega)
    obtain ⟨u, rd'', reached'', small'', isNew'', index', count', stocked''⟩ :=
      stocked'.createsRec reached' small' isNew' index (by omega) (by omega) (by omega)
    exact ⟨u, rd'', reached'', small'', isNew'', index', by rw [count', count], by rwa [Nat.mul_add, ← Nat.add_assoc]⟩

/-! ### Its tables -/

/-- RTT_CREATE has put the table `r` under entry `q` of level `l`. -/
structure Grown (c c' : Core) (a l q r : Nat) : Prop where
  table : ∃ e, c'.forest.entry a l q = some e ∧ S2tte.isTable e l = true
  others : ∀ l' q', l' ≤ l → ¬(l' = l ∧ q' = q) → c'.forest.entry a l' q' = c.forest.entry a l' q'
  pages : ∀ {g w}, g / 512 ^ (3 - l) ≠ q → (c'.Page a g w ↔ c.Page a g w)
  realms : ∀ b, c'.realm? b = c.realm? b
  states : ∀ b, validateAddr b = true → c'.stateOf b = if b = r then .rtt else c.stateOf b

theorem HasSplit.grown {c c' : Core} {rtt ipa level : Nat} (split : HasSplit c c' a rtt ipa level) (inv : c.Inv) :
    Grown c c' a (level - 1) (ipa / 4096 / 512 ^ (3 - (level - 1))) rtt := by
  obtain ⟨b, page, split, rfl⟩ := split
  generalize level - 1 = l at *
  generalize ipa / 4096 / 512 ^ (3 - l) = q at *
  have number : q / 512 * 512 + q % 512 = q := by omega
  have written := split.written inv
  have place := split.place inv
  have forest := split.sameForest inv
  have exclusive := forest.exclusive inv.tables.exclusive
  have inner := split.inner
  refine ⟨⟨Rtt.tableDesc rtt, ?_, (S2tte.isTable_of_view split.names).1⟩, fun l' q' above other => ?_,
    fun {g w} outside => ?_, fun d => ?_, fun d valid => split.stateOf valid⟩
  · have stored := Forest.entry_write_same (e := Rtt.tableDesc rtt) exclusive place split.here.index
    rwa [number, ← written.entry_eq] at stored
  · rw [written.entry_eq, ← forest.entry_eq]
    refine Forest.entry_write_of_ne exclusive place ?_ ?_
    · rintro ⟨_, below⟩
      have := below.1
      omega
    · rintro ⟨_, same, rest⟩
      exact other ⟨same, rest.trans number⟩
  · rw [written.page_other exclusive place (by omega), forest.page_iff]
    rw [number]
    exact fun inside => outside inside.2
  · have table : (c.setContent rtt (.raw page)).stateOf b ≠ .rd := by
      rw [Core.stateOf_setContent, (inv.tables.tables split.here.place).2]
      exact nofun
    unfold splitCore
    rw [realm?_setState split.valid (show (storePte _ _ (c.setContent rtt (.raw page))).stateOf rtt ≠ .rd from
      split.fresh.1) (show GranuleState.rtt ≠ .rd from nofun)]
    exact (realm?_setContent table d).trans (realm?_setContent split.fresh.1 d)

/-- A further table, with the next granule of the stock. -/
theorem Core.Stocked.addTable {j n : Nat} {rd : Rd} {ipa e : Word} (level : Word)
    (reached : s.Reachable) (small : s.core.HasRealm rd) (stocked : s.core.Stocked j n) (enough : j < n)
    (accepted : isValidTableCmd rd ipa.toNat level.toNat = true)
    (entry : s.core.forest.entry (bankAt 0) (level.toNat - 1)
      (ipa.toNat / 4096 / 512 ^ (3 - (level.toNat - 1))) = some e) (free : S2tte.isUnassigned e = true) :
    ∃ t : Machine, t.Reachable ∧ t.core.HasRealm rd ∧ t.core.Stocked (j + 1) n ∧
      Grown s.core t.core (bankAt 0) (level.toNat - 1) (ipa.toNat / 4096 / 512 ^ (3 - (level.toNat - 1))) (bankAt j) := by
  have size := stocked.size
  have rdEq := toNat_bankAt (i := 0) (by omega)
  have rttEq := toNat_bankAt (i := j) (by omega)
  obtain ⟨t, done, split⟩ := Machine.createsTable (s := s) (BitVec.ofNat 64 (bankAt 0))
    (BitVec.ofNat 64 (bankAt j)) ipa level reached.inv (by
      rw [rdEq, rttEq]
      exact ⟨rd, small.realm, accepted, stocked.free j (by omega) enough, e, entry, free⟩)
  rw [rdEq, rttEq] at split
  have grown := split.grown reached.inv
  refine ⟨t, reached.succeeds done, small.of_realm ((grown.realms _).trans small.realm), ⟨size, fun i low high => ?_, validateAddr_hostPage, ?_⟩, grown⟩
  · obtain ⟨valid, state⟩ := stocked.free i (by omega) high
    refine ⟨valid, ?_⟩
    rw [grown.states _ valid, if_neg (by rw [bankAt_inj]; omega), state]
  · rw [grown.states _ validateAddr_hostPage, if_neg (bankAt_ne_hostPage (by omega)), stocked.host.2]

/-- RTT_CREATE is accepted for the first table below the root. -/
theorem Core.HasRealm.acceptsFirst {c : Core} {rd : Rd} (small : c.HasRealm rd) :
    isValidTableCmd rd (0#64).toNat (2#64).toNat = true := by
  have range : 0 < rd.ipaSize := by
    rw [Rd.ipaSize, small.bits]
    omega
  simp [isValidTableCmd, isValidRttCmd, S2tte.rttPageLevel, small.level, range]

theorem Core.HasRealm.acceptsTable {c : Core} {rd : Rd} (small : c.HasRealm rd) {q : Nat} (inside : q < 512) :
    isValidTableCmd rd (BitVec.ofNat 64 (q * 0x200000)).toNat 3 = true ∧
      (BitVec.ofNat 64 (q * 0x200000)).toNat / 4096 / 512 ^ (3 - (3 - 1)) = q := by
  have number : (BitVec.ofNat 64 (q * 0x200000)).toNat = q * 0x200000 := by
    rw [BitVec.toNat_ofNat]
    omega
  have aligned : ∀ q < 512, (BitVec.ofNat 64 (q * 0x200000) &&& S2tte.addrBlkL2) = BitVec.ofNat 64 (q * 0x200000) := by
    decide +kernel
  rw [number]
  refine ⟨?_, by omega⟩
  have range : q * 0x200000 < rd.ipaSize := by
    rw [Rd.ipaSize, small.bits]
    omega
  simp [isValidTableCmd, isValidRttCmd, S2tte.rttPageLevel, small.level, range, S2tte.levelMask, aligned q inside]

/-- The first `k` entries of its table of level 2 are tables, the others empty. -/
structure Core.Tabled (c : Core) (rd : Rd) (k : Nat) : Prop extends c.HasRealm rd where
  tables : ∀ q < k, ∃ e, c.forest.entry (bankAt 0) 2 q = some e ∧ S2tte.isTable e 2 = true
  empty : ∀ q, k ≤ q → q < 512 → ∃ e, c.forest.entry (bankAt 0) 2 q = some e ∧ S2tte.isUnassigned e = true

/-- One more table of level 3. -/
theorem Core.Tabled.add {k j n : Nat} {rd : Rd} (tabled : s.core.Tabled rd k) (reached : s.Reachable)
    (inside : k < 512) (stocked : s.core.Stocked j n) (enough : j < n) :
    ∃ t : Machine, t.Reachable ∧ t.core.Tabled rd (k + 1) ∧ t.core.Stocked (j + 1) n ∧
      ∀ {g v}, g / 512 ≠ k → (t.core.Page (bankAt 0) g v ↔ s.core.Page (bankAt 0) g v) := by
  obtain ⟨e, stored, free⟩ := tabled.empty k (by omega) inside
  obtain ⟨accepted, number⟩ := tabled.acceptsTable inside
  obtain ⟨t, reached', small', stocked', grown⟩ := stocked.addTable 3#64 reached tabled.toHasRealm enough
    accepted (by rw [show (3#64).toNat = 3 by rfl, number]; exact stored) free
  rw [show (3#64).toNat = 3 by rfl, number] at grown
  refine ⟨t, reached', ⟨small', fun q less => ?_, fun q low high => ?_⟩, stocked', fun other => grown.pages other⟩
  · by_cases last : q = k
    · rw [last]
      exact grown.table
    · rw [grown.others 2 q (by omega) (by omega)]
      exact tabled.tables q (by omega)
  · rw [grown.others 2 q (by omega) (by omega)]
    exact tabled.empty q (by omega) high

/-- Tables in all entries of level 2 but the first, which there is already. -/
theorem Core.Tabled.exists_full {n : Nat} {rd : Rd} {v : View} (tabled : s.core.Tabled rd 1) (reached : s.Reachable)
    (stocked : s.core.Stocked 5 n) (page : s.core.Page (bankAt 0) 0 v) : ∀ k < 512, 5 + k ≤ n →
    ∃ t : Machine, t.Reachable ∧ t.core.Tabled rd (k + 1) ∧ t.core.Stocked (5 + k) n ∧ t.core.Page (bankAt 0) 0 v
  | 0, _, _ => ⟨s, reached, tabled, stocked, page⟩
  | k + 1, inside, enough => by
    obtain ⟨t, reached', tabled', stocked', page'⟩ := tabled.exists_full reached stocked page k (by omega) (by omega)
    obtain ⟨u, reached'', tabled'', stocked'', pages⟩ := tabled'.add reached' (by omega) stocked' (by omega)
    exact ⟨u, reached'', tabled'', stocked'', (pages (by omega)).mpr page'⟩

end Islet.Rmm
