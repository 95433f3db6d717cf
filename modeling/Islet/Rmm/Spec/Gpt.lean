import Islet.Rmm.Rules

/-! GRANULE_DELEGATE and GRANULE_UNDELEGATE, and the commands that touch no granule. -/

namespace Islet.Rmm

open Lib Prog Rmi

variable [Platform] {cmd : Command} {s : Machine} {addr : Nat}

/-- What GRANULE_DELEGATE asks for. -/
def ReadyToDelegate (c : Core) (addr : Nat) : Prop :=
  validateAddr addr = true ∧ c.stateOf addr = .undelegated ∧ c.gptOf addr = .ns

/-- The state after a granule has been delegated. -/
def delegatedCore (c : Core) (addr : Nat) : Core :=
  setStateCore (granuleAddrToIndex addr) .delegated (c.setGpt addr .realm)

theorem granuleDelegate_spec (hands : cmd.HandsOver) (idle : s.held = []) :
    wp (granuleDelegate addr)
      (fun _ t => t.core = delegatedCore s.core addr ∧ ReadyToDelegate s.core addr ∧ Kept s.core cmd s t)
      (Stops s.core cmd s (ReadyToDelegate s.core addr)) s := by
  unfold granuleDelegate
  rw [wp_bind]
  refine wp_getGranuleIf (fun bad _ => Kept.error (.of_eq rfl rfl rfl) fun ready => bad ⟨ready.1, ready.2.1⟩)
    (fun _ held => ?_) fun valid state _ => ?_
  · rw [idle] at held
    cases held
  unfold smcMarkRealm
  simp only [wp_bind, wp_getCore, wp_ite, wp_modifyCore, wp_pure]
  refine ⟨fun world => ?_, fun refused => ?_⟩
  · refine wp_errIf (fun bad => absurd bad (by decide)) fun _ => ?_
    obtain ⟨pt, run, safe⟩ := @Mm.PageTable.Safe.map_unmap s.pageTable addr valid true
    rw [wp_bind]
    refine wp_mapGranule valid fun pt' run' => ?_
    cases run.symm.trans run'
    refine ⟨rfl, ⟨valid, state, world⟩, .single (.handOver hands valid (.inl state) (.inr ⟨rfl, rfl⟩)), ?_, safe⟩
    refine legal_setGranule rfl (.inr ⟨?_, rfl⟩)
    change s.core.stateOf addr ≠ _
    rw [state]
    simp
  · refine wp_errIf (fun _ => ?_) fun good => absurd rfl good
    exact Kept.error (.of_eq rfl rfl rfl) fun ready => refused ready.2.2

theorem granuleUndelegate_spec (hands : cmd.HandsOver) (inv : s.core.Inv) (idle : s.held = []) :
    wp (granuleUndelegate addr) (fun _ t => Kept s.core cmd s t) (Stops s.core cmd s False) s := by
  unfold granuleUndelegate
  rw [wp_bind]
  refine wp_getGranuleIf (fun _ _ => Kept.error (.of_eq rfl rfl rfl) id) (fun _ held => ?_)
    fun valid state _ => ?_
  · rw [idle] at held
    cases held
  have world : s.core.gptOf addr = .realm := by
    by_contra other
    rw [(inv.gpt addr valid).mpr other] at state
    cases state
  unfold smcMarkNonsecure
  simp only [wp_bind, wp_getCore, if_pos world, wp_modifyCore, wp_pure, Bool.not_true,
    Bool.false_eq_true, if_false]
  obtain ⟨pt, run, safe⟩ := @Mm.PageTable.Safe.map_unmap s.pageTable addr valid false
  refine wp_mapGranule valid fun pt' run' => ?_
  cases run.symm.trans run'
  refine ⟨.single (.handOver hands valid (.inr state) (.inl ⟨rfl, (by simp)⟩)), ?_, safe⟩
  exact legal_setGranule rfl (.inl ⟨state, (by simp)⟩)

theorem version_spec (req : Word) :
    wp (version req) (fun _ t => Kept s.core cmd s t) (Stops s.core cmd s False) s := by
  unfold version
  simp only [wp_bind, wp_setRet]
  exact wp_errIf (fun _ => Kept.error (.of_eq rfl rfl rfl) id) fun _ => .of_eq rfl rfl rfl

theorem features_spec (index : Nat) :
    wp (features index) (fun _ t => Kept s.core cmd s t) (Stops s.core cmd s False) s := by
  unfold features
  split
  · exact .of_eq rfl rfl rfl
  · exact .of_eq rfl rfl rfl

end Islet.Rmm
