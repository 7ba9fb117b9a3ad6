import Mspsql.Hub.Ownership

/-!
# Rollback and deletion of upgrades

A deleted upgrade takes the deletion path of its controller, and the phases of a rollback
only advance on the other path.
-/

namespace Mspsql

open Sample

variable {phase : MajorUpgradePhase}

def MajorUpgradePhase.rollingBack : MajorUpgradePhase → Bool
  | .rollback | .rollbackStart | .rollbackRestoreWrites => true
  | _ => false

theorem not_rollsBack_of_rollingBack (h : phase.rollingBack = true) : phase.rollsBack = false := by
  cases phase <;> first | rfl | cases h

def UpgradeWrite.records (phase : MajorUpgradePhase) : UpgradeWrite → Bool
  | .patchInstance _ _ modified => modified.annotations.upgradePhase = .major phase
  | _ => false

def UpgradeWrite.clears : UpgradeWrite → Bool
  | .patchInstance _ _ modified => modified.annotations.upgradeUID = ""
  | _ => false

/-- The reconcile carries a rollback on: it records the phase that follows, or it clears the
annotations and releases the finalizer. -/
def CarriesRollbackOn (phase : MajorUpgradePhase) (writes : List UpgradeWrite) : Prop :=
  (phase.next.any fun next => writes.any (·.records next)) = true ∨
    writes.any (·.clears) = true ∧ .removeFinalizer ∈ writes
deriving Decidable

theorem not_carriesRollbackOn {writes : List UpgradeWrite} (h : ∀ w ∈ writes, w.isPatch = false) :
    ¬ CarriesRollbackOn phase writes := by
  have hnone : ∀ f : UpgradeWrite → Bool, (∀ w, f w = true → w.isPatch = true) →
      writes.any f ≠ true := by
    intro f hf hany
    obtain ⟨w, hw, hfw⟩ := List.any_eq_true.mp hany
    have hpatch := hf w hfw
    rw [h w hw] at hpatch
    cases hpatch
  rintro (hrecords | ⟨hclears, -⟩)
  · obtain ⟨next, -, hany⟩ := (Option.any_eq_true _ _).mp hrecords
    refine hnone _ (fun w hw => ?_) hany
    cases w <;> first | rfl | cases hw
  · refine hnone _ (fun w hw => ?_) hclears
    cases w <;> first | rfl | cases hw

/-- An upgrade that is being deleted, without force-abandon, never patches an instance that
it owns in a rollback phase; no other upgrade patches an instance it does not own. -/
theorem not_patch_of_rollingBack {u : PostgresUpgrade} {view : MultiSitePostgres}
    (hphase : phase.rollingBack = true) (hrecorded : view.annotations.upgradePhase = .major phase)
    (hheld : view.annotations.upgradeUID ≠ "")
    (hdeleted : view.annotations.upgradeUID = u.uid → u.deleting = true ∧ u.forceAbandon = false)
    (reads : HubReads) (now : Time) (directives : List DirectiveMap) :
    ∀ w ∈ reconcileUpgrade reads u (some view) now directives, w.isPatch = false := by
  have hrunning : u.running → view.annotations.upgradeUID ≠ u.uid := by
    intro hrun howned
    have hdel := (hdeleted howned).1
    rw [hrun.1] at hdel
    cases hdel
  have hmoves := reconcileUpgrade_moves reads u view now directives
  generalize reconcileUpgrade reads u (some view) now directives = writes at hmoves
  cases hmoves with
  | none h => exact h
  | finish running owned => exact absurd owned (hrunning running)
  | move hmove hrest =>
    exfalso
    cases hmove with
    | claimMajor _ free | claimMinor _ free => exact hheld free
    | advance running owned | finalizeMajor running owned | switching running owned
    | nextMember running owned | finalizeMinor running owned | switchedOver running owned =>
      exact hrunning running owned
    | rollBack _ recorded rollsBack =>
      rw [hrecorded, UpgradePhaseValue.major.injEq] at recorded
      rw [← recorded, not_rollsBack_of_rollingBack hphase] at rollsBack
      cases rollsBack
    | release owned _ kept =>
      have hdel := (hdeleted owned).1
      rw [kept] at hdel
      cases hdel
    | abandon owned _ allowed =>
      rcases allowed with hforce | hpreflight
      · rw [(hdeleted owned).2] at hforce
        cases hforce
      rw [hrecorded, UpgradePhaseValue.major.injEq] at hpreflight
      rw [hpreflight] at hphase
      cases hphase

namespace HubState

/-! ## A deleted upgrade in a rollback phase -/

/-- The upgrade with that UID owns the instance in a phase of its rollback, and it is being
deleted without force-abandon. -/
structure DeletedInRollback (uid : String) (phase : MajorUpgradePhase) (s : HubState) : Prop where
  rollingBack : phase.rollingBack = true
  uid_ne : uid ≠ ""
  owner : s.stored.annotations.upgradeUID = uid
  recorded : s.stored.annotations.upgradePhase = .major phase
  known : uid ∈ s.upgradeUIDs
  deleted : ∀ u ∈ s.upgrades, u.uid = uid → u.deleting = true ∧ u.forceAbandon = false

def unforced (s : HubState) : HubEvent → Prop
  | .upgrade _ view _ _ _ => view = s.stored
  | .deleteUpgrade _ forceAbandon => forceAbandon = false
  | _ => True

theorem DeletedInRollback.step {config : HubConfig} {uid : String} {s t : HubState} {e : HubEvent}
    (h : DeletedInRollback uid phase s) (hok : unforced s e) (hst : s.step config e = some t) :
    DeletedInRollback uid phase t := by
  have hcase := step_case hst
  have hpart : t.stored.annotations.upgradePart = s.stored.annotations.upgradePart := by
    cases hcase with
    | @upgrade name view reads now writes u hu =>
      obtain rfl : view = s.stored := hok
      have hnone := not_patch_of_rollingBack h.rollingBack h.recorded (h.owner ▸ h.uid_ne)
        (fun howned => h.deleted u (List.mem_of_find?_eq_some hu) (howned.symm.trans h.owner))
        (s.readsOf reads) now s.directives
      rw [(applyUpgradeWrites_of_not_patch s name fun w hw =>
        hnone w (List.mem_of_mem_take hw)).1]
    | _ => exact (step_case hst).upgradePart fun _ _ _ _ _ h => by cases h
  refine ⟨h.rollingBack, h.uid_ne, (congrArg (·.upgradeUID) hpart).trans h.owner,
    (congrArg (·.upgradePhase) hpart).trans h.recorded, hcase.upgradeUIDs uid h.known,
    fun u hu huid => ?_⟩
  cases hcase.origin hu with
  | same mem | marked mem => exact (h.deleted _ mem :) huid
  | written _ mem request =>
    obtain ⟨hvuid, -, -, hdel, hforce⟩ := request
    rw [hdel, hforce]
    exact h.deleted _ mem (hvuid.symm.trans huid)
  | created _ fresh => exact absurd h.known (huid ▸ fresh)
  | deleted => exact ⟨rfl, hok⟩

open Machine

/-- Whatever else happens, as long as nobody force-abandons and the upgrade controller works
on the stored instance: the phase stays, and no reconcile of the upgrade carries the rollback
on, whether or not the sites have applied the phase. -/
theorem deleted_rollback_stays {config : HubConfig} {uid : String} {phase : MajorUpgradePhase}
    {s t : HubState} (hs : DeletedInRollback uid phase s)
    (h : Reach (step config) (· = s) unforced t) :
    DeletedInRollback uid phase t ∧ ∀ u ∈ t.upgrades, u.uid = uid → ∀ reads now,
        ¬ CarriesRollbackOn phase (reconcileUpgrade reads u (some t.stored) now t.directives) := by
  have hdeleted : DeletedInRollback uid phase t :=
    h.invariant (fun _ hinit => hinit ▸ hs) fun _ _ _ hinv hok hst => hinv.step hok hst
  refine ⟨hdeleted, fun u hu huid reads now => not_carriesRollbackOn ?_⟩
  exact not_patch_of_rollingBack hdeleted.rollingBack hdeleted.recorded
    (hdeleted.owner ▸ hdeleted.uid_ne) (fun _ => hdeleted.deleted u hu huid) reads now t.directives

/-- The upgrade of `ledger` is deleted while writes are drained; the rollback it asks for is
applied by every site. -/
def cancelled : HubState :=
  after ledger anyStep (upgradeRequested ++ [upgradeStep, reconcileWith reads, commit] ++
    appliedEverywhere ++
    [upgradeStep, fun _ => .deleteUpgrade ledgerUpgrade.name false,
      upgradeStep, reconcileWith reads, commit] ++
    appliedEverywhere)

def RollbackApplied (s : HubState) : Prop :=
  majorPhaseApplied s.stored = true ∧ s.stored.annotations.upgradeUID = ledgerUpgrade.uid ∧
    s.stored.annotations.upgradePhase = .major .rollback ∧
    ledgerUpgrade.uid ∈ s.upgradeUIDs ∧ s.upgrades.length = 1 ∧
    ∀ u ∈ s.upgrades, u.uid = ledgerUpgrade.uid ∧ u.deleting = true ∧
      u.forceAbandon = false ∧ u.finalizer = true ∧ ¬ CarriesRollbackOn .rollback
        (reconcileUpgrade reads u (some s.stored) 0 s.directives)
deriving Decidable

theorem cancelled_reach : Reach (step hub) (Initial hub) anyStep cancelled ∧
      RollbackApplied cancelled :=
  after_reach (P := RollbackApplied) ledger_initial (by decide +kernel)

/-- The deleted upgrade does not go on although every site has applied its phase. -/
theorem cancelled_rollback_stalls : Reach (step hub) (Initial hub) anyStep cancelled ∧
      majorPhaseApplied cancelled.stored = true ∧ ∃ u ∈ cancelled.upgrades,
        cancelled.stored.annotations.upgradeUID = u.uid ∧
        cancelled.stored.annotations.upgradePhase = .major .rollback ∧
        u.deleting = true ∧ u.forceAbandon = false ∧ u.finalizer = true ∧
        ¬ CarriesRollbackOn .rollback
          (reconcileUpgrade reads u (some cancelled.stored) 0 cancelled.directives) := by
  obtain ⟨hreach, happlied, howner, hphase, -, hone, hall⟩ := cancelled_reach
  refine ⟨hreach, happlied, ?_⟩
  have hpos : 0 < cancelled.upgrades.length := by rw [hone]; decide
  obtain ⟨u, hu⟩ := List.exists_mem_of_length_pos hpos
  obtain ⟨huid, hrest⟩ := hall u hu
  exact ⟨u, hu, howner.trans huid.symm, hphase, hrest⟩

theorem cancelled_rollback_stays : DeletedInRollback ledgerUpgrade.uid .rollback cancelled ∧
      ∀ u ∈ cancelled.upgrades, u.uid = ledgerUpgrade.uid → ∀ reads now,
        ¬ CarriesRollbackOn .rollback
          (reconcileUpgrade reads u (some cancelled.stored) now cancelled.directives) := by
  obtain ⟨-, -, howner, hphase, hknown, -, hall⟩ := cancelled_reach
  refine @deleted_rollback_stays hub _ _ _ _
    ⟨rfl, by decide, howner, hphase, hknown, fun u hu _ => ?_⟩ (.start rfl)
  exact ⟨(hall u hu).2.1, (hall u hu).2.2.1⟩

end HubState

end Mspsql
