import Mspsql.Hub.InstanceSpec
import Mspsql.Hub.System

/-!
# What a step of the hub can do

Which parts of the state each event leaves alone, and which versions of the instance it
can store.
-/

namespace Mspsql

open List

/-! ## Results recorded by the server -/

theorem updateBackupEvidence_eq (parseTime : String → Option Time)
    (status : MultiSitePostgresStatus) (conditions : List Condition) :
    updateBackupEvidence parseTime status conditions = { status with
      lastBackupTime := (updateBackupEvidence parseTime status conditions).lastBackupTime
      recoveryWindowStart :=
        (updateBackupEvidence parseTime status conditions).recoveryWindowStart
      restoreDrillLastVerifiedAt :=
        (updateBackupEvidence parseTime status conditions).restoreDrillLastVerifiedAt
      restoreDrillBackupSet :=
        (updateBackupEvidence parseTime status conditions).restoreDrillBackupSet } := by
  unfold updateBackupEvidence
  induction conditions generalizing status with
  | nil => rfl
  | cons c rest ih =>
    rw [foldl_cons, ih]
    split <;> rfl

def BackupScheduleStatus.slot (s : BackupScheduleStatus) : String × Option Time × Option String :=
  (s.type, s.lastScheduledAt, s.operation.map (·.operationUID))

theorem markBackupScheduleOperation_slots (result : PlanResult) (siteName : String)
    (statuses : List BackupScheduleStatus) :
    (markBackupScheduleOperation result siteName statuses).map (·.slot) =
      statuses.map (·.slot) := by
  induction statuses with
  | nil => rfl
  | cons s rest ih =>
    rw [markBackupScheduleOperation]
    split
    · rename_i hop
      obtain ⟨operation, hoperation, hop⟩ := (Option.any_eq_true _ _).mp hop
      have hresult : (directiveResultOperation result "ScheduledBackup" siteName).operationUID =
          result.operationUID := by
        unfold directiveResultOperation
        split <;> rfl
      rw [map_cons, map_cons, BackupScheduleStatus.slot, BackupScheduleStatus.slot,
        hoperation, Option.map_some, Option.map_some, hresult, of_decide_eq_true hop]
    · rw [map_cons, map_cons, ih]

def serverConditions : List String := ["BackupReady", "RecoveryWindowAvailable"]

/-- The second instance is the first one with a backup result recorded in it: of the
status only conditions, backup evidence and schedules differ. -/
structure RecordsResult (i j : MultiSitePostgres) (reported : List Condition) : Prop where
  eq : j = { i with status := { i.status with
    lastBackupTime := j.status.lastBackupTime
    recoveryWindowStart := j.status.recoveryWindowStart
    restoreDrillLastVerifiedAt := j.status.restoreDrillLastVerifiedAt
    restoreDrillBackupSet := j.status.restoreDrillBackupSet
    backupSchedules := j.status.backupSchedules
    conditions := j.status.conditions } }
  conditions : ∀ c ∈ j.status.conditions,
    c.type ∈ serverConditions ++ reported.map (·.type) ∨ c ∈ i.status.conditions
  slots : j.status.backupSchedules.map (·.slot) = i.status.backupSchedules.map (·.slot)

namespace RecordsResult

variable {i j : MultiSitePostgres} {reported : List Condition}

theorem sites (h : RecordsResult i j reported) : j.status.sites = i.status.sites := by
  rw [h.eq]

theorem annotations (h : RecordsResult i j reported) : j.annotations = i.annotations := by
  rw [h.eq]

theorem setCondition (h : RecordsResult i j reported) {type : String}
    (htype : type ∈ serverConditions) {status : ConditionStatus} {reason message : String} :
    RecordsResult i (j.setCondition type status reason message) reported where
  eq := by
    rw [h.eq]
    rfl
  conditions c hc := by
    rcases Condition.mem_set hc with rfl | hc
    · exact .inl (mem_append_left _ htype)
    · exact h.conditions c hc
  slots := h.slots

theorem setRecoveryWindowCondition (h : RecordsResult i j reported) :
    RecordsResult i (setRecoveryWindowCondition j) reported := by
  unfold Mspsql.setRecoveryWindowCondition
  split
  · exact h
  · split <;> exact h.setCondition (by decide)

end RecordsResult

theorem mem_copied {generation : Nat} {reported before : List Condition} {c : Condition}
    (h : c ∈ reported.foldl (fun cs c =>
      Condition.set cs { c with observedGeneration := generation }) before) :
    c.type ∈ reported.map (·.type) ∨ c ∈ before := by
  induction reported generalizing before with
  | nil => exact .inr h
  | cons d rest ih =>
    rcases ih h with h | h
    · exact .inl (mem_cons_of_mem _ h)
    rcases Condition.mem_set h with rfl | h
    · exact .inl mem_cons_self
    · exact .inr h

theorem recordInstanceDirectiveResult_records (parseTime : String → Option Time)
    (siteName : String) (result : PlanResult) (i : MultiSitePostgres) :
    RecordsResult i (recordInstanceDirectiveResult parseTime siteName result i)
      result.conditions := by
  have hcopied : ∀ c ∈ (copyConditions i result.conditions).status.conditions,
      c.type ∈ serverConditions ++ result.conditions.map (·.type) ∨ c ∈ i.status.conditions :=
    fun c hc => (mem_copied hc).imp (mem_append_right _) id
  unfold recordInstanceDirectiveResult
  split
  · refine RecordsResult.setRecoveryWindowCondition (RecordsResult.setCondition ?_ (by decide))
    rw [updateBackupEvidence_eq]
    exact ⟨rfl, hcopied, markBackupScheduleOperation_slots ..⟩
  · refine RecordsResult.setCondition ?_ (by decide)
    exact ⟨rfl, hcopied, markBackupScheduleOperation_slots ..⟩

theorem recordUpgradeBackupEvidence_records (parseTime : String → Option Time)
    (result : PlanResult) (i : MultiSitePostgres) :
    RecordsResult i (recordUpgradeBackupEvidence parseTime result i) [] := by
  refine RecordsResult.setRecoveryWindowCondition (RecordsResult.setCondition ?_ (by decide))
  rw [updateBackupEvidence_eq]
  exact ⟨rfl, fun _ => .inr, rfl⟩

theorem receivePlanMessage_ok {now : Time} {registration : String} {message : PlanMessage}
    {i j : MultiSitePostgres} (h : receivePlanMessage now registration message i = .ok j) :
    ∃ entry, siteIndex? i.status.sites registration = some entry ∧
      j = { i with status := { i.status with
        sites := i.status.sites.modify entry fun site =>
          stampGeneration i.generation (message.update now site) } } := by
  unfold receivePlanMessage updateInstanceSite at h
  split at h
  · cases h
  · rename_i entry hentry
    exact ⟨entry, hentry, (Except.ok.inj h).symm⟩

namespace HubState

/-! ## Plan writes -/

theorem writePlan_eq (s : HubState) (plan : SitePlan) : s.writePlan plan = { s with
      planMaps := (s.writePlan plan).planMaps, written := (s.writePlan plan).written } := by
  unfold writePlan
  split <;> rfl

theorem writePlans_eq (s : HubState) (plans : List SitePlan) : s.writePlans plans = { s with
      planMaps := (s.writePlans plans).planMaps, written := (s.writePlans plans).written } := by
  induction plans generalizing s with
  | nil => rfl
  | cons plan rest ih =>
    have h : s.writePlans (plan :: rest) = (s.writePlan plan).writePlans rest := rfl
    rw [h, ih, writePlan_eq]

theorem mem_writePlans {s : HubState} {plans : List SitePlan} {p : SitePlan}
    (h : p ∈ (s.writePlans plans).written) : p ∈ plans ∨ p ∈ s.written := by
  induction plans generalizing s with
  | nil => exact .inr h
  | cons plan rest ih =>
    rcases ih h with h | h
    · exact .inl (mem_cons_of_mem _ h)
    unfold writePlan at h
    split at h
    · exact .inr h
    · exact (mem_cons.mp h).imp (fun e => mem_cons.mpr (.inl e)) id

theorem subset_writePlans (s : HubState) (plans : List SitePlan) :
    ∀ p ∈ s.written, p ∈ (s.writePlans plans).written := by
  induction plans generalizing s with
  | nil => exact fun _ => id
  | cons plan rest ih =>
    refine fun p hp => ih _ p ?_
    unfold writePlan
    split
    · exact hp
    · exact mem_cons_of_mem _ hp

theorem applyOutcome_written (s : HubState) (view : MultiSitePostgres) (o : Outcome)
    (writes : Nat) :
    (s.applyOutcome view o writes).written = (s.writePlans (o.plans.take writes)).written := by
  rw [applyOutcome]
  dsimp only
  split
  · rfl
  split
  · rfl
  · split <;> rfl

theorem applyOutcome_subset (s : HubState) (view : MultiSitePostgres) (o : Outcome)
    (writes : Nat) : ∀ p ∈ s.written, p ∈ (s.applyOutcome view o writes).written := by
  rw [applyOutcome_written]
  exact subset_writePlans s _

theorem applyOutcome_eq (s : HubState) (view : MultiSitePostgres) (o : Outcome) (writes : Nat) :
    s.applyOutcome view o writes = { s with
      stored := (s.applyOutcome view o writes).stored
      versions := (s.applyOutcome view o writes).versions
      planMaps := (s.applyOutcome view o writes).planMaps
      directives := (s.applyOutcome view o writes).directives
      pending := (s.applyOutcome view o writes).pending
      written := (s.applyOutcome view o writes).written } := by
  rw [applyOutcome, writePlans_eq]
  dsimp only
  split
  · rfl
  split
  · rfl
  · split <;> rfl

/-- The instance an outcome leaves: it can only change the finalizer. -/
theorem applyOutcome_stored (s : HubState) (view : MultiSitePostgres) (o : Outcome) (writes : Nat) :
    ((s.applyOutcome view o writes).stored = s.stored ∧
        (s.applyOutcome view o writes).versions = s.versions) ∨
      ∃ finalizer, (s.applyOutcome view o writes).stored =
          { s.stored with finalizer := finalizer } ∧
        (s.applyOutcome view o writes).versions =
          { s.stored with finalizer := finalizer } :: s.versions := by
  rw [applyOutcome, writePlans_eq]
  dsimp only
  split
  · exact .inl ⟨rfl, rfl⟩
  split
  · exact .inr ⟨true, rfl, rfl⟩
  split
  · exact .inr ⟨false, rfl, rfl⟩
  · exact .inl ⟨rfl, rfl⟩

theorem applyOutcome_finalizer (s : HubState) (view : MultiSitePostgres) (o : Outcome)
    (writes : Nat) : ∃ finalizer, (s.applyOutcome view o writes).stored =
      { s.stored with finalizer := finalizer } := by
  rcases s.applyOutcome_stored view o writes with ⟨hstored, -⟩ | ⟨finalizer, hstored, -⟩
  · exact ⟨s.stored.finalizer, hstored⟩
  · exact ⟨finalizer, hstored⟩

theorem applyOutcome_planMaps_eq (s : HubState) (view : MultiSitePostgres) (o : Outcome)
    (writes : Nat) :
    (s.applyOutcome view o writes).planMaps =
      if writes < o.plans.length then (s.writePlans (o.plans.take writes)).planMaps
      else if o.deletePlans then ∅ else (s.writePlans (o.plans.take writes)).planMaps := by
  rw [applyOutcome]
  dsimp only
  split
  · rfl
  split
  · rfl
  · split <;> rfl

theorem applyOutcome_status (s : HubState) (view : MultiSitePostgres) (o : Outcome) (writes : Nat) :
    (s.applyOutcome view o writes).stored.status = s.stored.status ∧
      (s.applyOutcome view o writes).stored.spec = s.stored.spec := by
  obtain ⟨finalizer, hstored⟩ := s.applyOutcome_finalizer view o writes
  rw [hstored]
  exact ⟨rfl, rfl⟩

theorem applyOutcome_pending (s : HubState) (view : MultiSitePostgres) (o : Outcome)
    (writes : Nat) :
    (s.applyOutcome view o writes).pending =
      if writes < o.plans.length then s.pending else o.status := by
  rw [applyOutcome, writePlans_eq]
  dsimp only
  split
  · rfl
  split
  · rfl
  · split <;> rfl

theorem applyOutcome_directives (s : HubState) (view : MultiSitePostgres) (o : Outcome)
    (writes : Nat) :
    (s.applyOutcome view o writes).directives =
      if writes < o.plans.length then s.directives
      else if o.deletePlans then o.directives.filter (·.ownerUID ≠ s.stored.uid)
      else o.directives := by
  rw [applyOutcome, writePlans_eq]
  dsimp only
  split
  · rfl
  split
  · rfl
  · split <;> rfl

theorem applyOutcome_complete (s : HubState) (view : MultiSitePostgres) {o : Outcome}
    {writes : Nat} (h : o.plans.length ≤ writes) :
    (∃ finalizer, (s.applyOutcome view o writes).stored =
        { s.stored with finalizer := finalizer }) ∧
      (s.applyOutcome view o writes).pending = o.status ∧
      ∀ p ∈ (s.applyOutcome view o writes).written, p ∈ o.plans ∨ p ∈ s.written := by
  refine ⟨s.applyOutcome_finalizer view o writes, ?_, fun p hp => ?_⟩
  · rw [applyOutcome_pending, if_neg (by omega)]
  · rw [applyOutcome_written, take_of_length_le h] at hp
    exact mem_writePlans hp

/-! ## Upgrade writes -/

@[simp] theorem applyUpgradeWrites_cons (s : HubState) (name : String) (w : UpgradeWrite)
    (rest : List UpgradeWrite) :
    s.applyUpgradeWrites name (w :: rest) =
      (applyUpgradeWrite name s w).applyUpgradeWrites name rest := rfl

theorem applyUpgradeWrite_eq (name : String) (s : HubState) (w : UpgradeWrite) :
    applyUpgradeWrite name s w = { s with
      stored := (applyUpgradeWrite name s w).stored
      versions := (applyUpgradeWrite name s w).versions
      upgrades := (applyUpgradeWrite name s w).upgrades
      directives := (applyUpgradeWrite name s w).directives
      advances := (applyUpgradeWrite name s w).advances } := by
  cases w with
  | patchInstance kind base modified =>
    unfold applyUpgradeWrite
    dsimp only
    split <;> rfl
  | setStatus status | addFinalizer | removeFinalizer | createDirective map => rfl

theorem applyUpgradeWrites_eq (s : HubState) (name : String) (writes : List UpgradeWrite) :
    s.applyUpgradeWrites name writes = { s with
      stored := (s.applyUpgradeWrites name writes).stored
      versions := (s.applyUpgradeWrites name writes).versions
      upgrades := (s.applyUpgradeWrites name writes).upgrades
      directives := (s.applyUpgradeWrites name writes).directives
      advances := (s.applyUpgradeWrites name writes).advances } := by
  induction writes generalizing s with
  | nil => rfl
  | cons w rest ih => rw [applyUpgradeWrites_cons, ih, applyUpgradeWrite_eq]

/-- The rule for what patches of the instance keep. -/
theorem applyUpgradeWrites_stored {P : MultiSitePostgres → Prop} {s : HubState} (h : P s.stored)
    (hpatch : ∀ base modified i, P i → P (patchInstance base modified i)) (name : String)
    (writes : List UpgradeWrite) : P (s.applyUpgradeWrites name writes).stored := by
  induction writes generalizing s with
  | nil => exact h
  | cons w rest ih =>
    refine ih ?_
    cases w with
    | patchInstance kind base modified =>
      unfold applyUpgradeWrite
      dsimp only
      split <;> exact hpatch base modified _ h
    | _ => exact h

theorem applyUpgradeWrites_status (s : HubState) (name : String) (writes : List UpgradeWrite) :
    (s.applyUpgradeWrites name writes).stored.status = s.stored.status :=
  applyUpgradeWrites_stored (P := (·.status = s.stored.status)) rfl (fun _ _ _ h => h) name writes

/-! ## Every step -/

def markUpgrade (s : HubState) (name : String) (condition : Condition) : HubState :=
  s.updateUpgrade name fun u => { u with status := { u.status with
    conditions := Condition.set u.status.conditions condition } }

inductive StepCase (config : HubConfig) (s : HubState) : HubEvent → HubState → Prop where
  | issue {view : MultiSitePostgres} {reads : HubReads} {fails : String → Bool} {now : Time}
      {writes : Nat} (view_mem : view ∈ s.versions) (pending : s.pending = none) :
      StepCase config s (.issue view reads fails now writes)
        (s.applyOutcome view (s.outcome config view reads fails now) writes)
  | commit {desired : MultiSitePostgresStatus} (pending : s.pending = some desired) :
      StepCase config s .commit
        { s.storeStatus (mergeReconciledStatus s.stored.status desired) with pending := none }
  | abandon : StepCase config s .abandon { s with pending := none }
  | upgrade {name : String} {view : MultiSitePostgres} {reads : HubReads} {now : Time}
      {writes : Nat} {u : PostgresUpgrade} (found : s.upgrade? name = some u)
      (view_mem : view ∈ s.versions) :
      StepCase config s (.upgrade name view reads now writes) (s.applyUpgradeWrites name
          ((reconcileUpgrade (s.readsOf reads) u (some view) now s.directives).take writes))
  | apply {plan : SitePlan} (written : plan ∈ s.written) :
      StepCase config s (.apply plan) { s with applied := plan :: s.applied }
  | message {registration : String} {now : Time} {message : PlanMessage} {entry : Nat}
      (honest : s.reportsHonestly registration message = true)
      (found : siteIndex? s.stored.status.sites registration = some entry) :
      StepCase config s (.message registration now message) (s.storeStatus { s.stored.status with
          sites := s.stored.status.sites.modify entry fun site =>
            stampGeneration s.stored.generation (message.update now site) })
  | refused {registration : String} {now : Time} {message : PlanMessage} :
      StepCase config s (.message registration now message) s
  | backupResult {registration : String} {parseTime : String → Option Time}
      {result : PlanResult} {recorded : MultiSitePostgres}
      (records : RecordsResult s.stored recorded result.conditions) :
      StepCase config s (.backupResult registration parseTime result) (s.store recorded)
  | upgradeBackupSucceeded {name : String} {condition : Condition}
      {parseTime : String → Option Time} {result : PlanResult} {recorded : MultiSitePostgres}
      (records : RecordsResult s.stored recorded []) :
      StepCase config s (.upgradeBackupResult name condition parseTime result)
        ((s.markUpgrade name condition).store recorded)
  | upgradeBackupFailed {name : String} {condition : Condition}
      {parseTime : String → Option Time} {result : PlanResult} :
      StepCase config s (.upgradeBackupResult name condition parseTime result)
        (s.markUpgrade name condition)
  | edit {spec : MultiSitePostgresSpec} (admitted : Admitted config.library spec) :
      StepCase config s (.edit spec)
        (s.store { s.stored with spec := spec, generation := s.stored.generation + 1 })
  | annotate {annotations : Annotations} : StepCase config s (.annotate annotations)
        (s.store { s.stored with annotations := { s.stored.annotations with
          restoreUID := annotations.restoreUID
          restoreName := annotations.restoreName
          restoreSourceUID := annotations.restoreSourceUID
          restorePhase := annotations.restorePhase
          forceOrphan := annotations.forceOrphan } })
  | delete : StepCase config s .delete
      (s.store { s.stored with deleting := true, generation := s.stored.generation + 1 })
  | createUpgrade {u : PostgresUpgrade} (uid : u.uid ≠ "") (named : u.name ≠ "")
      (fresh : u.uid ∉ s.upgradeUIDs) (unique : u.name ∉ s.upgrades.map (·.name))
      (deleting : u.deleting = false) : StepCase config s (.createUpgrade u)
        { s with upgrades := u :: s.upgrades, upgradeUIDs := u.uid :: s.upgradeUIDs }
  | deleteUpgrade {name : String} {forceAbandon : Bool} :
      StepCase config s (.deleteUpgrade name forceAbandon)
        (s.updateUpgrade name fun u => { u with deleting := true, forceAbandon := forceAbandon })

theorem step_case {config : HubConfig} {s t : HubState} {e : HubEvent}
    (h : s.step config e = some t) : StepCase config s e t := by
  cases e with
  | issue view reads fails now writes =>
    simp only [step] at h
    split at h
    · rename_i hview
      exact Option.some.inj h ▸ .issue hview.1 hview.2
    · cases h
  | commit =>
    simp only [step] at h
    split at h
    · rename_i hdesired
      exact Option.some.inj h ▸ .commit hdesired
    · cases h
  | abandon => exact Option.some.inj h ▸ .abandon
  | upgrade name view reads now writes =>
    simp only [step] at h
    split at h
    · rename_i hu
      split at h
      · rename_i hview
        exact Option.some.inj h ▸ .upgrade hu hview
      · cases h
    · cases h
  | apply plan =>
    simp only [step] at h
    split at h
    · rename_i hwritten
      exact Option.some.inj h ▸ .apply hwritten
    · cases h
  | message registration now message =>
    simp only [step] at h
    split at h
    · rename_i hhonest
      split at h
      · rename_i hupdated
        obtain ⟨entry, hentry, rfl⟩ := receivePlanMessage_ok hupdated
        exact Option.some.inj h ▸ .message hhonest hentry
      · exact Option.some.inj h ▸ .refused
    · cases h
  | backupResult registration parseTime result =>
    exact Option.some.inj h ▸ .backupResult (recordInstanceDirectiveResult_records ..)
  | upgradeBackupResult name condition parseTime result =>
    simp only [step] at h
    split at h
    · exact Option.some.inj h ▸
        .upgradeBackupSucceeded (recordUpgradeBackupEvidence_records parseTime result s.stored)
    · exact Option.some.inj h ▸ .upgradeBackupFailed
  | edit spec =>
    simp only [step] at h
    split at h
    · rename_i hadm
      exact Option.some.inj h ▸ .edit hadm
    · cases h
  | annotate annotations => exact Option.some.inj h ▸ .annotate
  | delete => exact Option.some.inj h ▸ .delete
  | createUpgrade u =>
    simp only [step] at h
    split at h
    · rename_i hu
      exact Option.some.inj h ▸ .createUpgrade hu.1 hu.2.1 hu.2.2.1 hu.2.2.2.1 hu.2.2.2.2
    · cases h
  | deleteUpgrade name forceAbandon => exact Option.some.inj h ▸ .deleteUpgrade

end HubState

end Mspsql
