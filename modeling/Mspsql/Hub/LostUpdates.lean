import Mspsql.Hub.SystemSpec
import Mspsql.Lib.Lists
import Mspsql.Sample

/-!
# Backup results recorded while a reconcile is running

A reconcile computes its status from the instance it has read and merges it into the
instance stored by then.  The merge replays every condition it has read and replaces the
schedule entries as a whole.  A backup result that the control server records in between
survives only where the reconcile has nothing to overwrite it with.
-/

namespace Mspsql

open MultiSitePostgres List

/-! ## What a reconcile writes over a backup result -/

/-- The instance and the permission with which a reconcile reaches its backup schedules. -/
def schedulePassInput (reads : HubReads) (now : Time) (view : MultiSitePostgres) :
    Option (MultiSitePostgres × Bool) :=
  if view.deleting ∨ view.finalizer = false then none
  else match prepare reads view with
  | .error _ => none
  | .ok (prepared, inputs) =>
    let revised := withRevision prepared inputs
    if (signedPlans reads (sitePlan revised inputs now) revised.spec.sites).2 = false then none
    else
      let settled := settle revised inputs now
      some (settled, backupSchedulingReady settled inputs.restore inputs.upgrade inputs.major
        (lifecycleOperationActive reads settled))

def schedulePass (config : BackupConfig) (reads : HubReads) (directives : List DirectiveMap)
    (fails : String → Bool) (now : Time) (view : MultiSitePostgres) :
    Option (Except BackupError (List BackupScheduleStatus)) :=
  (schedulePassInput reads now view).map fun (settled, canRun) =>
    (reconcileBackupSchedules config settled now canRun fails directives).2

structure KeepsServerConditions (before after : List Condition) : Prop where
  found : ∀ type ∈ serverConditions, Condition.find? after type = Condition.find? before type
  distinct : (before.map (·.type)).Nodup → (after.map (·.type)).Nodup

variable {i view : MultiSitePostgres} {now : Time} {config : BackupConfig} {fails : String → Bool}
  {canRun : Bool} {maps : List DirectiveMap}

theorem Observed.keepsServerConditions {j : MultiSitePostgres} (h : Observed i j) :
    KeepsServerConditions i.status.conditions j.status.conditions where
  found type htype := by
    have hother : ∀ t ∈ serverConditions, t ∉ observedConditions := by decide
    exact h.others type (hother type htype)
  distinct := h.distinct

theorem KeepsServerConditions.set {before after : List Condition} {c : Condition}
    (h : KeepsServerConditions before after) (hc : c.type ∉ serverConditions) :
    KeepsServerConditions before (Condition.set after c) where
  found type htype := by
    have hne : c.type ≠ type := fun heq => hc (heq ▸ htype)
    rw [Condition.find?_set, if_neg hne]
    exact h.found type htype
  distinct hbefore := Condition.nodup_set (h.distinct hbefore)

inductive StatusCase (config : BackupConfig) (reads : HubReads) (directives : List DirectiveMap)
    (fails : String → Bool) (now : Time) (view : MultiSitePostgres)
    (d : MultiSitePostgresStatus) : Prop where
  /-- The schedules are not reached. -/
  | early (pass : schedulePassInput reads now view = none)
      (conditions : KeepsServerConditions view.status.conditions d.conditions)
      (schedules : d.backupSchedules = view.status.backupSchedules)
  /-- A schedule fails, which is recorded as a condition. -/
  | invalid {text : String}
      (pass : schedulePass config reads directives fails now view = some (.error (.failed text)))
      (ready : ∃ c, Condition.find? d.conditions "BackupReady" = some c ∧
        c.reason = "ScheduleInvalid")
      (distinct : (view.status.conditions.map (·.type)).Nodup → (d.conditions.map (·.type)).Nodup)
  | scheduled {settled : MultiSitePostgres} {canRun : Bool} {statuses : List BackupScheduleStatus}
      (input : schedulePassInput reads now view = some (settled, canRun))
      (core : settled.spec = view.spec ∧
        settled.status.backupSchedules = view.status.backupSchedules)
      (pass : (reconcileBackupSchedules config settled now canRun fails directives).2 =
        .ok statuses)
      (conditions : KeepsServerConditions view.status.conditions d.conditions)
      (schedules : d.backupSchedules = statuses)

theorem Waits.keepsServerConditions {i d : MultiSitePostgresStatus} (h : Waits i d) :
    KeepsServerConditions i.conditions d.conditions := by
  obtain ⟨c, hc, hset⟩ := h.condition
  rw [hset]
  exact KeepsServerConditions.set ⟨fun _ _ => rfl, id⟩ (hc ▸ by decide)

theorem settled_keepsServerConditions {prepared : MultiSitePostgres}
    (hobs : Observed view prepared) (inputs : PlanInputs) (now : Time) :
    KeepsServerConditions view.status.conditions
      (settle (withRevision prepared inputs) inputs now).status.conditions := by
  have hview := hobs.keepsServerConditions
  have hkept := (settle_observed (withRevision prepared inputs) inputs now).keepsServerConditions
  rw [recordSites, withRevision_conditions] at hkept
  exact ⟨fun type htype => (hkept.found type htype).trans (hview.found type htype),
    fun hdistinct => hkept.distinct (hview.distinct hdistinct)⟩

theorem reconcile_statusCase {reads : HubReads} {directives : List DirectiveMap}
    {d : MultiSitePostgresStatus}
    (h : (reconcile config reads directives fails now view).status = some d) :
    StatusCase config reads directives fails now view d := by
  have hexit := reconcile_exit config reads directives fails now view
  generalize reconcile config reads directives fails now view = o at h hexit
  cases hexit with
  | ignored | released | adopted => cases h
  | blocked deleting waits =>
    rw [← Option.some.inj h]
    exact .early (if_pos (.inl deleting)) waits.keepsServerConditions waits.backupSchedules
  | deletion deleting hrevised waits =>
    subst hrevised
    exact .early (if_pos (.inl deleting)) (waits d h).2.keepsServerConditions
      (waits d h).2.backupSchedules
  | rejected deleting finalizer prepare withdrawn =>
    rw [← Option.some.inj h]
    refine .early ?_ withdrawn.keepsServerConditions (backupSchedules_of_core withdrawn.core)
    rw [schedulePassInput, if_neg (not_or.mpr ⟨deleting ▸ nofun, finalizer ▸ nofun⟩), prepare]
  | @issued deleting finalizer prepared inputs _ prepare observed _ =>
    have hconds := settled_keepsServerConditions observed inputs now
    have hcore := settled_core observed inputs now
    unfold issue at h
    dsimp only at h
    split at h
    · cases h
    rename_i hcomplete
    have hinput : schedulePassInput reads now view = some
        (settle (withRevision prepared inputs) inputs now, backupSchedulingReady
          (settle (withRevision prepared inputs) inputs now) inputs.restore inputs.upgrade
          inputs.major (lifecycleOperationActive reads
            (settle (withRevision prepared inputs) inputs now))) := by
      rw [schedulePassInput, if_neg (not_or.mpr ⟨deleting ▸ nofun, finalizer ▸ nofun⟩), prepare]
      exact if_neg hcomplete
    split at h
    · cases h
    · rename_i text hpass
      rw [← Option.some.inj h]
      have hfailed : schedulePass config reads directives fails now view =
          some (.error (.failed text)) := by
        rw [schedulePass, hinput]
        exact congrArg (fun pass => some pass.2) hpass
      exact .invalid hfailed ⟨_, (Condition.find?_set ..).trans (if_pos rfl), rfl⟩
        fun hdistinct => Condition.nodup_set (hconds.distinct hdistinct)
    · rename_i hpass
      rw [← Option.some.inj h]
      refine .scheduled hinput ⟨congrArg (·.spec) hcore,
        congrArg (·.status.backupSchedules) hcore⟩ ?_ hconds rfl
      rw [hpass]

/-! ## The entries of the schedules -/

def configuredTypes (config : BackupConfig) (view : MultiSitePostgres) : List String :=
  match view.spec.backup with
  | none => []
  | some backup =>
    (configuredBackupSchedules backup config.defaultBackupSchedule).map (·.backupType)

def slotDue (view : MultiSitePostgres) (now : Time) (type : String) : Bool :=
  (previousBackupScheduleStatus view.status.backupSchedules type).nextScheduledAt.any (· ≤ now)

theorem reconcileBackupSchedule_entry {backup : BackupSpec} {configured : BackupSchedule}
    {entry : BackupScheduleStatus}
    (h : (reconcileBackupSchedule config i backup now canRun fails maps configured).2 =
      .ok entry) :
    entry.type = configured.backupType ∧
      ((canRun && slotDue i now configured.backupType) = false →
        entry.operation = (previousBackupScheduleStatus i.status.backupSchedules
          configured.backupType).operation) := by
  unfold reconcileBackupSchedule at h
  split at h
  · cases h
  dsimp only at h
  split at h
  · rw [← Except.ok.inj h]
    exact ⟨rfl, fun _ => rfl⟩
  rename_i hdue
  split at h
  · rw [← Except.ok.inj h]
    exact ⟨rfl, fun _ => rfl⟩
  rename_i hruns
  split at h
  · cases h
  split at h
  · cases h
  rw [← Except.ok.inj h]
  refine ⟨rfl, fun hidle => ?_⟩
  obtain ⟨hnow, hcan⟩ := not_or.mp hruns
  have hcan : canRun = true := Bool.not_eq_false _ ▸ hcan
  have htaken : (canRun && slotDue i now configured.backupType) = true := by
    rw [slotDue, hdue, hcan]
    exact decide_eq_true (not_lt.mp hnow)
  rw [htaken] at hidle
  cases hidle

theorem reconcileBackupScheduleList_entries {backup : BackupSpec}
    {configured : List BackupSchedule} {statuses : List BackupScheduleStatus}
    (h : (reconcileBackupScheduleList config i backup now canRun fails maps configured).2 =
      .ok statuses) :
    statuses.map (·.type) = configured.map (·.backupType) ∧
      ∀ entry ∈ statuses, (canRun && slotDue i now entry.type) = false → entry.operation =
        (previousBackupScheduleStatus i.status.backupSchedules entry.type).operation := by
  induction configured generalizing maps statuses with
  | nil =>
    rw [← Except.ok.inj h]
    exact ⟨rfl, nofun⟩
  | cons first rest ih =>
    rw [reconcileBackupScheduleList] at h
    split at h
    · cases h
    rename_i maps' entry hfirst
    split at h
    · cases h
    rename_i maps'' later hlater
    rw [← Except.ok.inj h]
    obtain ⟨htype, hop⟩ := reconcileBackupSchedule_entry (congrArg Prod.snd hfirst)
    obtain ⟨htypes, hoperations⟩ := ih (congrArg Prod.snd hlater)
    refine ⟨by rw [map_cons, map_cons, htype, htypes], fun e he => ?_⟩
    rcases mem_cons.mp he with rfl | he
    · rw [htype]
      exact hop
    · exact hoperations e he

theorem reconcileBackupSchedules_entries {statuses : List BackupScheduleStatus}
    (hspec : i.spec = view.spec)
    (hschedules : i.status.backupSchedules = view.status.backupSchedules)
    (h : (reconcileBackupSchedules config i now canRun fails maps).2 = .ok statuses) :
    statuses.map (·.type) = configuredTypes config view ∧
      ∀ entry ∈ statuses, (canRun && slotDue view now entry.type) = false → entry.operation =
        (previousBackupScheduleStatus view.status.backupSchedules entry.type).operation := by
  unfold configuredTypes
  unfold reconcileBackupSchedules at h
  rw [hspec] at h
  rcases hbackup : view.spec.backup with _ | backup
  · rw [hbackup] at h
    rw [← Except.ok.inj h]
    exact ⟨rfl, nofun⟩
  · rw [hbackup] at h
    have hentries := reconcileBackupScheduleList_entries h
    unfold slotDue at hentries ⊢
    rw [hschedules] at hentries
    exact hentries

theorem operation_eq_some_iff {schedules : List BackupScheduleStatus}
    (hdistinct : (schedules.map (·.type)).Nodup) {type : String}
    {operation : OperationProgressStatus} :
    (previousBackupScheduleStatus schedules type).operation = some operation ↔
      ∃ entry ∈ schedules, entry.type = type ∧ entry.operation = some operation := by
  constructor
  · intro h
    unfold previousBackupScheduleStatus at h
    rcases hfind : schedules.find? (fun s => s.type = type) with _ | entry
    · rw [hfind] at h
      cases h
    · rw [hfind] at h
      exact ⟨entry, mem_of_find?_eq_some hfind, by simpa using find?_some hfind, h⟩
  · rintro ⟨entry, hentry, rfl, hop⟩
    rw [previousBackupScheduleStatus, Lists.find?_of_nodup hdistinct hentry]
    exact hop

/-! ## A result recorded in between -/

/-- A reconcile has read `view`; before it writes its status, a backup result is recorded in
the instance stored by then, `current`. -/
structure Race where
  config : BackupConfig
  reads : HubReads
  directives : List DirectiveMap
  fails : String → Bool
  now : Time
  view : MultiSitePostgres
  current : MultiSitePostgres
  parseTime : String → Option Time
  siteName : String
  result : PlanResult

def sayTheSame (c c' : Condition) : Prop :=
  c.status = c'.status ∧ c.reason = c'.reason ∧ c.message = c'.message
deriving Decidable

namespace Race

variable (r : Race)

def recorded : MultiSitePostgres :=
  recordInstanceDirectiveResult r.parseTime r.siteName r.result r.current

def outcome : Outcome := reconcile r.config r.reads r.directives r.fails r.now r.view

def pass : Option (Except BackupError (List BackupScheduleStatus)) :=
  schedulePass r.config r.reads r.directives r.fails r.now r.view

def schedule? : Option BackupScheduleStatus :=
  r.current.status.backupSchedules.find? fun s =>
    s.operation.any (·.operationUID = r.result.operationUID)

def operation : OperationProgressStatus :=
  directiveResultOperation r.result "ScheduledBackup" r.siteName

def sets (type : String) : Bool :=
  type = "BackupReady" ∨ type ∈ r.result.conditions.map (·.type) ∨
    (type = "RecoveryWindowAvailable" ∧ directiveSucceeded r.result.conditions = true ∧
      r.recorded.status.recoveryWindowStart.isSome)

def schedulesNewer (type : String) : Bool :=
  match schedulePassInput r.reads r.now r.view, r.pass with
  | some (_, canRun), some (.ok _) =>
    canRun && slotDue r.view r.now type && decide (type ∈ configuredTypes r.config r.view)
  | _, _ => false

@[mk_iff resultKept_fields] structure ResultKept (final : MultiSitePostgresStatus) : Prop where
  conditions : ∀ type ∈ serverConditions, r.sets type = true →
    ∀ c ∈ Condition.find? r.recorded.status.conditions type,
      ∃ c' ∈ Condition.find? final.conditions type, sayTheSame c' c
  operation : ∀ entry ∈ r.schedule?, r.schedulesNewer entry.type = false →
    ∃ entry' ∈ final.backupSchedules, entry'.type = entry.type ∧
      entry'.operation = some r.operation

instance (final : MultiSitePostgresStatus) : Decidable (r.ResultKept final) :=
  decidable_of_iff _ (resultKept_fields r final).symm

/-- The instance that was read has nothing to overwrite the result with: no schedule fails,
it has the conditions not at all or as the result sets them, and an entry the result belongs
to is still configured and already has the result. -/
structure NothingToLose : Prop where
  schedules : ∀ text, r.pass ≠ some (.error (.failed text))
  conditions : ∀ type ∈ serverConditions, r.sets type = true →
    ∀ c ∈ Condition.find? r.recorded.status.conditions type,
      ∀ c' ∈ Condition.find? r.view.status.conditions type, sayTheSame c' c
  operation : ∀ entry ∈ r.schedule?, r.schedulesNewer entry.type = false →
    (r.pass.isSome = true → entry.type ∈ configuredTypes r.config r.view) ∧
      ∃ entry' ∈ r.view.status.backupSchedules, entry'.type = entry.type ∧
        entry'.operation = some r.operation

theorem recorded_backupReady : ∃ c, Condition.find? r.recorded.status.conditions "BackupReady" =
    some c ∧ (c.reason = "BackupVerified" ∨ c.reason = "BackupFailed") := by
  have hset : ∀ (i : MultiSitePostgres) (status : ConditionStatus) (reason message : String),
      ∃ c, Condition.find? (i.setCondition "BackupReady" status reason message).status.conditions
        "BackupReady" = some c ∧ c.reason = reason :=
    fun _ _ _ _ => ⟨_, (Condition.find?_set ..).trans (if_pos rfl), rfl⟩
  have hwindow : "RecoveryWindowAvailable" ≠ "BackupReady" := by decide
  unfold recorded recordInstanceDirectiveResult
  dsimp only
  split
  · unfold setRecoveryWindowCondition
    split
    · obtain ⟨c, hc, hreason⟩ := hset _ _ _ _
      exact ⟨c, hc, .inl hreason⟩
    split
    all_goals
      obtain ⟨c, hc, hreason⟩ := hset _ _ _ _
      exact ⟨c, (Condition.find?_set ..).trans ((if_neg hwindow).trans hc), .inl hreason⟩
  · obtain ⟨c, hc, hreason⟩ := hset _ _ _ _
    exact ⟨c, hc, .inr hreason⟩

variable {r} {d later : MultiSitePostgresStatus}

theorem find?_merged (hlater : later.conditions = r.recorded.status.conditions)
    (hdistinct : (d.conditions.map (·.type)).Nodup) (type : String) :
    Condition.find? (mergeReconciledStatus later d).conditions type =
      (Condition.find? d.conditions type).or
        (Condition.find? r.recorded.status.conditions type) := by
  rw [← hlater]
  exact Condition.find?_foldl_set hdistinct type

theorem conditions_kept_iff (hlater : later.conditions = r.recorded.status.conditions)
    (hdistinct : (r.view.status.conditions.map (·.type)).Nodup)
    (hd : KeepsServerConditions r.view.status.conditions d.conditions) :
    (∀ type ∈ serverConditions, r.sets type = true →
      ∀ c ∈ Condition.find? r.recorded.status.conditions type,
        ∃ c' ∈ Condition.find? (mergeReconciledStatus later d).conditions type,
          sayTheSame c' c) ↔
    ∀ type ∈ serverConditions, r.sets type = true →
      ∀ c ∈ Condition.find? r.recorded.status.conditions type,
        ∀ c' ∈ Condition.find? r.view.status.conditions type, sayTheSame c' c := by
  refine forall_congr' fun type => forall_congr' fun htype => forall_congr' fun _ => ?_
  rw [find?_merged hlater (hd.distinct hdistinct), hd.found type htype]
  refine forall_congr' fun c => forall_congr' fun hc => ?_
  rcases Condition.find? r.view.status.conditions type with _ | read
  · exact ⟨fun _ c' hc' => (by cases hc'), fun _ => ⟨c, hc, rfl, rfl, rfl⟩⟩
  constructor
  · rintro ⟨c', hc', hsame⟩ c'' hc''
    obtain rfl : c' = c'' := (Option.some.inj hc').symm.trans (Option.some.inj hc'')
    exact hsame
  · exact fun hall => ⟨read, rfl, hall read rfl⟩

/-- A result recorded between the read and the status write of a reconcile is still there
after both exactly when the reconcile had nothing to overwrite it with. -/
theorem resultKept_iff (r : Race) (d later : MultiSitePostgresStatus)
    (hd : r.outcome.status = some d) (hlater : later.conditions = r.recorded.status.conditions)
    (hconds : (r.view.status.conditions.map (·.type)).Nodup)
    (hschedules : (r.view.status.backupSchedules.map (·.type)).Nodup) :
    r.ResultKept (mergeReconciledStatus later d) ↔ r.NothingToLose := by
  cases reconcile_statusCase hd with
  | early hinput hkept hsame =>
    have hpass : r.pass = none := by rw [pass, schedulePass, hinput, Option.map_none]
    have hiff := conditions_kept_iff hlater hconds hkept
    constructor
    · refine fun h => ⟨fun text hfailed => ?_, hiff.mp h.conditions, fun entry hentry hnewer => ?_⟩
      · rw [hpass] at hfailed
        cases hfailed
      refine ⟨fun hsome => ?_, hsame ▸ h.operation entry hentry hnewer⟩
      rw [hpass] at hsome
      cases hsome
    · refine fun h => ⟨hiff.mpr h.conditions, fun entry hentry hnewer => ?_⟩
      rw [show (mergeReconciledStatus later d).backupSchedules = _ from hsame]
      exact (h.operation entry hentry hnewer).2
  | invalid hpass hready hdistinct =>
    refine ⟨fun h => ?_, fun h => absurd hpass (h.schedules _)⟩
    obtain ⟨c, hc, hreason⟩ := r.recorded_backupReady
    obtain ⟨invalid, hinvalid, htext⟩ := hready
    obtain ⟨c', hc', -, hsame, -⟩ := h.conditions "BackupReady" (by decide) rfl c hc
    rw [find?_merged hlater (hdistinct hconds), hinvalid] at hc'
    rw [← Option.some.inj hc', htext] at hsame
    rcases hreason with hreason | hreason
    · exact absurd (hsame.trans hreason) (by decide)
    · exact absurd (hsame.trans hreason) (by decide)
  | @scheduled settled canRun statuses hinput hcore hpass hkept hnew =>
    obtain ⟨htypes, hoperations⟩ := reconcileBackupSchedules_entries hcore.1 hcore.2 hpass
    have hok : r.pass = some (.ok statuses) := by
      rw [pass, schedulePass, hinput]
      exact congrArg some hpass
    have hidle : ∀ type, r.schedulesNewer type = false → type ∈ configuredTypes r.config r.view →
        (canRun && slotDue r.view r.now type) = false := by
      intro type hnewer hconfigured
      unfold schedulesNewer at hnewer
      rw [hinput, hok] at hnewer
      dsimp only at hnewer
      rwa [decide_eq_true hconfigured, Bool.and_true] at hnewer
    have hiff := conditions_kept_iff hlater hconds hkept
    constructor
    · refine fun h => ⟨fun text hfailed => ?_, hiff.mp h.conditions, fun entry hentry hnewer => ?_⟩
      · rw [hok] at hfailed
        cases hfailed
      obtain ⟨entry', hentry', htype, hop⟩ := h.operation entry hentry hnewer
      rw [show (mergeReconciledStatus later d).backupSchedules = statuses from hnew] at hentry'
      have hconfigured : entry'.type ∈ configuredTypes r.config r.view :=
        htypes ▸ mem_map_of_mem hentry'
      have hkeeps := hoperations entry' hentry' (hidle _ (htype ▸ hnewer) hconfigured)
      rw [htype] at hconfigured hkeeps
      exact ⟨fun _ => hconfigured, (operation_eq_some_iff hschedules).mp (hkeeps.symm.trans hop)⟩
    · refine fun h => ⟨hiff.mpr h.conditions, fun entry hentry hnewer => ?_⟩
      obtain ⟨hconfigured, hread⟩ := h.operation entry hentry hnewer
      have hconfigured := hconfigured (by rw [hok]; rfl)
      obtain ⟨entry', hentry', htype⟩ := mem_map.mp (htypes.symm ▸ hconfigured)
      refine ⟨entry', hnew.symm ▸ hentry', htype, ?_⟩
      rw [hoperations entry' hentry' (htype ▸ hidle _ hnewer hconfigured), htype]
      exact (operation_eq_some_iff hschedules).mpr hread

/-! ## Two results of `ledger` -/

def status (r : Race) : MultiSitePostgresStatus := r.outcome.status.getD {}

/-- `ledger` with one backup scheduled and the conditions it has then. -/
def ledgerWith (operation : Option OperationProgressStatus) (conditions : List Condition) :
    MultiSitePostgres :=
  { Sample.ledger with
    finalizer := true
    status := {
      conditions := conditions
      backupSchedules := [{
        type := "full"
        lastScheduledAt := some (60 * second)
        nextScheduledAt := some (86460 * second)
        operation := operation }] } }

/-- The full backup of `ledger` has succeeded while a reconcile was running. -/
def ledgerBackup (view : MultiSitePostgres) : Race where
  config := Sample.config
  reads := Sample.reads
  directives := []
  fails _ := false
  now := 120 * second
  view := view
  current := view
  parseTime _ := none
  siteName := "production-vic"
  result := {
    instanceUID := view.uid
    operationUID := scheduledBackupOperationUID view.uid "full" (60 * second)
    conditions := [Sample.reported "Succeeded" ""] }

def firstBackup : Race := ledgerBackup (ledgerWith none [])

theorem firstBackup_kept :
    firstBackup.ResultKept (mergeReconciledStatus firstBackup.recorded.status firstBackup.status) :=
  (resultKept_iff firstBackup firstBackup.status firstBackup.recorded.status (by decide +kernel)
    rfl (by decide +kernel) (by decide +kernel)).mpr {
      schedules := fun text => by
        have hpass : firstBackup.pass.any (fun pass => pass matches .error _) = false := by
          decide +kernel
        intro hfailed
        rw [hfailed] at hpass
        cases hpass
      conditions := by decide +kernel
      operation := by decide +kernel }

def backupAfterFailure : Race :=
  ledgerBackup (ledgerWith
    (some (scheduledBackupOperation Sample.ledger "full" (60 * second)))
    [{ type := "BackupReady", status := .false, reason := "BackupFailed",
       message := "The scheduled pgBackRest operation failed" }])

/-- Neither the readiness condition nor the terminal operation survives. -/
theorem backupAfterFailure_lost :
    backupAfterFailure.outcome.status = some backupAfterFailure.status ∧
      ¬ backupAfterFailure.ResultKept
        (mergeReconciledStatus backupAfterFailure.recorded.status backupAfterFailure.status) := by
  decide +kernel

end Race

end Mspsql
