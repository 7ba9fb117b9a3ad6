import Mspsql.Hub.Restore

/-!
# The restore controller

One reconcile of a `PostgresRestore` is the list of API writes it makes, in order.  Status
and finalizer updates carry the resource version of the restore that was read; the patches
of the target carry one annotation, or remove the four annotations of the restore, and have
no precondition.

The preflight runs in every reconcile until the restore is completed, also when the target
has long been created.
-/

namespace Mspsql

open List

/-- What the controller takes from elsewhere: `IsDNS1123Label`, and a time in RFC 3339. -/
structure RestoreLibrary where
  labelProblems : String → List String
  formatTime : Time → String

inductive RestoreWrite where
  | addFinalizer
  | removeFinalizer
  /-- The restore with its new status. -/
  | setStatus (updated : PostgresRestore)
  | createTarget (target : MultiSitePostgres)
  | setTargetPhase (phase : RestorePhaseValue)
  /-- The four annotations of the restore are removed from the target. -/
  | clearTarget
  | deleteTarget
  /-- `recordRestoreDrillEvidence` on the source. -/
  | drillEvidence (now : Time) (restore : PostgresRestore)
deriving DecidableEq

/-- What `client.Get` of the target gives. -/
inductive TargetRead where
  | found (target : MultiSitePostgres)
  | notFound
  | failed
deriving DecidableEq

/-- What a reconcile reads besides the restore; `.error` is the text of a failed call. -/
structure RestoreReads where
  source : Except String MultiSitePostgres
  target : TargetRead
  upgrades : Except String (List PostgresUpgrade) := .ok []
  restores : Except String (List PostgresRestore) := .ok []

/-! ## Status -/

def ensureRestoreOperation (restore : PostgresRestore) (phase : String) (now : Time) :
    OperationProgressStatus :=
  let operation := restore.operation.getD {
    attempt := 1, deadlineAt := some (now + 24 * 60 * minute) }
  { operation with
    operationUID := restore.uid
    phase := phase
    attempt := if operation.attempt = 0 then 1 else operation.attempt }

/-- The restore with a phase, its operation and its `Ready` condition: `setRestorePhase`
and `restoreBlocked` differ in the phase and in the error of the operation. -/
def withRestorePhase (restore : PostgresRestore) (phase errorReason errorMessage : String)
    (reason message : String) (now : Time) : PostgresRestore :=
  { restore with
    observedGeneration := restore.generation
    phase := phase
    operation := some { ensureRestoreOperation restore phase now with
      terminal := false, lastErrorReason := errorReason, lastErrorMessage := errorMessage }
    conditions := setCondition restore.conditions restore.generation "Ready" .false reason message }

def writeRestoreStatus (restore updated : PostgresRestore) : List RestoreWrite :=
  if updated = restore then [] else [.setStatus updated]

def setRestorePhase (restore : PostgresRestore) (phase reason message : String) (now : Time) :
    List RestoreWrite :=
  writeRestoreStatus restore (withRestorePhase restore phase "" "" reason message now)

def restoreBlocked (restore : PostgresRestore) (reason message : String) (now : Time) :
    List RestoreWrite :=
  writeRestoreStatus restore
    (withRestorePhase restore "Preflight" reason message reason message now)

/-- The restore as `completeRestore` writes it. -/
def completedRestore (library : RestoreLibrary) (restore : PostgresRestore) (now : Time) :
    PostgresRestore :=
  { restore with
    observedGeneration := restore.generation
    phase := "Completed"
    operation := some { ensureRestoreOperation restore "Completed" now with
      terminal := true, manualInterventionRequired := false, lastErrorReason := ""
      lastErrorMessage := "", nextRetryAt := none }
    recoveredTo := some restore.targetTime
    selectedBackupSet := if restore.backupSet ≠ "" then restore.backupSet
      else restore.selectedBackupSet
    conditions := setCondition
      (setCondition restore.conditions restore.generation "Ready" .true "RestoreCompleted"
        "The target instance passed restore acceptance")
      restore.generation "Completed" .true "AcceptancePassed"
      ("Point-in-time recovery completed at " ++ library.formatTime now) }

/-- `completeRestore`: the evidence of a drill goes before the status. -/
def completeRestore (library : RestoreLibrary) (restore : PostgresRestore) (now : Time) :
    List RestoreWrite :=
  let completed := completedRestore library restore now
  (if restore.drill then [.drillEvidence now completed] else []) ++ [.setStatus completed]

/-- `recordRestoreDrillEvidence`: the source with the evidence of a drill. -/
def recordRestoreDrillEvidence (now : Time) (restore : PostgresRestore)
    (source : MultiSitePostgres) : MultiSitePostgres :=
  let verified := { source with status := { source.status with
    restoreDrillLastVerifiedAt := some (storedTime now)
    restoreDrillBackupSet :=
      if restore.backupSet ≠ "" then restore.backupSet
      else if restore.selectedBackupSet ≠ "" then restore.selectedBackupSet
      else source.status.restoreDrillBackupSet } }
  if source.status.recoveryWindowStart.any (· ≤ now) then
    verified.setCondition "RecoveryWindowAvailable" .true "DisposableRestoreVerified"
      "Archived WAL continuity and a recent disposable restore drill prove the recovery window"
  else verified

/-! ## Preflight -/

/-- `operationConflict`: what another operation on the instance is reported as. -/
def operationConflict (upgrades : List PostgresUpgrade) (restores : List PostgresRestore)
    (instanceRef operationName operationKind : String) : Option String :=
  if upgrades.any fun upgrade =>
      upgrade.spec.instanceRef = instanceRef ∧ upgrade.terminal = false then
    some "another upgrade targets this instance"
  else if restores.any fun restore =>
      restore.targetInstanceRef = instanceRef ∧
        (operationKind ≠ "restore" ∨ restore.name ≠ operationName) ∧
        restore.phase ≠ "Completed" ∧ restore.phase ≠ "Failed" then
    some "another restore targets this instance"
  else none

/-- The part of `preflight` that looks at the source and the clock. -/
def preflightSource (restore : PostgresRestore) (source : MultiSitePostgres) (now : Time) :
    Option String :=
  let conditions := source.status.conditions
  if source.spec.backup.isNone then some "source has no pgBackRest repository"
  else match source.status.recoveryWindowStart with
  | none => some "source must be Ready with a verified recovery window"
  | some start =>
    if conditionTrue conditions "Ready" = false then
      some "source must be Ready with a verified recovery window"
    else if restore.drill = true ∧ conditionTrue conditions "BackupReady" = false then
      some "source must have archived WAL metadata before a disposable restore drill"
    else if restore.drill = false ∧ conditionTrue conditions "RecoveryWindowAvailable" = false then
      some "source must be Ready with a verified recovery window"
    else if source.status.restoreDrillLastVerifiedAt = none ∧ restore.drill = false then
      some "source recovery window has no disposable restore verification"
    else if source.status.restoreDrillLastVerifiedAt.any (· < start) then
      some "source disposable restore verification predates the recovery window"
    else if restore.targetTime < start then
      some "target time precedes the verified recovery window"
    else if restore.targetTime > now then some "target time is in the future"
    else none

def preflight (reads : RestoreReads) (restore : PostgresRestore) (source : MultiSitePostgres)
    (now : Time) : Option String :=
  match preflightSource restore source now with
  | some e => some e
  | none =>
    match reads.upgrades, reads.restores with
    | .error e, _ => some e
    | .ok upgrades, .error e =>
      -- the restores are only listed when no upgrade is in the way
      some ((operationConflict upgrades [] restore.targetInstanceRef restore.name "restore").getD e)
    | .ok upgrades, .ok restores =>
      operationConflict upgrades restores restore.targetInstanceRef restore.name "restore"

/-! ## Reconcile -/

def advanceRestore (library : RestoreLibrary) (restore : PostgresRestore)
    (source target : MultiSitePostgres) (now : Time) : List RestoreWrite :=
  let conditions := target.status.conditions
  match target.annotations.restorePhase with
  | .active .seed =>
    match selectRestoreSeed target.spec.sites with
    | .error e => restoreBlocked restore "InvalidTarget" e now
    | .ok (seedSite, seedMember) =>
      if target.status.primary ≠ seedMember ∨ conditionTrue conditions "TopologyReady" = false then
        setRestorePhase restore "Restoring" "SeedRecoveryInProgress"
          ("Waiting for " ++ seedSite ++ "/" ++ seedMember ++ " to recover and promote") now
      else .setTargetPhase (.active .replicas) ::
        setRestorePhase restore "SeedingReplicas" "SeedPromoted"
          "Point-in-time recovery completed; replicas are now being cloned" now
  | .active .replicas =>
    if conditionTrue conditions "TopologyReady" = false ∨
        target.status.synchronousStandbys.length < target.spec.postgres.synchronousStandbyCount then
      setRestorePhase restore "SeedingReplicas" "ReplicationConverging"
        "Waiting for the required synchronous replicas" now
    else .setTargetPhase (.active .verify) ::
      setRestorePhase restore "Verifying" "ReplicationReady"
        "Synchronous replication is ready; acceptance checks are running" now
  | .active .verify =>
    if conditionTrue conditions "Ready" = false ∨ conditionTrue conditions "TopologyReady" = false ∨
        source.spec.tde.enabled = true ∧ conditionTrue conditions "TDEVerified" = false then
      setRestorePhase restore "Verifying" "AcceptancePending"
        "Waiting for target topology, Pgpool and TDE acceptance" now
    else .setTargetPhase .completed :: completeRestore library restore now
  | .completed => completeRestore library restore now
  | _ => restoreBlocked restore "InvalidTarget" "target instance has an unknown restore phase" now

def reconcileRestoreDeletion (reads : RestoreReads) (restore : PostgresRestore) (now : Time) :
    List RestoreWrite :=
  if restore.finalizer = false then []
  else if restore.phase = "Completed" ∨ restore.phase = "" then [.removeFinalizer]
  else match reads.target with
  | .notFound => [.removeFinalizer]
  | .failed => []
  | .found target =>
    let owned := target.annotations.restoreUID = restore.uid
    if restore.forceAbandon then
      (if owned then [.clearTarget] else []) ++ restoreBlocked restore "ForceAbandoned"
          "Restore deletion was force-abandoned; residual target resources require operator review"
          now ++ [.removeFinalizer]
    else if ¬ owned then [.removeFinalizer]
    else (if target.deleting then [] else [.deleteTarget]) ++
      restoreBlocked restore "CancellationInProgress"
        "Deleting the isolated restore target before removing operation state" now

/-- `Reconcile`. -/
def reconcileRestore (library : RestoreLibrary) (reads : RestoreReads)
    (restore : PostgresRestore) (now : Time) : List RestoreWrite :=
  if restore.deleting then reconcileRestoreDeletion reads restore now
  else if restore.phase = "Completed" then
    if restore.finalizer then [.removeFinalizer] else []
  else if restore.finalizer = false then [.addFinalizer]
  else match reads.source with
  | .error e => restoreBlocked restore "SourceUnavailable" e now
  | .ok source =>
    match preflight reads restore source now with
    | some e => restoreBlocked restore "PreflightFailed" e now
    | none =>
      match reads.target with
      | .failed => []
      | .notFound =>
        match newTarget library.labelProblems restore source with
        | .error e => restoreBlocked restore "InvalidTarget" e now
        | .ok target => .createTarget target ::
            setRestorePhase restore "Provisioning" "TargetCreated"
              "The isolated restore target has been created" now
      | .found target =>
        if target.annotations.restoreUID ≠ restore.uid ∨
            target.annotations.restoreSourceUID ≠ source.uid then
          restoreBlocked restore "TargetExists"
            "target instance exists and is not an empty placeholder owned by this restore" now
        else advanceRestore library restore source target now

/-! ## What a reconcile does to the target -/

section Target

variable {restore : PostgresRestore} {library : RestoreLibrary} {reads : RestoreReads} {now : Time}

theorem mem_writeRestoreStatus {updated : PostgresRestore} {write : RestoreWrite}
    (h : write ∈ writeRestoreStatus restore updated) : write = .setStatus updated := by
  unfold writeRestoreStatus at h
  split at h
  · cases h
  · exact mem_singleton.mp h

def RestoreWrite.sparesTarget : RestoreWrite → Bool
  | .addFinalizer | .removeFinalizer | .setStatus _ | .drillEvidence _ _ => true
  | _ => false

inductive RestoreAdvance (target : MultiSitePostgres) : RestorePhaseValue → Prop where
  | replicas (recorded : target.annotations.restorePhase = .active .seed) :
      RestoreAdvance target (.active .replicas)
  | verify (recorded : target.annotations.restorePhase = .active .replicas)
      (topology : conditionTrue target.status.conditions "TopologyReady" = true) :
      RestoreAdvance target (.active .verify)
  | completed (recorded : target.annotations.restorePhase = .active .verify)
      (ready : conditionTrue target.status.conditions "Ready" = true) :
      RestoreAdvance target .completed

/-- What the writes of a restore reconcile do to the target: nothing, or the first of them
records the next phase. -/
inductive RestoreCase (target : MultiSitePostgres) : List RestoreWrite → Prop where
  | spares {writes : List RestoreWrite} (spares : ∀ x ∈ writes, x.sparesTarget = true) :
      RestoreCase target writes
  | advances {phase : RestorePhaseValue} {rest : List RestoreWrite}
      (advance : RestoreAdvance target phase) (spares : ∀ x ∈ rest, x.sparesTarget = true) :
      RestoreCase target (.setTargetPhase phase :: rest)

theorem writeRestoreStatus_spares (restore updated : PostgresRestore) :
    ∀ x ∈ writeRestoreStatus restore updated, x.sparesTarget = true := by
  intro x hx
  rw [mem_writeRestoreStatus hx]
  rfl

theorem completeRestore_spares (library : RestoreLibrary) (restore : PostgresRestore)
    (now : Time) : ∀ x ∈ completeRestore library restore now, x.sparesTarget = true := by
  intro x hx
  rcases mem_append.mp hx with hx | hx
  · split at hx
    · rw [mem_singleton.mp hx]
      rfl
    · cases hx
  · rw [mem_singleton.mp hx]
    rfl

theorem advanceRestore_case (library : RestoreLibrary) (restore : PostgresRestore)
    (source target : MultiSitePostgres) (now : Time) :
    RestoreCase target (advanceRestore library restore source target now) := by
  have hstatus := writeRestoreStatus_spares restore
  unfold advanceRestore
  dsimp only
  split
  · rename_i hphase
    split
    · exact .spares (hstatus _)
    split
    · exact .spares (hstatus _)
    · exact .advances (.replicas hphase) (hstatus _)
  · rename_i hphase
    split
    · exact .spares (hstatus _)
    · rename_i hready
      exact .advances (.verify hphase (Bool.not_eq_false _ ▸ (not_or.mp hready).1)) (hstatus _)
  · rename_i hphase
    split
    · exact .spares (hstatus _)
    rename_i hready
    exact .advances (.completed hphase (Bool.not_eq_false _ ▸ (not_or.mp hready).1))
      (completeRestore_spares _ _ _)
  · exact .spares (completeRestore_spares _ _ _)
  · exact .spares (hstatus _)

theorem RestoreCase.createTarget_not_mem {target i : MultiSitePostgres} {writes : List RestoreWrite}
    (h : RestoreCase target writes) : .createTarget i ∉ writes := by
  intro hmem
  cases h with
  | spares spares => cases spares _ hmem
  | advances _ spares =>
    rcases mem_cons.mp hmem with hmem | hmem
    · cases hmem
    · cases spares _ hmem

theorem createTarget_of_mem {target : MultiSitePostgres}
    (h : .createTarget target ∈ reconcileRestore library reads restore now) :
    ∃ source, newTarget library.labelProblems restore source = .ok target := by
  have hstatus : ∀ {updated}, .createTarget target ∉ writeRestoreStatus restore updated :=
    fun hmem => nomatch mem_writeRestoreStatus hmem
  have hdeletion : .createTarget target ∉ reconcileRestoreDeletion reads restore now := by
    intro hmem
    unfold reconcileRestoreDeletion at hmem
    dsimp only at hmem
    repeat' split at hmem
    all_goals simp only [mem_append, mem_cons, not_mem_nil, or_false, false_or,
      reduceCtorEq] at hmem
    all_goals exact hstatus hmem
  unfold reconcileRestore at h
  split at h
  · exact absurd h hdeletion
  repeat' split at h
  all_goals first
    | exact absurd h hstatus
    | exact absurd h (advanceRestore_case ..).createTarget_not_mem
    | exact absurd h not_mem_nil
    | cases mem_singleton.mp h
    | skip
  rename_i hnew
  rcases mem_cons.mp h with hcreated | hmem
  · cases hcreated
    exact ⟨_, hnew⟩
  · exact absurd hmem hstatus

theorem newTarget_owner {labelProblems : String → List String} {source target : MultiSitePostgres}
    (h : newTarget labelProblems restore source = .ok target) :
    target.name = restore.targetInstanceRef ∧ target.annotations.restoreUID = restore.uid ∧
      target.annotations.upgradeUID = "" := by
  simp only [newTarget] at h
  split at h
  · cases h
  split at h
  · cases h
  · cases h
    exact ⟨rfl, rfl, rfl⟩

end Target

end Mspsql
