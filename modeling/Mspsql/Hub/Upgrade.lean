import Mspsql.Hub.Backups

/-!
# The upgrade controller

One reconcile of a `PostgresUpgrade` is the list of API writes it makes, in order; a crash
or a failed call leaves a prefix of the list.  A patch of the instance is a merge patch:
it carries the annotations and specification fields that differ from the instance the
controller read, and touches nothing else of the stored object.
-/

namespace Mspsql

inductive PatchKind where
  /-- The upgrade takes the instance. -/
  | claim
  /-- A gated step replaces the recorded phase by what follows it. -/
  | advance
  /-- The switchover step was observed to have happened. -/
  | switchover
  /-- A failure or a deletion starts the rollback. -/
  | rollback
  /-- A finished upgrade gives the instance back. -/
  | release
  /-- The upgrade gives the instance back without having finished. -/
  | abandon
deriving DecidableEq, Repr

inductive UpgradeWrite where
  | patchInstance (kind : PatchKind) (base modified : MultiSitePostgres)
  | setStatus (status : PostgresUpgradeStatus)
  | addFinalizer
  | removeFinalizer
  | createDirective (map : DirectiveMap)
deriving DecidableEq

def patchField {α : Type} [DecidableEq α] (base modified current : α) : α :=
  if modified = base then current else modified

/-- What a merge patch from `base` to `modified` makes of the stored annotations. -/
def patchAnnotations (base modified current : Annotations) : Annotations :=
  { current with
    upgradeUID := patchField base.upgradeUID modified.upgradeUID current.upgradeUID
    upgradeName := patchField base.upgradeName modified.upgradeName current.upgradeName
    upgradePhase := patchField base.upgradePhase modified.upgradePhase current.upgradePhase
    upgradeMember := patchField base.upgradeMember modified.upgradeMember current.upgradeMember
    upgradedMembers :=
      patchField base.upgradedMembers modified.upgradedMembers current.upgradedMembers
    upgradeFromPrimary :=
      patchField base.upgradeFromPrimary modified.upgradeFromPrimary current.upgradeFromPrimary
    upgradeCandidate :=
      patchField base.upgradeCandidate modified.upgradeCandidate current.upgradeCandidate
    upgradeSwitched :=
      patchField base.upgradeSwitched modified.upgradeSwitched current.upgradeSwitched
    upgradeExpectedRevision := patchField base.upgradeExpectedRevision
      modified.upgradeExpectedRevision current.upgradeExpectedRevision
    upgradeSourceMajor :=
      patchField base.upgradeSourceMajor modified.upgradeSourceMajor current.upgradeSourceMajor }

/-- What a merge patch of the upgrade controller makes of the stored instance; changing
the specification takes a new generation. -/
def patchInstance (base modified current : MultiSitePostgres) : MultiSitePostgres :=
  let postgres := { current.spec.postgres with
    majorVersion := patchField base.spec.postgres.majorVersion
      modified.spec.postgres.majorVersion current.spec.postgres.majorVersion
    image := patchField base.spec.postgres.image
      modified.spec.postgres.image current.spec.postgres.image }
  { current with
    annotations := patchAnnotations base.annotations modified.annotations current.annotations
    generation := if postgres = current.spec.postgres then current.generation
      else current.generation + 1
    spec := { current.spec with postgres := postgres } }

def clearUpgradeAnnotations (instance' : MultiSitePostgres) : MultiSitePostgres :=
  { instance' with annotations := { instance'.annotations with
      upgradeUID := "", upgradeName := "", upgradePhase := .absent, upgradeMember := ""
      upgradedMembers := "", upgradeFromPrimary := "", upgradeCandidate := ""
      upgradeSwitched := "", upgradeExpectedRevision := none, upgradeSourceMajor := none } }

/-! ## Status of the upgrade -/

def setUpgradePhase (upgrade : PostgresUpgrade) (phase reason message : String) (now : Time) :
    UpgradeWrite :=
  .setStatus { upgrade.status with
    startedAt := some (upgrade.status.startedAt.getD now)
    observedGeneration := upgrade.generation
    phase := phase
    conditions := setCondition upgrade.status.conditions upgrade.generation "Ready" .false
      reason message }

def upgradeBlocked (upgrade : PostgresUpgrade) (reason message : String) : UpgradeWrite :=
  .setStatus { upgrade.status with
    observedGeneration := upgrade.generation
    phase := "Preflight"
    conditions := setCondition upgrade.status.conditions upgrade.generation "Ready" .false
      reason message }

def completeUpgrade (upgrade : PostgresUpgrade) : UpgradeWrite :=
  .setStatus { upgrade.status with
    observedGeneration := upgrade.generation
    phase := "Completed"
    conditions := setCondition upgrade.status.conditions upgrade.generation "Ready" .true
      "UpgradeCompleted" "All PostgreSQL members run the requested image" }

def PostgresUpgrade.terminal (upgrade : PostgresUpgrade) : Bool :=
  upgrade.status.phase = "Completed" ∨ upgrade.status.phase = "Failed"

/-! ## Gates -/

def majorPhaseApplied (instance' : MultiSitePostgres) : Bool :=
  match instance'.annotations.upgradeExpectedRevision with
  | some expected => instance'.status.activeRevision ≥ expected ∧
      allSitesApplied instance'.status.sites instance'.status.activeRevision
  | none => false

def instanceReadyForOperation (instance' : MultiSitePostgres) : Bool :=
  majorPhaseApplied instance' ∧ instance'.status.observedGeneration = instance'.generation ∧
    conditionTrue instance'.status.conditions "Ready" ∧
    conditionTrue instance'.status.conditions "TopologyReady"

def majorUpgradeFailed (instance' : MultiSitePostgres) : Bool :=
  instance'.status.sites.any fun site =>
    (Condition.find? site.conditions "MajorUpgradeBlocked").any fun c =>
      c.status = .true ∧ Text.hasSuffix c.reason "Failed"

def MajorUpgradePhase.text : MajorUpgradePhase → String
  | .preflight => "MajorPreflight"
  | .drain => "MajorDrain"
  | .stop => "MajorStop"
  | .snapshot => "MajorSnapshot"
  | .upgradePrimary => "MajorUpgradePrimary"
  | .stanzaUpgrade => "MajorStanzaUpgrade"
  | .startPrimary => "MajorStartPrimary"
  | .restoreWrites => "MajorRestoreWrites"
  | .replicas => "MajorReplicas"
  | .finalize => "MajorFinalize"
  | .rollback => "MajorRollback"
  | .rollbackStart => "MajorRollbackStart"
  | .rollbackRestoreWrites => "MajorRollbackRestoreWrites"

def UpgradePhaseValue.text : UpgradePhaseValue → String
  | .absent => ""
  | .major phase => phase.text
  | .minor .member => "Member"
  | .minor .switchover => "Switchover"
  | .minor .finalize => "Finalize"
  | .other text => text

/-- `strings.HasPrefix(phase, "Major")`. -/
def UpgradePhaseValue.isMajor : UpgradePhaseValue → Bool
  | .major _ => true
  | .other text => Text.hasPrefix text "Major"
  | _ => false

def withPhase (instance' : MultiSitePostgres) (phase : UpgradePhaseValue) : MultiSitePostgres :=
  { instance' with annotations := { instance'.annotations with
      upgradePhase := phase
      upgradeExpectedRevision := some (instance'.status.activeRevision + 1) } }

def advanceMajorPhase (kind : PatchKind) (upgrade : PostgresUpgrade)
    (instance' : MultiSitePostgres) (next : MajorUpgradePhase)
    (statusPhase reason message : String) (now : Time) (startOutage : Bool) :
    List UpgradeWrite :=
  let started := if startOutage then
      { upgrade with status := { upgrade.status with
          writeOutageStartedAt := some (upgrade.status.writeOutageStartedAt.getD now) } }
    else upgrade
  [.patchInstance kind instance' (withPhase instance' (.major next)),
    setUpgradePhase started statusPhase reason message now]

/-! ## The post-upgrade backup -/

def maxPostUpgradeBackupAttempts : Nat := 5

def fnv32a (bytes : List UInt8) : Nat :=
  bytes.foldl (fun h b => (h ^^^ b.toNat) * 16777619 % 4294967296) 2166136261

/-- The doubling loop of `postUpgradeBackupRetryDelay`. -/
def retryBackoff : Nat → Duration
  | 0 => minute
  | n + 1 =>
    let delay := retryBackoff n
    if delay ≥ 30 * minute then delay
    else if delay * 2 ≥ 30 * minute then 30 * minute else delay * 2

def postUpgradeBackupRetryDelay (operation : String) (attempt : Nat) : Duration :=
  let hash := fnv32a (operation.toUTF8.toList ++ [UInt8.ofNat (max attempt 1)])
  min (retryBackoff (max attempt 1 - 1) + (hash % 60 : Nat) * second) (30 * minute)

def postUpgradeBackupUID (upgrade : PostgresUpgrade) (attempt : Nat) : String :=
  upgrade.uid ++ "-post-upgrade-backup-" ++ toString attempt

def upgradeBackupDirective (upgrade : PostgresUpgrade)
    (upgradeBackupPhase namespaceName name operationUID : String) (requestedAt : Time) :
    DirectiveMap where
  namespaceName := namespaceName
  name := name
  ownerKind := .postgresUpgrade
  ownerName := upgrade.name
  ownerUID := upgrade.uid
  type := "Backup"
  instanceRef := upgrade.spec.instanceRef
  operationUID := operationUID
  upgradeBackupPhase := upgradeBackupPhase
  spec := .backup "full" (storedTime requestedAt)

def ensureUpgradeOperationProgress (upgrade : PostgresUpgrade) (operationUID : String)
    (now : Time) : OperationProgressStatus :=
  match upgrade.status.operation with
  | none => {
      operationUID := operationUID
      phase := "PostUpgradeBackup"
      deadlineAt := some (now + 24 * 60 * minute) }
  | some operation => { operation with
      deadlineAt := some (operation.deadlineAt.getD (now + 24 * 60 * minute)) }

/-- `ensurePostUpgradeBackup`: `.ok` when the backup is there, otherwise the writes of this
reconcile. -/
def ensurePostUpgradeBackup (upgrade : PostgresUpgrade) (namespaceName : String) (now : Time)
    (directives : List DirectiveMap) : Except (List UpgradeWrite) PostgresUpgrade :=
  let attempt := upgrade.status.postUpgradeBackupAttempt
  let operation := ensureUpgradeOperationProgress upgrade (postUpgradeBackupUID upgrade attempt) now
  let condition (status : PostgresUpgradeStatus) (reason message : String) :=
    setCondition status.conditions upgrade.generation "PostUpgradeBackupReady" .false reason message
  match Condition.find? upgrade.status.conditions "PostUpgradeBackupReady" with
  | some c =>
    if c.status = .true then
      .ok { upgrade with status := { upgrade.status with operation := some { operation with
        terminal := true, manualInterventionRequired := false, lastErrorReason := "",
        lastErrorMessage := "", nextRetryAt := none } } }
    else if c.status = .false ∧ c.reason = "BackupFailed" then
      let failed := { operation with
        attempt := attempt, lastErrorReason := c.reason, lastErrorMessage := c.message }
      if attempt ≥ maxPostUpgradeBackupAttempts then
        .error [.setStatus { upgrade.status with
          operation := some { failed with
            terminal := true, manualInterventionRequired := true, nextRetryAt := none }
          conditions := setCondition (condition upgrade.status "ManualInterventionRequired"
              ("Post-upgrade backup retry limit reached; fix repository access and request " ++
                "operator repair"))
            upgrade.generation "Ready" .false "ManualInterventionRequired"
            "Major upgrade is blocked until the required post-upgrade backup is repaired"
          phase := "Finalizing" }]
      else
        .error [.setStatus { upgrade.status with
          postUpgradeBackupAttempt := attempt + 1
          postUpgradeBackupRequestedAt := none
          operation := some { failed with
            operationUID := postUpgradeBackupUID upgrade (attempt + 1)
            attempt := attempt + 1
            nextRetryAt := some (now + postUpgradeBackupRetryDelay upgrade.uid (attempt + 1))
            terminal := false
            manualInterventionRequired := false }
          conditions := condition upgrade.status "BackupRetryRequested"
            "Retrying the required post-upgrade full backup" }]
    else if c.status = .false ∧ c.reason = "BackupRetryRequested" ∧
        operation.nextRetryAt.any (now < ·) then .error []
    else request attempt operation
  | none => request attempt operation
where
  /-- Ask for the backup, then create its directive, then wait. -/
  request (attempt : Nat) (operation : OperationProgressStatus) :
      Except (List UpgradeWrite) PostgresUpgrade :=
    match upgrade.status.postUpgradeBackupRequestedAt with
    | none => .error [.setStatus { upgrade.status with
        postUpgradeBackupRequestedAt := some now
        operation := some { operation with
          operationUID := postUpgradeBackupUID upgrade attempt
          phase := "PostUpgradeBackup"
          attempt := attempt
          nextRetryAt := none }
        conditions := setCondition upgrade.status.conditions upgrade.generation
          "PostUpgradeBackupReady" .false "BackupRequested"
          "Waiting for the post-upgrade full backup and archived WAL verification" }]
    | some requestedAt =>
      let name := "mspsql-post-upgrade-backup-" ++ upgrade.uid ++ "-" ++ toString attempt
      let waiting := setUpgradePhase
        { upgrade with status := { upgrade.status with operation := some operation } }
        "Finalizing" "PostUpgradeBackupProgressing" "Waiting for the post-upgrade full backup" now
      match findDirective directives namespaceName name with
      | some _ => .error [waiting]
      | none => .error [.createDirective (upgradeBackupDirective upgrade "post-upgrade"
          namespaceName name (postUpgradeBackupUID upgrade attempt) requestedAt), waiting]

/-! ## Major upgrades -/

def claimMajor (upgrade : PostgresUpgrade) (instance' : MultiSitePostgres) : MultiSitePostgres :=
  { instance' with annotations := { instance'.annotations with
      upgradeUID := upgrade.uid
      upgradeName := upgrade.name
      upgradePhase := .major .preflight
      upgradeFromPrimary := instance'.status.primary
      upgradeSourceMajor := some instance'.spec.postgres.majorVersion
      upgradeExpectedRevision := some (instance'.status.activeRevision + 1) } }

/-- The phase switch of `reconcileMajorUpgrade`, once the phase is applied everywhere. -/
def majorSuccessor (upgrade : PostgresUpgrade) (instance' : MultiSitePostgres) (now : Time)
    (directives : List DirectiveMap) : MajorUpgradePhase → List UpgradeWrite
  | .preflight => advanceMajorPhase .advance upgrade instance' .drain
      "DrainingWrites" "PreflightPassed" "Removing Pgpool write endpoints" now true
  | .drain => advanceMajorPhase .advance upgrade instance' .stop
      "Stopping" "WritesDrained" "Stopping every PostgreSQL member cleanly" now false
  | .stop => advanceMajorPhase .advance upgrade instance' .snapshot
      "CapturingRollback" "MembersStopped" "Capturing rollback storage" now false
  | .snapshot => advanceMajorPhase .advance upgrade instance' .upgradePrimary
      "UpgradingPrimary" "RollbackCaptured" "Converting the former primary data directory"
      now false
  | .upgradePrimary => advanceMajorPhase .advance upgrade instance' .stanzaUpgrade
      "UpgradingBackupStanza" "PrimaryConverted"
      "Updating pgBackRest repository metadata for the target PostgreSQL version" now false
  | .stanzaUpgrade => advanceMajorPhase .advance upgrade instance' .startPrimary
      "RestoringService" "BackupStanzaUpgraded" "Starting and verifying the upgraded primary"
      now false
  | .startPrimary => advanceMajorPhase .advance upgrade instance' .replicas
      "ReseedingReplicas" "PrimaryAccepted"
      "Recloning every standby from the upgraded primary before write service is restored"
      now false
  | .replicas =>
    if conditionTrue instance'.status.conditions "TopologyReady" = false ∨
        instance'.spec.postgres.synchronousStandbyCount > 0 ∧
          conditionTrue instance'.status.conditions "SynchronousReplicationReady" = false then
      [setUpgradePhase upgrade "ReseedingReplicas" "ReplicaSyncPending"
        ("Waiting for a target-version standby to catch up and become synchronous before " ++
          "restoring writes") now]
    else advanceMajorPhase .advance upgrade instance' .restoreWrites
      "RestoringWrites" "ReplicaSyncVerified"
      "Starting Pgpool write service after synchronous replay proof" now false
  | .restoreWrites =>
    let restored := { upgrade with status := { upgrade.status with
      writeServiceRestoredAt := some (upgrade.status.writeServiceRestoredAt.getD now) } }
    let finalizing := withPhase instance' (.major .finalize)
    [.patchInstance .advance instance' { finalizing with
        spec := { finalizing.spec with postgres := { finalizing.spec.postgres with
          majorVersion := upgrade.spec.targetMajorVersion
          image := upgrade.spec.targetImage } } },
      setUpgradePhase restored "Finalizing" "ReplicasReady"
        "Running final acceptance with the stable target specification" now]
  | .finalize =>
    match ensurePostUpgradeBackup upgrade instance'.namespaceName now directives with
    | .error writes => writes
    | .ok finished => [completeUpgrade finished,
        .patchInstance .advance instance' (clearUpgradeAnnotations instance')]
  | .rollback => advanceMajorPhase .advance upgrade instance' .rollbackStart
      "VerifyingRollback" "RollbackStorageRestored"
      "Starting and verifying the source PostgreSQL version" now false
  | .rollbackStart => advanceMajorPhase .advance upgrade instance' .rollbackRestoreWrites
      "RestoringWrites" "RollbackAccepted" "Starting Pgpool on the restored source version"
      now false
  | .rollbackRestoreWrites =>
    [.setStatus { upgrade.status with
        writeServiceRestoredAt := some now
        observedGeneration := upgrade.generation
        phase := "Failed"
        conditions := setCondition upgrade.status.conditions upgrade.generation "Ready" .false
          "RolledBack" "The failed major upgrade was rolled back to the source version" },
      .patchInstance .advance instance' (clearUpgradeAnnotations instance')]

def reconcileMajorUpgrade (upgrade : PostgresUpgrade) (instance' : MultiSitePostgres)
    (now : Time) (directives : List DirectiveMap) : List UpgradeWrite :=
  if instance'.annotations.upgradeUID = "" then
    if instance'.status.primary = "" ∨
        conditionTrue instance'.status.conditions "TopologyReady" = false then
      [upgradeBlocked upgrade "TopologyUnavailable"
        "major upgrade requires an observed primary and synchronous topology"]
    else [.patchInstance .claim instance' (claimMajor upgrade instance'),
      setUpgradePhase upgrade "Preflight" "PreflightIssued"
        "Validating upgrade binaries and rollback capabilities" now]
  else if instance'.annotations.upgradeUID ≠ upgrade.uid then
    [upgradeBlocked upgrade "OperationConflict" "instance is owned by another upgrade operation"]
  else
    let phase := instance'.annotations.upgradePhase
    let repair := [setUpgradePhase upgrade phase.text "ForwardRepairRequired"
      "Automatic rollback is unsafe or no complete rollback checkpoint exists for this phase" now]
    let proceed :=
      if majorPhaseApplied instance' then
        match phase with
        | .major p => majorSuccessor upgrade instance' now directives p
        | _ => [upgradeBlocked upgrade "InvalidState"
            "instance has an unknown major-upgrade phase"]
      else [setUpgradePhase upgrade phase.text "PhaseProgressing"
        ("Waiting for all sites to complete " ++ phase.text) now]
    if majorUpgradeFailed instance' then
      match phase with
      | .major .upgradePrimary | .major .stanzaUpgrade | .major .startPrimary =>
        advanceMajorPhase .rollback upgrade instance' .rollback "RollingBack" "PhaseFailed"
          "Restoring every PostgreSQL PVC from rollback storage" now false
      | .major .rollback | .major .rollbackStart | .major .rollbackRestoreWrites => proceed
      | _ => repair
    else proceed

/-! ## Minor upgrades -/

/-- `selectUpgradeCandidate`: a synchronous standby first, later any member that is left. -/
def selectUpgradeCandidate (instance' : MultiSitePostgres) (upgraded : List String) : String :=
  let candidates :=
    if upgraded.isEmpty then
      instance'.status.synchronousStandbys.filter (· ≠ instance'.status.primary)
    else (postgresMembers instance'.spec.sites).filter fun member =>
      member ≠ instance'.status.primary ∧ member ∉ upgraded
  (Text.sortText candidates).headD ""

def withMember (instance' : MultiSitePostgres) (member : String) (upgraded : List String) :
    MultiSitePostgres :=
  { instance' with annotations := { instance'.annotations with
      upgradeMember := member
      upgradedMembers := Text.join "," upgraded
      upgradeExpectedRevision := some (instance'.status.activeRevision + 1) } }

/-- The `Member` case of `reconcileMinorUpgrade`. -/
def reconcileMember (upgrade : PostgresUpgrade) (instance' : MultiSitePostgres) (now : Time) :
    List UpgradeWrite :=
  let member := instance'.annotations.upgradeMember
  if member = "" then
    [upgradeBlocked upgrade "InvalidState" "member rollout phase has no target member"]
  else if instanceReadyForOperation instance' = false then
    [setUpgradePhase upgrade "RollingReplicas" "MemberProgressing"
      ("Waiting for verified rollout of " ++ member) now]
  else
    let upgraded := appendUnique (splitMembers instance'.annotations.upgradedMembers) member
    let recorded := { upgrade with status := { upgrade.status with upgradedMembers := upgraded } }
    if instance'.annotations.upgradeSwitched ≠ "true" then
      let switching := withPhase instance' (.minor .switchover)
      [.patchInstance .advance instance' { switching with
        annotations := { switching.annotations with
          upgradedMembers := Text.join "," upgraded
          upgradeFromPrimary := instance'.status.primary
          upgradeCandidate := member } },
        setUpgradePhase recorded "SwitchingOver" "ReplicaVerified"
          ("Requesting Patroni switchover to " ++ member) now]
    else
      let next := selectUpgradeCandidate instance' upgraded
      if next = "" then
        let finalizing := withPhase instance' (.minor .finalize)
        [.patchInstance .advance instance' { finalizing with
            spec := { finalizing.spec with postgres := { finalizing.spec.postgres with
              image := upgrade.spec.targetImage } } },
          setUpgradePhase recorded "Finalizing" "MembersVerified"
            "Reconciling the stable target image plan" now]
      else
        [.patchInstance .advance instance' (withMember instance' next upgraded),
          setUpgradePhase recorded "RollingMembers" "MemberVerified"
            ("Upgrading member " ++ next) now]

/-- The `Switchover` case of `reconcileMinorUpgrade`. -/
def reconcileSwitchover (upgrade : PostgresUpgrade) (instance' : MultiSitePostgres) (now : Time) :
    List UpgradeWrite :=
  let upgraded := splitMembers instance'.annotations.upgradedMembers
  let candidate := instance'.annotations.upgradeCandidate
  if candidate = "" ∨ instance'.annotations.upgradeFromPrimary = "" then
    [upgradeBlocked upgrade "InvalidState" "switchover phase is missing primary or candidate"]
  else if instance'.status.primary ≠ candidate ∨
      conditionTrue instance'.status.conditions "TopologyReady" = false then
    [setUpgradePhase upgrade "SwitchingOver" "SwitchoverProgressing"
      ("Waiting for Patroni to promote " ++ candidate) now]
  else
    let next := selectUpgradeCandidate instance' upgraded
    if next = "" then
      [upgradeBlocked upgrade "InvalidState" "no remaining member was found after switchover"]
    else
      let rolling := withPhase instance' (.minor .member)
      [.patchInstance .switchover instance' { rolling with annotations := { rolling.annotations with
          upgradeMember := next, upgradeSwitched := "true" } },
        setUpgradePhase { upgrade with status := { upgrade.status with
            upgradedMembers := upgraded } } "RollingMembers" "SwitchoverVerified"
          ("Primary moved safely; upgrading member " ++ next) now]

def reconcileMinorUpgrade (upgrade : PostgresUpgrade) (instance' : MultiSitePostgres)
    (now : Time) : List UpgradeWrite :=
  if upgrade.spec.targetImage = instance'.spec.postgres.image ∧
      instance'.annotations.upgradeUID = "" then [completeUpgrade upgrade]
  else if instance'.annotations.upgradeUID = "" then
    let candidate := selectUpgradeCandidate instance' []
    if candidate = "" then
      [upgradeBlocked upgrade "NoUpgradeCandidate"
        "a healthy synchronous standby is required for the first rollout"]
    else
      let rolling := withPhase instance' (.minor .member)
      [.patchInstance .claim instance' { rolling with annotations := { rolling.annotations with
          upgradeUID := upgrade.uid, upgradeName := upgrade.name, upgradeMember := candidate
          upgradedMembers := "" } },
        setUpgradePhase upgrade "RollingReplicas" "ReplicaSelected"
          ("Upgrading synchronous standby " ++ candidate) now]
  else if instance'.annotations.upgradeUID ≠ upgrade.uid then
    [upgradeBlocked upgrade "OperationConflict" "instance is owned by another upgrade operation"]
  else match instance'.annotations.upgradePhase with
  | .minor .member => reconcileMember upgrade instance' now
  | .minor .switchover => reconcileSwitchover upgrade instance' now
  | .minor .finalize =>
    if instanceReadyForOperation instance' = false then
      [setUpgradePhase upgrade "Finalizing" "StablePlanProgressing"
        "Waiting for every site to apply the stable target image" now]
    else [completeUpgrade upgrade,
      .patchInstance .advance instance' (clearUpgradeAnnotations instance')]
  | _ => [upgradeBlocked upgrade "InvalidState" "instance has an unknown minor-upgrade phase"]

/-! ## Preflight of a major upgrade -/

def snapshotClassDiscovered (classes : List VolumeSnapshotClassInventory) (name : String) : Bool :=
  name ≠ "" ∧ classes.any fun c => c.name = name ∧ c.driver ≠ ""

/-- The per-site part of `validateMajorUpgradeContract`. -/
def validateRollbackStorage (reads : HubReads) (benchmark : MajorUpgradeBenchmark) :
    List PostgresSiteSpec → Option String
  | [] => none
  | site :: rest =>
    match site.role, site.storage.postgres with
    | .data, some storage =>
      if storage.storageClassName ∉ benchmark.postgresStorageClasses then
        some ("benchmark does not cover site " ++ site.name ++ " StorageClass " ++
          storage.storageClassName)
      else match reads.registration? site.siteRegistrationRef with
      | none => some ("read site " ++ site.name ++ " registration: " ++
          notFound "siteregistrations" site.siteRegistrationRef)
      | some registration =>
        match rollbackPolicy registration.storageRollbackPolicies storage.storageClassName with
        | none => some ("site " ++ site.name ++ " has no rollback policy for StorageClass " ++
            storage.storageClassName)
        | some policy =>
          if policy.strategy = .volumeSnapshot ∧ snapshotClassDiscovered
              registration.discoveredVolumeSnapshotClasses policy.volumeSnapshotClassName = false
          then some ("site " ++ site.name ++ " VolumeSnapshotClass " ++
            policy.volumeSnapshotClassName ++ " is not discovered")
          else validateRollbackStorage reads benchmark rest
    | _, _ => validateRollbackStorage reads benchmark rest

/-- `validateMajorUpgradeContract`; durations in messages are in nanoseconds. -/
def validateMajorUpgradeContract (reads : HubReads) (upgrade : PostgresUpgrade)
    (instance' : MultiSitePostgres) (now : Time) : Option String :=
  let spec := upgrade.spec
  if spec.targetMajorVersion < instance'.spec.postgres.majorVersion then
    some "major-version downgrade is not supported"
  else if spec.upgradeImage = "" then some "major upgrade requires a purpose-built upgradeImage"
  else if Text.contains spec.upgradeImage "@sha256:" = false then
    some "upgradeImage must be pinned by sha256 digest"
  else if Text.contains spec.targetImage "@sha256:" = false then
    some "targetImage must be pinned by sha256 digest"
  else if spec.rollbackRetention ≤ 0 then some "rollbackRetention must be positive"
  else if instance'.spec.backup.isNone then
    some "major upgrade requires a configured pgBackRest repository"
  else match spec.benchmark with
  | none => some "major upgrade requires a qualified benchmark"
  | some benchmark =>
    if benchmark.estimatedWriteOutage ≤ 0 ∨ benchmark.evidence = "" then
      some "benchmark must include a positive outage estimate and evidence reference"
    else if Text.contains benchmark.evidence "@sha256:" = false then
      some "benchmark evidence must be pinned by sha256 digest"
    else if benchmark.testedAt > now + 5 * minute then some "benchmark testedAt is in the future"
    else if now - benchmark.testedAt > 30 * 24 * 60 * minute then
      some "benchmark is older than 30 days"
    else if benchmark.upgradeImage ≠ spec.upgradeImage then
      some "benchmark upgradeImage does not match this operation"
    else if benchmark.sourceMajorVersion ≠ instance'.spec.postgres.majorVersion ∨
        benchmark.targetMajorVersion ≠ spec.targetMajorVersion then
      some "benchmark PostgreSQL versions do not match this operation"
    else if benchmark.tdeEnabled ≠ instance'.spec.tde.enabled then
      some "benchmark TDE mode does not match this instance"
    else if benchmark.estimatedWriteOutage > spec.serviceRestorationTarget then
      some ("benchmarked write outage " ++ toString benchmark.estimatedWriteOutage ++
        " exceeds restoration target " ++ toString spec.serviceRestorationTarget)
    else validateRollbackStorage reads benchmark instance'.spec.sites

/-- `ensureFreshUpgradeBackup`: `none` when the backup is there. -/
def ensureFreshUpgradeBackup (upgrade : PostgresUpgrade) (namespaceName : String) (now : Time)
    (directives : List DirectiveMap) : Option (List UpgradeWrite) :=
  match Condition.find? upgrade.status.conditions "FreshBackupReady" with
  | some c =>
    if c.status = .true then none
    else if c.status = .false ∧ c.reason = "BackupFailed" then
      some [upgradeBlocked upgrade "FreshBackupFailed" c.message]
    else some request
  | none => some request
where
  /-- Ask for the backup, then create its directive, then wait. -/
  request : List UpgradeWrite :=
    match upgrade.status.preflightBackupRequestedAt with
    | none => [.setStatus { upgrade.status with
        preflightBackupRequestedAt := some now
        observedGeneration := upgrade.generation
        phase := "Preflight"
        conditions := setCondition upgrade.status.conditions upgrade.generation "FreshBackupReady"
          .false "BackupRequested" "Waiting for a new full backup and archived WAL verification" }]
    | some requestedAt =>
      let name := "mspsql-upgrade-backup-" ++ upgrade.uid
      let waiting := setUpgradePhase upgrade "Preflight" "FreshBackupProgressing"
        "Waiting for the preflight full backup to complete" now
      match findDirective directives namespaceName name with
      | some _ => [waiting]
      | none => [.createDirective (upgradeBackupDirective upgrade "preflight" namespaceName name
          (upgrade.uid ++ "-preflight-backup") requestedAt), waiting]

/-! ## Reconcile -/

def reconcileUpgradeDeletion (upgrade : PostgresUpgrade) (stored : Option MultiSitePostgres)
    (now : Time) : List UpgradeWrite :=
  if upgrade.finalizer = false then []
  else match stored with
  | none => [.removeFinalizer]
  | some instance' =>
    let owned := instance'.annotations.upgradeUID = upgrade.uid
    let clear := .patchInstance .abandon instance' (clearUpgradeAnnotations instance')
    if upgrade.forceAbandon then
      (if owned then [clear] else []) ++
        [upgradeBlocked upgrade "ForceAbandoned"
          "Upgrade deletion was force-abandoned; residual resources require operator review",
        .removeFinalizer]
    else if ¬ owned ∨ upgrade.status.phase = "" ∨ upgrade.terminal then [.removeFinalizer]
    else match instance'.annotations.upgradePhase with
    | .major .preflight => [clear, .removeFinalizer]
    | .major .drain | .major .stop | .major .snapshot | .major .upgradePrimary
    | .major .stanzaUpgrade | .major .startPrimary =>
      advanceMajorPhase .rollback upgrade instance' .rollback "RollingBack" "DeletionRequested"
        "Rolling back before accepting operation deletion" now false
    | .major .rollback | .major .rollbackStart | .major .rollbackRestoreWrites =>
      [setUpgradePhase upgrade upgrade.status.phase "CancellationInProgress"
        "Waiting for rollback to complete before deletion" now]
    | _ => [setUpgradePhase upgrade upgrade.status.phase "ForwardRepairRequired"
        ("Upgrade deletion is blocked after writes may have resumed; repair forward or " ++
          "force-abandon with explicit approval") now]

/-- The tail of `Reconcile` for an upgrade that is still running. -/
def reconcileRunningUpgrade (reads : HubReads) (upgrade : PostgresUpgrade)
    (instance' : MultiSitePostgres) (now : Time) (directives : List DirectiveMap) :
    List UpgradeWrite :=
  let owned := instance'.annotations.upgradeUID = upgrade.uid
  if instance'.annotations.upgradePhase.isMajor = true ∧ owned then
    reconcileMajorUpgrade upgrade instance' now directives
  else if upgrade.spec.targetMajorVersion = instance'.spec.postgres.majorVersion ∧ owned then
    reconcileMinorUpgrade upgrade instance' now
  else if conditionTrue instance'.status.conditions "Ready" = false ∨
      conditionTrue instance'.status.conditions "BackupReady" = false ∨
      instance'.status.lastBackupTime.isNone then
    [upgradeBlocked upgrade "PreflightFailed"
      "instance, synchronous replication and a recent verified backup must be healthy"]
  else if instance'.status.lastBackupTime.any (now - · > 24 * 60 * minute) then
    [upgradeBlocked upgrade "BackupTooOld" "the most recent verified backup is older than 24 hours"]
  else if reads.upgrades.any fun other => other.name ≠ upgrade.name ∧
      other.spec.instanceRef = upgrade.spec.instanceRef ∧ other.terminal = false then
    [upgradeBlocked upgrade "OperationConflict" "another upgrade targets this instance"]
  else if reads.restores.any fun restore =>
      restore.targetInstanceRef = upgrade.spec.instanceRef ∧
        restore.phase ≠ "Completed" ∧ restore.phase ≠ "Failed" then
    [upgradeBlocked upgrade "OperationConflict" "a restore targets this instance"]
  else if upgrade.spec.targetMajorVersion ≠ instance'.spec.postgres.majorVersion then
    match ensureFreshUpgradeBackup upgrade instance'.namespaceName now directives with
    | some writes => writes
    | none =>
      match validateMajorUpgradeContract reads upgrade instance' now with
      | some e => [upgradeBlocked upgrade "PlatformContractRejected" e]
      | none => reconcileMajorUpgrade { upgrade with status := { upgrade.status with
          conditions := setCondition upgrade.status.conditions upgrade.generation
            "ServiceRestorationTargetAtRisk" .false "BenchmarkWithinTarget"
            "the qualified upgrade path is within the requested service-restoration target" } }
          instance' now directives
  else reconcileMinorUpgrade upgrade instance' now

/-- `Reconcile`. -/
def reconcileUpgrade (reads : HubReads) (upgrade : PostgresUpgrade)
    (stored : Option MultiSitePostgres) (now : Time) (directives : List DirectiveMap) :
    List UpgradeWrite :=
  if upgrade.deleting then reconcileUpgradeDeletion upgrade stored now
  else if upgrade.terminal then
    (match stored with
    | some instance' =>
      if instance'.annotations.upgradeUID = upgrade.uid then
        [.patchInstance .release instance' (clearUpgradeAnnotations instance')]
      else []
    | none => []) ++ if upgrade.finalizer then [.removeFinalizer] else []
  else if upgrade.finalizer = false then [.addFinalizer]
  else match stored with
  | none => [upgradeBlocked upgrade "InstanceUnavailable"
      (notFound "multisitepostgres" upgrade.spec.instanceRef)]
  | some instance' => reconcileRunningUpgrade reads upgrade instance' now directives

end Mspsql
