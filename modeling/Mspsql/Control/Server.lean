import Mspsql.Hub.Backups

/-!
# The control server

The messages an agent sends on its control stream and what the server records for them.
A stream belongs to a site registration, and the server passes on the registration's
name.  The resource summaries of a progress message are kept decoded: addresses,
conditions and topology.
-/

namespace Mspsql

structure PlanAcknowledgement where
  instanceUID : String
  revision : Int
  accepted : Bool
  validationErrors : List String := []
deriving DecidableEq, Repr

structure PlanProgress where
  instanceUID : String
  revision : Int
  phase : String
  addresses : List (String × String) := []
  conditions : List Condition := []
  primary : Option String := none
  synchronousStandbys : List String := []
deriving DecidableEq, Repr

structure PlanResult where
  instanceUID : String
  operationUID : String := ""
  appliedRevision : Int := 0
  conditions : List Condition := []
deriving DecidableEq, Repr

/-- `setSiteCondition`: no generation is recorded. -/
def setSiteCondition (conditions : List Condition) (reported : Condition) : List Condition :=
  Condition.set conditions { reported with observedGeneration := 0 }

/-! ## Plan messages -/

/-- The update function of `recordAcknowledgement`. -/
def acknowledgeSite (ack : PlanAcknowledgement) (site : SiteRevisionStatus) : SiteRevisionStatus :=
  if ack.revision ≠ site.desiredRevision then site
  else if ack.accepted then
    { site with acknowledgedRevision := ack.revision, phase := "Applying" }
  else
    { site with
      phase := "Rejected"
      conditions := setSiteCondition site.conditions
        { type := "PlanAccepted", status := .false, reason := "ValidationFailed",
          message := Text.join "; " ack.validationErrors } }

/-- The update function of `recordProgress`: reported addresses are added, never removed. -/
def progressSite (now : Time) (progress : PlanProgress) (site : SiteRevisionStatus) :
    SiteRevisionStatus :=
  if progress.revision ≠ site.desiredRevision then site
  else
    let observed := { site with
      phase := progress.phase
      addresses := progress.addresses.foldl (fun m e => m.insert e.1 e.2) site.addresses
      conditions := progress.conditions.foldl setSiteCondition site.conditions }
    if progress.primary.isSome ∨ progress.synchronousStandbys ≠ [] then
      { observed with
        primary := progress.primary.getD ""
        synchronousStandbys := Text.sortText progress.synchronousStandbys
        topologyObservedAt := some now }
    else observed

/-- The update function of `recordResult`. -/
def resultSite (result : PlanResult) (site : SiteRevisionStatus) : SiteRevisionStatus :=
  if result.appliedRevision ≠ site.desiredRevision then site
  else
    { site with
      appliedRevision := result.appliedRevision
      phase := if result.conditions.any (fun c => c.type = "Deleted" ∧ c.status = .true) then
        "Deleted" else "Ready"
      conditions := result.conditions.foldl setSiteCondition site.conditions }

/-- The entry a message is recorded in: the first one of that name. -/
def siteIndex? (sites : List SiteRevisionStatus) (siteName : String) : Option Nat :=
  sites.findIdx? (·.name = siteName)

theorem siteIndex?_some {sites : List SiteRevisionStatus} {name : String} {entry : Nat}
    (h : siteIndex? sites name = some entry) :
    (sites[entry]?).map (·.name) = some name := by
  obtain ⟨hlt, hname, -⟩ := List.findIdx?_eq_some_iff_getElem.mp h
  rw [List.getElem?_eq_getElem hlt]
  simpa using hname

def stampGeneration (generation : Nat) (site : SiteRevisionStatus) : SiteRevisionStatus :=
  { site with conditions := site.conditions.map fun c =>
      { c with observedGeneration := generation } }

/-- `updateInstanceSite` on the instance that carries the UID: the entry is looked up by
the name of the registration the stream belongs to. -/
def updateInstanceSite (instance' : MultiSitePostgres) (siteName : String)
    (update : SiteRevisionStatus → SiteRevisionStatus) : Except String MultiSitePostgres :=
  match siteIndex? instance'.status.sites siteName with
  | none => .error "site is not part of the instance"
  | some entry => .ok { instance' with status := { instance'.status with
      sites := instance'.status.sites.modify entry
        (fun site => stampGeneration instance'.generation (update site)) } }

inductive PlanMessage where
  | acknowledgement (ack : PlanAcknowledgement)
  | progress (progress : PlanProgress)
  | result (result : PlanResult)
deriving DecidableEq, Repr

def PlanMessage.update (now : Time) : PlanMessage → SiteRevisionStatus → SiteRevisionStatus
  | .acknowledgement ack => acknowledgeSite ack
  | .progress report => progressSite now report
  | .result applied => resultSite applied

def PlanMessage.addressesFor (message : PlanMessage) (site : SiteRevisionStatus) :
    List (String × String) :=
  match message with
  | .progress report => if report.revision ≠ site.desiredRevision then [] else report.addresses
  | _ => []

/-- What a message does to the entry it is recorded in. -/
structure UpdateSpec (message : PlanMessage) (site updated : SiteRevisionStatus) : Prop where
  name : updated.name = site.name
  siteRegistrationRef : updated.siteRegistrationRef = site.siteRegistrationRef
  desiredRevision : updated.desiredRevision = site.desiredRevision
  addresses : updated.addresses =
    (message.addressesFor site).foldl (fun m e => m.insert e.1 e.2) site.addresses
  appliedRevision : updated.appliedRevision = site.appliedRevision ∨
    ∃ result, message = .result result ∧ updated.appliedRevision = result.appliedRevision ∧
      result.appliedRevision = site.desiredRevision

theorem PlanMessage.update_spec (now : Time) (message : PlanMessage) (site : SiteRevisionStatus) :
    UpdateSpec message site (message.update now site) := by
  cases message with
  | acknowledgement ack =>
    unfold PlanMessage.update acknowledgeSite
    dsimp only
    split
    · exact ⟨rfl, rfl, rfl, rfl, .inl rfl⟩
    · split <;> exact ⟨rfl, rfl, rfl, rfl, .inl rfl⟩
  | progress report =>
    unfold PlanMessage.update progressSite
    dsimp only
    split
    · rename_i hstale
      exact ⟨rfl, rfl, rfl, by rw [addressesFor, if_pos hstale]; rfl, .inl rfl⟩
    · rename_i hcur
      split <;> exact ⟨rfl, rfl, rfl, by rw [addressesFor, if_neg hcur], .inl rfl⟩
  | result applied =>
    unfold PlanMessage.update resultSite
    dsimp only
    split
    · exact ⟨rfl, rfl, rfl, rfl, .inl rfl⟩
    · rename_i hdesired
      exact ⟨rfl, rfl, rfl, rfl, .inr ⟨applied, rfl, rfl, not_not.mp hdesired⟩⟩

/-- `receive` on the stream of the registration `siteName`, for a plan message. -/
def receivePlanMessage (now : Time) (siteName : String) (message : PlanMessage)
    (instance' : MultiSitePostgres) : Except String MultiSitePostgres :=
  updateInstanceSite instance' siteName (message.update now)

/-! ## Directive results -/

/-- `directiveSucceeded`: at least one `Succeeded` condition, and all of them true. -/
def directiveSucceeded (reported : List Condition) : Bool :=
  let succeeded := reported.filter (·.type = "Succeeded")
  !succeeded.isEmpty && succeeded.all (·.status = .true)

def directiveFailure (conditions : List Condition) : String × String :=
  match conditions.find? (·.status = .false) with
  | some c => (c.reason, c.message)
  | none => ("DirectiveFailed", "The site agent reported directive failure")

def directiveResultOperation (result : PlanResult) (phase siteName : String) :
    OperationProgressStatus :=
  let operation : OperationProgressStatus :=
    { operationUID := result.operationUID, phase := phase, attempt := 1, site := siteName,
      terminal := true }
  if directiveSucceeded result.conditions then operation
  else { operation with
    lastErrorReason := (directiveFailure result.conditions).1
    lastErrorMessage := (directiveFailure result.conditions).2 }

def markBackupScheduleOperation (result : PlanResult) (siteName : String) :
    List BackupScheduleStatus → List BackupScheduleStatus
  | [] => []
  | s :: rest =>
    if s.operation.any (·.operationUID = result.operationUID) then
      { s with operation := some (directiveResultOperation result "ScheduledBackup" siteName) } ::
        rest
    else s :: markBackupScheduleOperation result siteName rest

/-- `updateBackupEvidence`; `parseTime` is the RFC 3339 parser. -/
def updateBackupEvidence (parseTime : String → Option Time) (status : MultiSitePostgresStatus)
    (conditions : List Condition) : MultiSitePostgresStatus :=
  conditions.foldl (fun s c =>
    match c.type with
    | "BackupCompletedAt" =>
      { s with lastBackupTime := (parseTime c.message).orElse fun _ => s.lastBackupTime }
    | "RecoveryWindowStart" =>
      { s with recoveryWindowStart :=
          (parseTime c.message).orElse fun _ => s.recoveryWindowStart }
    | "DisposableRestoreVerifiedAt" =>
      { s with restoreDrillLastVerifiedAt :=
          (parseTime c.message).orElse fun _ => s.restoreDrillLastVerifiedAt }
    | "RestoreDrillBackupSet" => { s with restoreDrillBackupSet := c.message }
    | _ => s) status

def setRecoveryWindowCondition (instance' : MultiSitePostgres) : MultiSitePostgres :=
  if instance'.status.recoveryWindowStart.isNone then instance'
  else if instance'.status.restoreDrillLastVerifiedAt.isSome then
    instance'.setCondition "RecoveryWindowAvailable" .true "DisposableRestoreVerified"
      "Archived WAL continuity and a recent disposable restore drill prove the recovery window"
  else
    instance'.setCondition "RecoveryWindowAvailable" .false "RestoreDrillRequired"
      ("Archived WAL continuity is present but a disposable restore drill has not " ++
        "verified recoverability")

def copyConditions (instance' : MultiSitePostgres) (reported : List Condition) :
    MultiSitePostgres :=
  { instance' with status := { instance'.status with
    conditions := reported.foldl (fun cs c =>
      Condition.set cs { c with observedGeneration := instance'.generation })
      instance'.status.conditions } }

def recordInstanceDirectiveResult (parseTime : String → Option Time) (siteName : String)
    (result : PlanResult) (instance' : MultiSitePostgres) : MultiSitePostgres :=
  let copied := copyConditions instance' result.conditions
  if directiveSucceeded result.conditions then
    let evidence := updateBackupEvidence parseTime copied.status result.conditions
    setRecoveryWindowCondition (
      { copied with status := { evidence with
          backupSchedules := markBackupScheduleOperation result siteName
            evidence.backupSchedules } }.setCondition
        "BackupReady" .true "BackupVerified"
        "pgBackRest completed a backup and verified archived WAL metadata")
  else
    { copied with status := { copied.status with
        backupSchedules := markBackupScheduleOperation result siteName
          copied.status.backupSchedules } }.setCondition
      "BackupReady" .false "BackupFailed" "The scheduled pgBackRest operation failed"

/-- The instance part of `recordUpgradeBackupResult`, for a successful backup. -/
def recordUpgradeBackupEvidence (parseTime : String → Option Time) (result : PlanResult)
    (instance' : MultiSitePostgres) : MultiSitePostgres :=
  setRecoveryWindowCondition (
    { instance' with status :=
        updateBackupEvidence parseTime instance'.status result.conditions }.setCondition
      "BackupReady" .true "BackupVerified"
      "pgBackRest completed a backup and verified archived WAL metadata")

/-! ## Trust in scheduled backups -/

/-- `scheduledBackupDirectiveTrusted`: the first schedule entry with the directive's type
and slot decides. -/
def scheduledBackupDirectiveTrusted (map : DirectiveMap) (instance' : MultiSitePostgres) : Bool :=
  match map.spec with
  | .declaration _ => false
  | .backup backupType scheduledAt =>
    map.type = "Backup" ∧ map.ownerUID = instance'.uid ∧ map.ownerName = instance'.name ∧
      map.deleting = false ∧
      (instance'.status.backupSchedules.any fun s =>
        s.type = backupType ∧ s.lastScheduledAt = some scheduledAt) ∧
      map.name = backupDirectiveName backupType scheduledAt ∧
      map.operationUID = scheduledBackupOperationUID instance'.uid backupType scheduledAt

end Mspsql
