import Mspsql.Hub.Checks

/-!
# Scheduled backups

Each configured backup schedule has a status entry with its last and next slot.  When a
slot is due and backups may run, the controller makes sure a directive ConfigMap for the
slot exists and records the slot.  The cron library is a parameter; parsing a schedule
gives its `Next` function.  Times written to a status or a directive keep whole seconds.
-/

namespace Mspsql

inductive OwnerKind where
  | multiSitePostgres
  | postgresDatabase
  | postgresUser
  | postgresUpgrade
deriving DecidableEq, Repr

/-- What the `spec.json` of a directive decodes to. -/
inductive DirectiveSpec where
  | backup (backupType : String) (scheduledAt : Time)
  | declaration (json : String)
deriving DecidableEq, Repr

structure DirectiveMap where
  namespaceName : String
  name : String
  ownerKind : OwnerKind
  ownerName : String
  ownerUID : String
  type : String
  instanceRef : String
  deleting : Bool := false
  operationUID : String
  /-- Set for the backups of an upgrade: `preflight` or `post-upgrade`. -/
  upgradeBackupPhase : String := ""
  spec : DirectiveSpec
deriving DecidableEq, Repr

/-- `client.Get` of a ConfigMap. -/
def findDirective (maps : List DirectiveMap) (namespaceName name : String) : Option DirectiveMap :=
  maps.find? (fun m => m.namespaceName = namespaceName ∧ m.name = name)

/-- How the backup part of the hub is configured. -/
structure BackupConfig where
  /-- `cron.ParseStandard` on an expression in a timezone: the `Next` function. -/
  parseSchedule : String → String → Option (Time → Time)
  defaultBackupSchedule : String := ""
  /-- How many slots the catch-up loop may skip before it is taken not to return. -/
  catchUpFuel : Nat := 1000

structure BackupSchedule where
  backupType : String
  expression : String
deriving DecidableEq, Repr

def defaultWeeklyBackupSchedule : String := "30 6 * * 0"

def configuredBackupSchedules (backup : BackupSpec) (defaultSchedule : String) :
    List BackupSchedule :=
  let schedule (type expression : String) : List BackupSchedule :=
    if expression = "" then [] else [⟨type, expression⟩]
  let configured := schedule "full" backup.schedules.full ++
    schedule "diff" backup.schedules.differential ++ schedule "incr" backup.schedules.incremental
  if configured.isEmpty then
    [⟨"full", if defaultSchedule = "" then defaultWeeklyBackupSchedule else defaultSchedule⟩]
  else configured

def parseBackupSchedule (config : BackupConfig) (expression timezone : String) :
    Except String (Time → Time) :=
  match config.parseSchedule expression (if timezone = "" then "UTC" else timezone) with
  | some next => .ok next
  | none => .error ("parse backup schedule " ++ quote expression)

def previousBackupScheduleStatus (statuses : List BackupScheduleStatus) (type : String) :
    BackupScheduleStatus :=
  (statuses.find? (fun s => s.type = type)).getD {}

def storedTime (t : Time) : Time := unix t * second

/-- `fmt.Sprintf("mspsql-backup-%s-%d", backupType, scheduledAt.Unix())`. -/
def backupDirectiveName (backupType : String) (scheduledAt : Time) : String :=
  "mspsql-backup-" ++ backupType ++ "-" ++ toString (unix scheduledAt)

def scheduledBackupOperationUID (instanceUID backupType : String) (scheduledAt : Time) : String :=
  instanceUID ++ "-backup-" ++ backupType ++ "-" ++ toString (unix scheduledAt)

def backupDirective (instance' : MultiSitePostgres) (backupType : String) (scheduledAt : Time) :
    DirectiveMap where
  namespaceName := instance'.namespaceName
  name := backupDirectiveName backupType scheduledAt
  ownerKind := .multiSitePostgres
  ownerName := instance'.name
  ownerUID := instance'.uid
  type := "Backup"
  instanceRef := instance'.name
  operationUID := scheduledBackupOperationUID instance'.uid backupType scheduledAt
  spec := .backup backupType (storedTime scheduledAt)

/-- `reconcileBackupDirective`: created only when no ConfigMap of that name exists; one
that exists is accepted as it is. -/
def reconcileBackupDirective (maps : List DirectiveMap) (instance' : MultiSitePostgres)
    (backupType : String) (scheduledAt : Time) : List DirectiveMap :=
  match findDirective maps instance'.namespaceName (backupDirectiveName backupType scheduledAt) with
  | some _ => maps
  | none => maps ++ [backupDirective instance' backupType scheduledAt]

def scheduledBackupOperation (instance' : MultiSitePostgres) (backupType : String)
    (scheduledAt : Time) : OperationProgressStatus where
  operationUID := scheduledBackupOperationUID instance'.uid backupType scheduledAt
  phase := "ScheduledBackup"
  attempt := 1

/-- The catch-up loop: the last slot that is not after `now`, and the slot after it. -/
def catchUp (next : Time → Time) (now : Time) : Nat → Time → Time → Option (Time × Time)
  | 0, _, _ => none
  | fuel + 1, due, following =>
    if following > now then some (due, following)
    else catchUp next now fuel following (next following)

/-- How a pass over the schedules can fail: with an error, or by a catch-up loop that does
not return. -/
inductive BackupError where
  | failed (text : String)
  | stuck
deriving DecidableEq, Repr

def reconcileBackupSchedule (config : BackupConfig) (instance' : MultiSitePostgres)
    (backup : BackupSpec) (now : Time) (canRun : Bool) (fails : String → Bool)
    (maps : List DirectiveMap) (configured : BackupSchedule) :
    List DirectiveMap × Except BackupError BackupScheduleStatus :=
  match parseBackupSchedule config configured.expression backup.schedules.timezone with
  | .error e => (maps, .error (.failed e))
  | .ok next =>
    let previous := { previousBackupScheduleStatus instance'.status.backupSchedules
      configured.backupType with type := configured.backupType }
    match previous.nextScheduledAt with
    | none => (maps, .ok { previous with nextScheduledAt := some (storedTime (next now)) })
    | some due =>
      if due > now ∨ canRun = false then (maps, .ok previous)
      else match catchUp next now config.catchUpFuel due (next due) with
      | none => (maps, .error .stuck)
      | some (slot, following) =>
        if fails (backupDirectiveName configured.backupType slot) then
          (maps, .error (.failed "directive ConfigMap write failed"))
        else (reconcileBackupDirective maps instance' configured.backupType slot,
          .ok { previous with
            lastScheduledAt := some (storedTime slot)
            nextScheduledAt := some (storedTime following)
            operation := some (scheduledBackupOperation instance' configured.backupType slot) })

/-- The loop of `reconcileBackupSchedules` over the configured schedules; `fails` tells
which directive writes the API refuses. -/
def reconcileBackupScheduleList (config : BackupConfig) (instance' : MultiSitePostgres)
    (backup : BackupSpec) (now : Time) (canRun : Bool) (fails : String → Bool) :
    List DirectiveMap → List BackupSchedule →
      List DirectiveMap × Except BackupError (List BackupScheduleStatus)
  | maps, [] => (maps, .ok [])
  | maps, configured :: rest =>
    match reconcileBackupSchedule config instance' backup now canRun fails maps configured with
    | (maps', .error e) => (maps', .error e)
    | (maps', .ok status) =>
      match reconcileBackupScheduleList config instance' backup now canRun fails maps' rest with
      | (maps'', .error e) => (maps'', .error e)
      | (maps'', .ok statuses) => (maps'', .ok (status :: statuses))

def reconcileBackupSchedules (config : BackupConfig) (instance' : MultiSitePostgres)
    (now : Time) (canRun : Bool) (fails : String → Bool) (maps : List DirectiveMap) :
    List DirectiveMap × Except BackupError (List BackupScheduleStatus) :=
  match instance'.spec.backup with
  | none => (maps, .ok [])
  | some backup =>
    reconcileBackupScheduleList config instance' backup now canRun fails maps
      (configuredBackupSchedules backup config.defaultBackupSchedule)

end Mspsql
