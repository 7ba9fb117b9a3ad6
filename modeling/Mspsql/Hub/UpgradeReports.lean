import Mspsql.Hub.Upgrade

/-!
# What an upgrade reconcile reports

A reconcile of a `PostgresUpgrade` writes its status at most once.  Nearly always the write
sets `Ready` and leaves the backups of the upgrade alone; the four writes that ask for a
backup, try it again or give up are listed beside.  The one report left out of `StatusWrite`
is `OperationConflict`: `UpgradeReported` says when it is made.
-/

namespace Mspsql

namespace PostgresUpgradeStatus

def backupCondition (status : PostgresUpgradeStatus) : Option Condition :=
  Condition.find? status.conditions "PostUpgradeBackupReady"

/-- The result of a post-upgrade backup is recorded and the controller has not acted on it. -/
def reported (status : PostgresUpgradeStatus) : Bool :=
  status.backupCondition.any fun c =>
    c.status = .true ∨ c.status = .false ∧ c.reason = "BackupFailed"

/-- The backup of `status` stands as in `old`. -/
def sameBackup (old status : PostgresUpgradeStatus) : Prop :=
  status.backupCondition = old.backupCondition ∧
    status.postUpgradeBackupAttempt = old.postUpgradeBackupAttempt

end PostgresUpgradeStatus

def UpgradeWrite.isStatus : UpgradeWrite → Bool
  | .setStatus _ => true
  | _ => false

/-- The writes of a reconcile that meets no conflict. -/
inductive StatusWrite (u : PostgresUpgrade) : UpgradeWrite → Prop where
  | other {w : UpgradeWrite} (h : w.isStatus = false) : StatusWrite u w
  | ready {status : PostgresUpgradeStatus} {c : Condition}
      (report : Condition.find? status.conditions "Ready" = some c)
      (reason : c.reason ≠ "OperationConflict") (backup : u.status.sameBackup status) :
      StatusWrite u (.setStatus status)
  | freshRequested {status : PostgresUpgradeStatus}
      (before : u.status.preflightBackupRequestedAt = none)
      (after : status.preflightBackupRequestedAt ≠ none) (backup : u.status.sameBackup status) :
      StatusWrite u (.setStatus status)
  | requested {status : PostgresUpgradeStatus}
      (before : u.status.postUpgradeBackupRequestedAt = none)
      (after : status.postUpgradeBackupRequestedAt ≠ none) (unreported : status.reported = false)
      (attempt : status.postUpgradeBackupAttempt = u.status.postUpgradeBackupAttempt) :
      StatusWrite u (.setStatus status)
  | retry {status : PostgresUpgradeStatus} (failed : u.status.reported = true)
      (unreported : status.reported = false)
      (attempt : status.postUpgradeBackupAttempt = u.status.postUpgradeBackupAttempt + 1) :
      StatusWrite u (.setStatus status)
  | gaveUp {status : PostgresUpgradeStatus} {c : Condition}
      (report : Condition.find? status.conditions "Ready" = some c)
      (reason : c.reason ≠ "OperationConflict") (unreported : status.reported = false)
      (attempt : status.postUpgradeBackupAttempt = u.status.postUpgradeBackupAttempt) :
      StatusWrite u (.setStatus status)

theorem find?_setCondition_self (conditions : List Condition) (generation : Nat) (type : String)
    (status : ConditionStatus) (reason message : String) :
    Condition.find? (setCondition conditions generation type status reason message) type =
      some ⟨type, status, generation, reason, message⟩ := by
  rw [setCondition, Condition.find?_set, if_pos rfl]

theorem find?_setCondition_ne {type other : String} (h : type ≠ other)
    (conditions : List Condition) (generation : Nat) (status : ConditionStatus)
    (reason message : String) :
    Condition.find? (setCondition conditions generation type status reason message) other =
      Condition.find? conditions other := by
  rw [setCondition, Condition.find?_set, if_neg h]

def conflictReport (u : PostgresUpgrade) (conditions : List Condition) (message : String) :
    UpgradeWrite :=
  upgradeBlocked { u with status := { u.status with conditions := conditions } }
    "OperationConflict" message

theorem StatusWrite.ne_conflictReport {u : PostgresUpgrade} {w : UpgradeWrite}
    (h : StatusWrite u w) (conditions : List Condition) (message : String) :
    w ≠ conflictReport u conditions message := by
  rintro rfl
  have hready : Condition.find? (setCondition conditions u.generation "Ready" .false
      "OperationConflict" message) "Ready" =
      some ⟨"Ready", .false, u.generation, "OperationConflict", message⟩ :=
    find?_setCondition_self ..
  cases h with
  | other h => cases h
  | ready report reason | gaveUp report reason =>
    exact reason (Option.some.inj (report.symm.trans hready) ▸ rfl)
  | freshRequested before after | requested before after => exact after before
  | retry _ _ attempt =>
    have hattempt : u.status.postUpgradeBackupAttempt = u.status.postUpgradeBackupAttempt + 1 :=
      attempt
    omega

section Writes

variable {u : PostgresUpgrade} {w : UpgradeWrite} {status : PostgresUpgradeStatus}
  {conditions : List Condition} {generation : Nat} {value : ConditionStatus}
  {reason message : String}

theorem statusWrite_ready
    (hcond : Condition.find? conditions "PostUpgradeBackupReady" = u.status.backupCondition)
    (hconds : status.conditions =
      setCondition conditions generation "Ready" value reason message)
    (hattempt : status.postUpgradeBackupAttempt = u.status.postUpgradeBackupAttempt)
    (hreason : reason ≠ "OperationConflict") : StatusWrite u (.setStatus status) := by
  have hreport := find?_setCondition_self conditions generation "Ready" value reason message
  refine .ready (hconds ▸ hreport) hreason ⟨?_, hattempt⟩
  show Condition.find? status.conditions _ = _
  rw [hconds]
  exact (find?_setCondition_ne (by decide) ..).trans hcond

theorem unreported_set (hconds : status.conditions =
      setCondition conditions generation "PostUpgradeBackupReady" .false reason message)
    (hreason : reason ≠ "BackupFailed") : status.reported = false := by
  unfold PostgresUpgradeStatus.reported PostgresUpgradeStatus.backupCondition
  rw [hconds, setCondition, Condition.find?_set]
  simp [hreason]

end Writes

/-! ## Conflicts -/

/-- The upgrade goes on with what it has begun, whatever other operations there are. -/
def PostgresUpgrade.underWay (u : PostgresUpgrade) (view : MultiSitePostgres) : Prop :=
  view.annotations.upgradeUID = u.uid ∧ (view.annotations.upgradePhase.isMajor = true ∨
      u.spec.targetMajorVersion = view.spec.postgres.majorVersion)

def contested (reads : HubReads) (u : PostgresUpgrade) : Prop :=
  (∃ other ∈ reads.upgrades, other.name ≠ u.name ∧
      other.spec.instanceRef = u.spec.instanceRef ∧ other.terminal = false) ∨
    ∃ restore ∈ reads.restores, restore.targetInstanceRef = u.spec.instanceRef ∧
      restore.phase ≠ "Completed" ∧ restore.phase ≠ "Failed"

inductive UpgradeReported (reads : HubReads) (u : PostgresUpgrade) (view : MultiSitePostgres) :
    List UpgradeWrite → Prop where
  | normal {writes : List UpgradeWrite} (h : ∀ w ∈ writes, StatusWrite u w) :
      UpgradeReported reads u view writes
  | conflict {conditions : List Condition} {message : String} (waiting : ¬ u.underWay view)
      (conflict : contested reads u ∨
        view.annotations.upgradeUID ≠ "" ∧ view.annotations.upgradeUID ≠ u.uid)
      (backup : Condition.find? conditions "PostUpgradeBackupReady" = u.status.backupCondition) :
      UpgradeReported reads u view [conflictReport u conditions message]

end Mspsql
