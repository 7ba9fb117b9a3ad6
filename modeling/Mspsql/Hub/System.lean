import Mspsql.Control.Server
import Mspsql.Hub.Admission
import Mspsql.Hub.Instance
import Mspsql.Hub.Upgrade
import Mspsql.Lib.Machine

/-!
# The hub as a machine

One instance with its upgrades, its plan and directive ConfigMaps, and the controllers, the
control server and the agents as far as they work on it.

A controller may work on any version of the instance that was ever stored (its cache lags
behind), and it may stop after any of its writes.  An instance reconcile is two events:
`issue` computes it on a version, writes plans and leaves the status to be written in
`pending`; `commit` merges that status into the object stored by then.  Plans are built
from what was read at the start, so one event may write them all.

`written`, `applied` and `advances` record history that the code does not keep.
-/

namespace Mspsql

structure HubConfig where
  backups : BackupConfig
  library : AdmissionLibrary

/-- A recorded step of an upgrade was replaced: whose, which step, for which member, and
the names in `Status.Sites` at that moment. -/
structure Advance where
  operationUID : String
  phase : UpgradePhaseValue
  member : String
  sites : List String
deriving DecidableEq, Repr

structure HubState where
  stored : MultiSitePostgres
  /-- Every version of the instance ever stored, the newest first. -/
  versions : List MultiSitePostgres
  upgrades : List PostgresUpgrade := []
  /-- Every UID an upgrade has ever had. -/
  upgradeUIDs : List String := []
  /-- The plan ConfigMaps, with plans as values. That the signed JSON of a plan reads back is
  `round_trip`, which is about plan documents; these values are not mapped to documents. -/
  planMaps : SortedMap String SitePlan := ∅
  directives : List DirectiveMap := []
  /-- The status an instance reconcile has still to write. -/
  pending : Option MultiSitePostgresStatus := none
  /-- Every signed plan ever written to a ConfigMap. -/
  written : List SitePlan := []
  /-- Every plan an agent has applied completely. -/
  applied : List SitePlan := []
  advances : List Advance := []
deriving DecidableEq

inductive HubEvent where
  /-- An instance reconcile on `view` makes its first `writes` plan writes. -/
  | issue (view : MultiSitePostgres) (reads : HubReads) (fails : String → Bool) (now : Time)
      (writes : Nat)
  /-- The status write of the instance reconcile. -/
  | commit
  /-- The status write fails or the controller crashes before it. -/
  | abandon
  /-- An upgrade reconcile on `view` makes its first `writes` writes. -/
  | upgrade (name : String) (view : MultiSitePostgres) (reads : HubReads) (now : Time)
      (writes : Nat)
  /-- A site agent has applied a plan completely. -/
  | apply (plan : SitePlan)
  /-- A plan message on the stream of a registration. -/
  | message (registration : String) (now : Time) (message : PlanMessage)
  /-- The result of a scheduled backup. -/
  | backupResult (registration : String) (parseTime : String → Option Time) (result : PlanResult)
  /-- The result of a preflight or post-upgrade backup of an upgrade. -/
  | upgradeBackupResult (name : String) (condition : Condition)
      (parseTime : String → Option Time) (result : PlanResult)
  /-- The specification is edited. -/
  | edit (spec : MultiSitePostgresSpec)
  /-- Restore and force-orphan annotations are changed. -/
  | annotate (annotations : Annotations)
  /-- Deletion of the instance is requested. -/
  | delete
  | createUpgrade (upgrade : PostgresUpgrade)
  | deleteUpgrade (name : String) (forceAbandon : Bool)

namespace HubState

def store (s : HubState) (instance' : MultiSitePostgres) : HubState :=
  { s with stored := instance', versions := instance' :: s.versions }

def storeStatus (s : HubState) (status : MultiSitePostgresStatus) : HubState :=
  s.store { s.stored with status := status }

def readsOf (s : HubState) (reads : HubReads) : HubReads :=
  { reads with upgrades := s.upgrades, planMaps := s.planMaps }

def writePlan (s : HubState) (plan : SitePlan) : HubState :=
  if planStored s.planMaps plan then s
  else { s with planMaps := reconcilePlan s.planMaps plan, written := plan :: s.written }

def writePlans (s : HubState) (plans : List SitePlan) : HubState := plans.foldl writePlan s

def outcome (config : HubConfig) (s : HubState) (view : MultiSitePostgres) (reads : HubReads)
    (fails : String → Bool) (now : Time) : Outcome :=
  reconcile config.backups (s.readsOf reads) s.directives fails now view

/-- Apply the outcome of an instance reconcile up to its first `writes` plan writes.  An
update of the finalizers fails on a version that is not the stored one; the finalizer goes
last, after the ConfigMaps were deleted. -/
def applyOutcome (s : HubState) (view : MultiSitePostgres) (o : Outcome) (writes : Nat) :
    HubState :=
  let planned := s.writePlans (o.plans.take writes)
  if writes < o.plans.length then planned
  else
    let tidied := { planned with
      directives := if o.deletePlans then
        o.directives.filter (·.ownerUID ≠ s.stored.uid) else o.directives
      planMaps := if o.deletePlans then ∅ else planned.planMaps
      pending := o.status }
    if view = s.stored ∧ o.addFinalizer then tidied.store { s.stored with finalizer := true }
    else if view = s.stored ∧ o.removeFinalizer ∧ o.plans.length < writes then
      tidied.store { s.stored with finalizer := false }
    else tidied

def upgrade? (s : HubState) (name : String) : Option PostgresUpgrade :=
  s.upgrades.find? (fun u => u.name = name)

def updateUpgrade (s : HubState) (name : String) (f : PostgresUpgrade → PostgresUpgrade) :
    HubState :=
  let changed := s.upgrades.map fun u => if u.name = name then f u else u
  { s with upgrades := changed.filter fun u => ¬ (u.deleting ∧ u.finalizer = false) }

def applyUpgradeWrite (name : String) (s : HubState) : UpgradeWrite → HubState
  | .patchInstance kind base modified =>
    let patched := s.store (patchInstance base modified s.stored)
    if kind = .advance ∨ kind = .release then
      { patched with advances := {
          operationUID := s.stored.annotations.upgradeUID
          phase := s.stored.annotations.upgradePhase
          member := s.stored.annotations.upgradeMember
          sites := s.stored.status.sites.map (·.name) } :: s.advances }
    else patched
  | .setStatus status => s.updateUpgrade name fun u => { u with status := status }
  | .addFinalizer => s.updateUpgrade name fun u => { u with finalizer := true }
  | .removeFinalizer => s.updateUpgrade name fun u => { u with finalizer := false }
  | .createDirective map => { s with directives := s.directives ++ [map] }

def applyUpgradeWrites (s : HubState) (name : String) (writes : List UpgradeWrite) : HubState :=
  writes.foldl (applyUpgradeWrite name) s

def reportsHonestly (s : HubState) (registration : String) : PlanMessage → Bool
  | .result result => result.operationUID = "" ∧
      s.applied.any fun p => p.revision = result.appliedRevision ∧
        p.site.siteRegistrationRef = registration
  | _ => true

def step (config : HubConfig) (s : HubState) : HubEvent → Option HubState
  | .issue view reads fails now writes =>
    if view ∈ s.versions ∧ s.pending = none then
      some (s.applyOutcome view (s.outcome config view reads fails now) writes)
    else none
  | .commit =>
    match s.pending with
    | some desired => some { s.storeStatus (mergeReconciledStatus s.stored.status desired) with
        pending := none }
    | none => none
  | .abandon => some { s with pending := none }
  | .upgrade name view reads now writes =>
    match s.upgrade? name with
    | some u =>
      if view ∈ s.versions then
        let ws := reconcileUpgrade (s.readsOf reads) u (some view) now s.directives
        some (s.applyUpgradeWrites name (ws.take writes))
      else none
    | none => none
  | .apply plan => if plan ∈ s.written then some { s with applied := plan :: s.applied } else none
  | .message registration now message =>
    if s.reportsHonestly registration message then
      match receivePlanMessage now registration message s.stored with
      | .ok updated => some (s.store updated)
      | .error _ => some s
    else none
  | .backupResult registration parseTime result =>
    some (s.store (recordInstanceDirectiveResult parseTime registration result s.stored))
  | .upgradeBackupResult name condition parseTime result =>
    let marked := s.updateUpgrade name fun u => { u with status := { u.status with
      conditions := Condition.set u.status.conditions condition } }
    if directiveSucceeded result.conditions then
      some (marked.store (recordUpgradeBackupEvidence parseTime result s.stored))
    else some marked
  | .edit spec =>
    if Admitted config.library spec then
      some (s.store { s.stored with spec := spec, generation := s.stored.generation + 1 })
    else none
  | .annotate annotations =>
    some (s.store { s.stored with annotations := { s.stored.annotations with
      restoreUID := annotations.restoreUID
      restoreName := annotations.restoreName
      restoreSourceUID := annotations.restoreSourceUID
      restorePhase := annotations.restorePhase
      forceOrphan := annotations.forceOrphan } })
  | .delete =>
    some (s.store { s.stored with deleting := true, generation := s.stored.generation + 1 })
  | .createUpgrade u =>
    if u.uid ≠ "" ∧ u.name ≠ "" ∧ u.uid ∉ s.upgradeUIDs ∧
        u.name ∉ s.upgrades.map (·.name) ∧ u.deleting = false then
      some { s with upgrades := u :: s.upgrades, upgradeUIDs := u.uid :: s.upgradeUIDs }
    else none
  | .deleteUpgrade name forceAbandon =>
    some (s.updateUpgrade name fun u => { u with deleting := true, forceAbandon := forceAbandon })

/-- A new instance, no plan issued for it yet; what other components have recorded in its
status is arbitrary. -/
structure Initial (config : HubConfig) (s : HubState) : Prop where
  admitted : Admitted config.library s.stored.spec
  versions : s.versions = [s.stored]
  activeRevision : s.stored.status.activeRevision = 0
  planFingerprint : s.stored.status.planFingerprint = .none
  sites : s.stored.status.sites = []
  upgradeUID : s.stored.annotations.upgradeUID = ""
  upgrades : s.upgrades = []
  upgradeUIDs : s.upgradeUIDs = []
  planMaps : s.planMaps = ∅
  pending : s.pending = none
  written : s.written = []
  applied : s.applied = []
  advances : s.advances = []

end HubState

end Mspsql
