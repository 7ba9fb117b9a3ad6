import Mspsql.Plan
import Mspsql.Lib.Text

/-!
# The hub's objects

The custom resources the hub's controllers read and write.  Only the annotations the code
looks at are kept, each under its own field; a key that is absent is the empty text, as
in a Go map lookup.  The two phase annotations are enumerations with one extra case for a
text that names no phase, and the two numeric ones are `none` when they are absent or do
not parse.
-/

namespace Mspsql

/-- The value of the `upgrade-phase` annotation. -/
inductive UpgradePhaseValue where
  | absent
  | major (phase : MajorUpgradePhase)
  | minor (phase : UpgradePhase)
  | other (text : String)
deriving DecidableEq, Repr

/-- The value of the `restore-phase` annotation. -/
inductive RestorePhaseValue where
  | absent
  | active (phase : RestorePhase)
  | completed
  | other (text : String)
deriving DecidableEq, Repr

structure Annotations where
  restoreUID : String := ""
  restoreName : String := ""
  restoreSourceUID : String := ""
  restorePhase : RestorePhaseValue := .absent
  upgradeUID : String := ""
  upgradeName : String := ""
  upgradePhase : UpgradePhaseValue := .absent
  upgradeMember : String := ""
  upgradedMembers : String := ""
  upgradeFromPrimary : String := ""
  upgradeCandidate : String := ""
  upgradeSwitched : String := ""
  upgradeExpectedRevision : Option Int := none
  upgradeSourceMajor : Option Int := none
  forceOrphan : Bool := false
deriving DecidableEq, Repr

/-- The structure `planFingerprint` hashes. -/
structure FingerprintInputs where
  generation : Nat
  addresses : StringMap
  addressCandidates : StringMap
  addressMigration : Option AddressMigrationPlan
  credentialRotation : Option CredentialRotationPlan
  restoreUID : String
  restorePhase : RestorePhaseValue
  upgradeUID : String
  upgradePhase : UpgradePhaseValue
  upgradeMember : String
  upgradedMembers : String
deriving DecidableEq

/-- A stored plan fingerprint: none yet, the marker of an instance under deletion, or a
SHA-256 sum, kept as the structure it is the sum of. -/
inductive PlanFingerprint where
  | none
  | deleting
  | sum (inputs : FingerprintInputs)
deriving DecidableEq

structure BackupScheduleStatus where
  type : String := ""
  lastScheduledAt : Option Time := none
  nextScheduledAt : Option Time := none
  operation : Option OperationProgressStatus := none
deriving DecidableEq, Repr

structure MultiSitePostgresStatus where
  observedGeneration : Nat := 0
  activeRevision : Int := 0
  planFingerprint : PlanFingerprint := .none
  phase : String := ""
  primary : String := ""
  synchronousStandbys : List String := []
  sites : List SiteRevisionStatus := []
  lastBackupTime : Option Time := none
  recoveryWindowStart : Option Time := none
  restoreDrillLastVerifiedAt : Option Time := none
  restoreDrillBackupSet : String := ""
  operation : Option OperationProgressStatus := none
  backupSchedules : List BackupScheduleStatus := []
  conditions : List Condition := []
deriving DecidableEq

structure MultiSitePostgres where
  name : String
  namespaceName : String
  uid : String
  generation : Nat := 1
  deleting : Bool := false
  finalizer : Bool := true
  annotations : Annotations := {}
  spec : MultiSitePostgresSpec
  status : MultiSitePostgresStatus := {}
deriving DecidableEq

structure MajorUpgradeBenchmark where
  testedAt : Time
  estimatedWriteOutage : Duration
  upgradeImage : String
  sourceMajorVersion : Int
  targetMajorVersion : Int
  tdeEnabled : Bool
  postgresStorageClasses : List String
  evidence : String
deriving DecidableEq, Repr

structure PostgresUpgradeSpec where
  instanceRef : String
  targetImage : String
  targetMajorVersion : Int
  upgradeImage : String := ""
  serviceRestorationTarget : Duration := 0
  rollbackRetention : Duration := 0
  benchmark : Option MajorUpgradeBenchmark := none
deriving DecidableEq, Repr

structure PostgresUpgradeStatus where
  observedGeneration : Nat := 0
  phase : String := ""
  startedAt : Option Time := none
  preflightBackupRequestedAt : Option Time := none
  postUpgradeBackupRequestedAt : Option Time := none
  postUpgradeBackupAttempt : Nat := 0
  writeOutageStartedAt : Option Time := none
  writeServiceRestoredAt : Option Time := none
  upgradedMembers : List String := []
  operation : Option OperationProgressStatus := none
  conditions : List Condition := []
deriving DecidableEq, Repr

structure PostgresUpgrade where
  name : String
  uid : String
  generation : Nat := 1
  deleting : Bool := false
  finalizer : Bool := false
  forceAbandon : Bool := false
  spec : PostgresUpgradeSpec
  status : PostgresUpgradeStatus := {}
deriving DecidableEq, Repr

/-- A `PostgresRestore`; the fields from `observedGeneration` on are its status. -/
structure PostgresRestore where
  name : String
  namespaceName : String
  uid : String
  generation : Nat := 1
  deleting : Bool := false
  finalizer : Bool := false
  forceAbandon : Bool := false
  /-- Annotation `restore-drill`. -/
  drill : Bool := false
  sourceInstanceRef : String
  targetInstanceRef : String
  targetTime : Time
  backupSet : String := ""
  /-- The sites of `restoreTopology`; empty to keep those of the source. -/
  restoreTopology : List PostgresSiteSpec := []
  targetBackup : Option BackupSpec := none
  observedGeneration : Nat := 0
  phase : String := ""
  selectedBackupSet : String := ""
  recoveredTo : Option Time := none
  operation : Option OperationProgressStatus := none
  conditions : List Condition := []
deriving DecidableEq, Repr

/-- A `PostgresDatabase` or `PostgresUser` as the instance controller sees it. -/
structure Declaration where
  name : String
  instanceRef : String
  deleting : Bool := false
  forceOrphan : Bool := false
  generation : Nat := 1
  observedGeneration : Nat := 0
  conditions : List Condition := []
deriving DecidableEq, Repr

structure VolumeSnapshotClassInventory where
  name : String
  driver : String
deriving DecidableEq, Repr

structure SiteRegistration where
  name : String
  uid : String
  revoked : Bool := false
  permittedStorageClasses : StorageClassPolicy := {}
  storageRollbackPolicies : List StorageRollbackPolicy := []
  permittedIssuers : IssuerPolicy := {}
  metallbAddressPools : List String := []
  phase : String := ""
  discoveredStorageClasses : List String := []
  discoveredVolumeSnapshotClasses : List VolumeSnapshotClassInventory := []
  capabilities : List String := []
deriving DecidableEq, Repr

/-! ## Helpers on statuses -/

def setCondition (conditions : List Condition) (generation : Nat) (type : String)
    (status : ConditionStatus) (reason message : String) : List Condition :=
  Condition.set conditions
    { type := type, status := status, observedGeneration := generation,
      reason := reason, message := message }

def conditionTrue (conditions : List Condition) (type : String) : Bool :=
  Condition.isTrue conditions type

theorem conditionTrue_setCondition (conditions : List Condition) (generation : Nat)
    (type : String) (status : ConditionStatus) (reason message other : String) :
    conditionTrue (setCondition conditions generation type status reason message) other =
      if type = other then decide (status = .true) else conditionTrue conditions other :=
  Condition.isTrue_set ..

def MultiSitePostgres.setCondition (instance' : MultiSitePostgres) (type : String)
    (status : ConditionStatus) (reason message : String) : MultiSitePostgres :=
  { instance' with
    status := { instance'.status with
      conditions := Mspsql.setCondition instance'.status.conditions instance'.generation type
        status reason message } }

/-- `previousSiteStatus`: the first entry of that name, or an empty one. -/
def previousSiteStatus (statuses : List SiteRevisionStatus) (name : String) : SiteRevisionStatus :=
  (statuses.find? (fun s => s.name = name)).getD {}

def allSitesApplied (statuses : List SiteRevisionStatus) (revision : Int) : Bool :=
  !statuses.isEmpty && statuses.all (fun s => s.appliedRevision = revision)

theorem allSitesApplied_mem {statuses : List SiteRevisionStatus} {revision : Int}
    (h : allSitesApplied statuses revision = true) {s : SiteRevisionStatus}
    (hs : s ∈ statuses) : s.appliedRevision = revision := by
  simp only [allSitesApplied, Bool.and_eq_true, List.all_eq_true, decide_eq_true_eq] at h
  exact h.2 s hs

/-- The members of one kind a site declares, `kind-site-ordinal`. -/
def siteMembers (kind : String) (site : PostgresSiteSpec) (replicas : Nat) : List String :=
  (List.range replicas).map fun ordinal => kind ++ "-" ++ site.name ++ "-" ++ toString ordinal

def expectedAddressMembers (sites : List PostgresSiteSpec) : List String :=
  Text.sortText (sites.flatMap fun site =>
    siteMembers "etcd" site site.components.etcdReplicas ++
      siteMembers "postgres" site site.components.postgresReplicas ++
      if site.components.pgpoolReplicas > 0 then ["pgpool-" ++ site.name] else [])

def postgresMembers (sites : List PostgresSiteSpec) : List String :=
  Text.sortText (sites.flatMap fun site =>
    siteMembers "postgres" site site.components.postgresReplicas)

/-- `slices.Compact` of a sorted list. -/
def compact : List String → List String
  | [] => []
  | [a] => [a]
  | a :: b :: rest => if a = b then compact (b :: rest) else a :: compact (b :: rest)

def splitMembers (value : String) : List String :=
  if value = "" then [] else compact (Text.sortText (Text.splitOnChar ',' value))

def appendUnique (members : List String) (member : String) : List String :=
  Text.sortText (if member ∈ members then members else members ++ [member])

end Mspsql
