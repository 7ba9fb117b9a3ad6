import Mspsql.Api

/-!
# Site plans

A site plan is what the hub signs for one site of one instance.  A signed envelope is
kept as the plan it carries: signatures are not modelled, so a plan in the store or in an
agent's cache is one that the hub has signed.  Two plans have the same canonical JSON
exactly when they are equal.
-/

namespace Mspsql

inductive CredentialRotationPhase where
  | catalog
  | member
  | revoke
  | finalize
deriving DecidableEq, Repr

structure CredentialRotationPlan where
  version : Int
  previousVersion : Int
  phase : CredentialRotationPhase
  targetMember : String := ""
  updatedMembers : List String := []
deriving DecidableEq, Repr

structure AddressMigrationPlan where
  operationUID : String
  member : String
  oldAddress : String
  newAddress : String
deriving DecidableEq, Repr

inductive RestorePhase where
  | seed
  | replicas
  | verify
deriving DecidableEq, Repr

structure RestorePlan where
  operationUID : String
  sourceInstanceUID : String
  sourceBackup : BackupSpec
  targetTime : Time
  backupSet : String := ""
  seedSite : String
  seedMember : String
  phase : RestorePhase
deriving DecidableEq, Repr

inductive UpgradePhase where
  | member
  | switchover
  | finalize
deriving DecidableEq, Repr

structure UpgradePlan where
  operationUID : String
  targetImage : String
  targetMember : String := ""
  upgradedMembers : List String := []
  fromPrimary : String := ""
  candidate : String := ""
  phase : UpgradePhase
deriving DecidableEq, Repr

inductive MajorUpgradePhase where
  | preflight
  | drain
  | stop
  | snapshot
  | upgradePrimary
  | stanzaUpgrade
  | startPrimary
  | restoreWrites
  | replicas
  | finalize
  | rollback
  | rollbackStart
  | rollbackRestoreWrites
deriving DecidableEq, Repr

structure MajorUpgradePlan where
  operationUID : String
  phase : MajorUpgradePhase
  primary : String
  sourceMajor : Int
  targetMajor : Int
  targetImage : String
  upgradeImage : String
  rollbackRetention : Duration
  rollbackPolicies : SortedMap String StorageRollbackPolicy
deriving DecidableEq

structure DeletionPlan where
  policy : DeletionPolicy
deriving DecidableEq, Repr

structure SitePlan where
  siteUID : String
  instanceUID : String
  hubNamespace : String
  hubName : String
  revision : Int
  generatedAt : Time
  site : PostgresSiteSpec
  postgres : PostgresSpec
  tde : TDESpec := {}
  tdeKeyCreator : Bool := false
  backup : Option BackupSpec := none
  credentials : InstanceCredentialsSpec := {}
  memberAddresses : StringMap := ∅
  addressCandidates : StringMap := ∅
  addressMigration : Option AddressMigrationPlan := none
  credentialRotation : Option CredentialRotationPlan := none
  requiredCapabilities : List String := []
  restore : Option RestorePlan := none
  upgrade : Option UpgradePlan := none
  majorUpgrade : Option MajorUpgradePlan := none
  deletion : Option DeletionPlan := none
deriving DecidableEq

namespace SitePlan

/-- `plan.Sign` refuses a plan without identities or without a positive revision. -/
def sign (desired : SitePlan) : Except String SitePlan :=
  if desired.revision < 1 ∨ desired.siteUID = "" ∨ desired.instanceUID = "" then
    .error "plan identity and positive revision are required"
  else .ok desired

theorem sign_ok {desired signed : SitePlan} (h : desired.sign = .ok signed) :
    signed = desired ∧ 1 ≤ desired.revision := by
  unfold sign at h
  split at h
  · cases h
  cases h
  exact ⟨rfl, by omega⟩

/-- Plans are compared without the time they were generated at. -/
def sameContent (p q : SitePlan) : Prop := { p with generatedAt := q.generatedAt } = q
deriving Decidable

theorem sameContent.symm {p q : SitePlan} (h : p.sameContent q) : q.sameContent p := by
  unfold sameContent at h ⊢
  rw [← h]

end SitePlan

end Mspsql
