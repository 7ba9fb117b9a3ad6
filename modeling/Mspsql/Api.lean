import Mspsql.Lib.Condition
import Mspsql.Lib.SortedMap

/-!
# The API types

Specifications and statuses as the API declares them.  Times and durations are integer
nanoseconds, quantities are their canonical text, a nil pointer is `none` and a Go map is
a `SortedMap`.  Revisions are integers because an agent may send any 64-bit number;
generations and replica counts are natural numbers, as the API server keeps them.
-/

namespace Mspsql

abbrev Time := Int

abbrev Duration := Int

abbrev StringMap := SortedMap String String

def second : Duration := 1000000000

def minute : Duration := 60 * second

/-- `time.Unix`: whole seconds, rounded towards the past. -/
def unix (t : Time) : Int := t / second

inductive DeletionPolicy where
  | retain
  | delete
deriving DecidableEq, Repr

inductive SiteRole where
  | data
  | witness
deriving DecidableEq, Repr

structure IssuerReference where
  name : String := ""
  kind : String := ""
  group : String := ""
deriving DecidableEq, Repr

structure StorageClassPolicy where
  etcd : List String := []
  postgres : List String := []
  restoreWorkspace : List String := []
deriving DecidableEq, Repr

structure IssuerPolicy where
  etcd : List IssuerReference := []
  postgres : List IssuerReference := []
  pgpool : List IssuerReference := []
  backup : List IssuerReference := []
deriving DecidableEq, Repr

inductive RollbackStrategy where
  | volumeSnapshot
  | pvcClone
deriving DecidableEq, Repr

structure StorageRollbackPolicy where
  storageClassName : String
  strategy : RollbackStrategy
  volumeSnapshotClassName : String := ""
deriving DecidableEq, Repr

structure SiteComponents where
  etcdReplicas : Nat
  postgresReplicas : Nat
  pgpoolReplicas : Nat
deriving DecidableEq, Repr

structure StorageRequest where
  storageClassName : String
  size : String
deriving DecidableEq, Repr

structure SiteStorage where
  etcd : Option StorageRequest := none
  postgres : Option StorageRequest := none
  restoreWorkspace : Option StorageRequest := none
deriving DecidableEq, Repr

structure LoadBalancerSpec where
  addressPool : String
  peerSourceAddresses : List String := []
deriving DecidableEq, Repr

structure SecretKeyReference where
  name : String
  key : String := ""
deriving DecidableEq, Repr

structure VaultAuthSpec where
  address : String
  authMount : String
  authRole : String
  caBundleSecretRef : Option SecretKeyReference := none
deriving DecidableEq, Repr

structure SiteCertificateSpec where
  etcdIssuerRef : IssuerReference := {}
  etcdPeerIssuerRef : IssuerReference := {}
  etcdClientIssuerRef : IssuerReference := {}
  postgresIssuerRef : IssuerReference := {}
  pgpoolIssuerRef : IssuerReference := {}
  backupIssuerRef : IssuerReference := {}
deriving DecidableEq, Repr

structure PostgresSiteSpec where
  name : String
  siteRegistrationRef : String
  namespaceName : String
  role : SiteRole
  primaryPreference : Int := 0
  components : SiteComponents
  storage : SiteStorage := {}
  loadBalancer : Option LoadBalancerSpec := none
  vaultAuth : Option VaultAuthSpec := none
  certificates : SiteCertificateSpec := {}
deriving DecidableEq, Repr

structure TDEVaultSpec where
  kvMount : String
  keyPath : String
  providerName : String
  principalKeyName : String
deriving DecidableEq, Repr

structure TDESpec where
  enabled : Bool := false
  vault : Option TDEVaultSpec := none
deriving DecidableEq, Repr

structure VaultSecretReference where
  mount : String := ""
  path : String := ""
  key : String := ""
deriving DecidableEq, Repr

structure InstanceCredentialsSpec where
  postgresVaultRef : VaultSecretReference := {}
  pgpoolVaultRef : VaultSecretReference := {}
deriving DecidableEq, Repr

structure BackupRepositorySpec where
  type : String
  bucket : String
  pathPrefix : String
  endpoint : String := ""
  region : String := ""
  uriStyle : String := ""
  caBundleSecretRef : Option SecretKeyReference := none
  credentialVaultRef : VaultSecretReference := {}
deriving DecidableEq, Repr

structure BackupSchedules where
  full : String := ""
  differential : String := ""
  incremental : String := ""
  timezone : String := ""
deriving DecidableEq, Repr

structure BackupRetention where
  duration : Duration := 0
  walDuration : Duration := 0
deriving DecidableEq, Repr

structure BackupSpec where
  repository : BackupRepositorySpec
  schedules : BackupSchedules := {}
  retention : BackupRetention := {}
deriving DecidableEq, Repr

structure PostgresSpec where
  majorVersion : Int
  image : String
  synchronousStandbyCount : Nat
  parameters : StringMap := ∅
deriving DecidableEq

structure MultiSitePostgresSpec where
  deletionPolicy : Option DeletionPolicy := none
  postgres : PostgresSpec
  sites : List PostgresSiteSpec
  tde : TDESpec := {}
  backup : Option BackupSpec := none
  credentials : InstanceCredentialsSpec := {}
deriving DecidableEq

structure OperationProgressStatus where
  operationUID : String := ""
  phase : String := ""
  attempt : Nat := 0
  worker : String := ""
  site : String := ""
  nextRetryAt : Option Time := none
  deadlineAt : Option Time := none
  lastErrorReason : String := ""
  lastErrorMessage : String := ""
  terminal : Bool := false
  manualInterventionRequired : Bool := false
deriving DecidableEq, Repr

structure SiteRevisionStatus where
  name : String := ""
  siteRegistrationRef : String := ""
  desiredRevision : Int := 0
  acknowledgedRevision : Int := 0
  appliedRevision : Int := 0
  phase : String := ""
  addresses : StringMap := ∅
  primary : String := ""
  synchronousStandbys : List String := []
  topologyObservedAt : Option Time := none
  lastHeartbeatTime : Option Time := none
  conditions : List Condition := []
deriving DecidableEq

end Mspsql
