import Mspsql.Hub.Planning

/-!
# Checks and observations of the instance controller

Site policy, isolation between instances, the aggregated declaration and upgrade
conditions, and the topology consensus.  Each of them either returns an error text or
sets conditions on the instance.
-/

namespace Mspsql

/-! ## Site policy -/

def issuerAllowed (allowed : List IssuerReference) (requested : IssuerReference) : Bool :=
  requested ∈ allowed

def discoveredStorageClass (inventory : List String) (requested : Option StorageRequest) : Bool :=
  match requested with
  | none => true
  | some request => request.storageClassName ∈ inventory

def quote (s : String) : String := "\"" ++ s ++ "\""

/-- The checks of `validateSitePolicy` in their order: whether each one rejects, and the
error it rejects with. -/
def sitePolicyChecks (site : PostgresSiteSpec) (registration : SiteRegistration) :
    List (Bool × String) :=
  let certificates := site.certificates
  let issuers := registration.permittedIssuers
  let backupIssuers := if issuers.backup.isEmpty then issuers.postgres else issuers.backup
  let storageClass (request : Option StorageRequest) :=
    (request.map (·.storageClassName)).getD ""
  let pool := (site.loadBalancer.map (·.addressPool)).getD ""
  [ (registration.revoked, "site registration " ++ quote registration.name ++ " is revoked"),
    (site.storage.etcd.isSome ∧
        storageClass site.storage.etcd ∉ registration.permittedStorageClasses.etcd,
      "etcd StorageClass " ++ quote (storageClass site.storage.etcd) ++ " is not permitted"),
    (site.storage.postgres.isSome ∧
        storageClass site.storage.postgres ∉ registration.permittedStorageClasses.postgres,
      "PostgreSQL StorageClass " ++ quote (storageClass site.storage.postgres) ++
        " is not permitted"),
    (site.loadBalancer.isSome ∧ pool ∉ registration.metallbAddressPools,
      "MetalLB address pool " ++ quote pool ++ " is not permitted"),
    (!issuerAllowed issuers.etcd certificates.etcdIssuerRef,
      "etcd issuer " ++ quote certificates.etcdIssuerRef.name ++ " is not permitted"),
    (certificates.etcdPeerIssuerRef.name ≠ "" ∧
        issuerAllowed issuers.etcd certificates.etcdPeerIssuerRef = false,
      "etcd peer issuer " ++ quote certificates.etcdPeerIssuerRef.name ++ " is not permitted"),
    (certificates.etcdClientIssuerRef.name ≠ "" ∧
        issuerAllowed issuers.etcd certificates.etcdClientIssuerRef = false,
      "etcd client issuer " ++ quote certificates.etcdClientIssuerRef.name ++ " is not permitted"),
    (site.role = .data ∧ issuerAllowed issuers.postgres certificates.postgresIssuerRef = false,
      "PostgreSQL issuer " ++ quote certificates.postgresIssuerRef.name ++ " is not permitted"),
    (site.role = .data ∧ issuerAllowed issuers.pgpool certificates.pgpoolIssuerRef = false,
      "pgpool issuer " ++ quote certificates.pgpoolIssuerRef.name ++ " is not permitted"),
    (site.role = .data ∧ certificates.backupIssuerRef.name ≠ "" ∧
        issuerAllowed backupIssuers certificates.backupIssuerRef = false,
      "backup issuer " ++ quote certificates.backupIssuerRef.name ++ " is not permitted"),
    (discoveredStorageClass registration.discoveredStorageClasses site.storage.etcd = false ∨
        discoveredStorageClass registration.discoveredStorageClasses site.storage.postgres = false,
      "requested StorageClass is not present in the site inventory") ]

/-- `validateSitePolicy`: the first check that rejects decides. -/
def validateSitePolicy (site : PostgresSiteSpec) (registration : SiteRegistration) :
    Option String :=
  ((sitePolicyChecks site registration).find? (·.1)).map (·.2)

/-! ## Isolation between instances -/

def trimSlashes (s : String) : String :=
  String.ofList ((s.toList.dropWhile (· = '/')).reverse.dropWhile (· = '/')).reverse

def backupClaimsConflict (left right : Option BackupSpec) : Bool :=
  match left, right with
  | some l, some r =>
    (l.repository.type = r.repository.type ∧ l.repository.bucket = r.repository.bucket ∧
      trimSlashes l.repository.pathPrefix = trimSlashes r.repository.pathPrefix) ∨
    (l.repository.credentialVaultRef.mount = r.repository.credentialVaultRef.mount ∧
      l.repository.credentialVaultRef.path = r.repository.credentialVaultRef.path)
  | _, _ => false

def tdeClaimsConflict (left right : TDESpec) : Bool :=
  match left.vault, right.vault with
  | some l, some r => left.enabled ∧ right.enabled ∧ l = r
  | _, _ => false

def validateInstanceClaims (instance' : MultiSitePostgres) : List MultiSitePostgres → Option String
  | [] => none
  | other :: rest =>
    if other.uid = instance'.uid ∨ other.deleting then validateInstanceClaims instance' rest
    else if backupClaimsConflict instance'.spec.backup other.spec.backup then
      some ("backup repository claim conflicts with " ++ other.namespaceName ++ "/" ++ other.name)
    else if tdeClaimsConflict instance'.spec.tde other.spec.tde ∧
        instance'.annotations.restoreSourceUID ≠ other.uid then
      some ("TDE key identity conflicts with " ++ other.namespaceName ++ "/" ++ other.name)
    else validateInstanceClaims instance' rest

/-! ## Declarations, upgrades and restores of the instance -/

def Declaration.pending (d : Declaration) : Bool :=
  d.observedGeneration ≠ d.generation ∨ conditionTrue d.conditions "Ready" = false

def PostgresUpgrade.active (u : PostgresUpgrade) (instanceName : String) : Bool :=
  u.spec.instanceRef = instanceName ∧ u.deleting = false ∧
    u.status.phase ≠ "Completed" ∧ u.status.phase ≠ "Failed"

def PostgresRestore.active (r : PostgresRestore) (instanceName : String) : Bool :=
  r.targetInstanceRef = instanceName ∧ r.deleting = false ∧
    r.phase ≠ "Completed" ∧ r.phase ≠ "Failed"

def lifecycleOperationActive (reads : HubReads) (instance' : MultiSitePostgres) : Bool :=
  reads.upgrades.any (·.active instance'.name) || reads.restores.any (·.active instance'.name)

def aggregateDeclarationAndUpgradeStatus (reads : HubReads) (instance' : MultiSitePostgres) :
    MultiSitePostgres :=
  let declarations := (reads.databases ++ reads.users).filter fun d =>
    d.instanceRef = instance'.name ∧ d.deleting = false
  let pending := declarations.filter (·.pending)
  let counted :=
    if pending.length > 0 then
      instance'.setCondition "DatabasesReconciled" .false "DeclarationsPending"
        ("Waiting for " ++ toString pending.length ++ " of " ++ toString declarations.length ++
          " database or user declarations")
    else
      instance'.setCondition "DatabasesReconciled" .true "AllDeclarationsReady"
        ("All " ++ toString declarations.length ++ " database and user declarations are reconciled")
  match reads.upgrades.find? (·.active instance'.name) with
  | some upgrade => counted.setCondition "UpgradeInProgress" .true "UpgradeActive"
      ("Upgrade " ++ upgrade.name ++ " is in phase " ++ upgrade.status.phase)
  | none => counted.setCondition "UpgradeInProgress" .false "NoUpgradeActive"
      "No upgrade operation is active"

/-! ## Topology consensus -/

def setSynchronousReplicationCondition (instance' : MultiSitePostgres) : MultiSitePostgres :=
  let required := instance'.spec.postgres.synchronousStandbyCount
  let observed := instance'.status.synchronousStandbys.length
  if observed < required then
    instance'.setCondition "SynchronousReplicationReady" .false "StandbysPending"
      ("Observed " ++ toString observed ++ " of " ++ toString required ++
        " required synchronous standbys")
  else
    instance'.setCondition "SynchronousReplicationReady" .true "RequiredStandbysReady"
      ("Observed all " ++ toString required ++ " required synchronous standbys")

/-- Record the outcome of the topology consensus. -/
def withTopology (instance' : MultiSitePostgres) (primary : String)
    (standbys : List String) (status : ConditionStatus) (reason message : String) :
    MultiSitePostgres :=
  setSynchronousReplicationCondition ({ instance' with status := { instance'.status with
        primary := primary, synchronousStandbys := standbys } }.setCondition
      "TopologyReady" status reason message)

def postgresStopped : UpgradePhaseValue → Bool
  | .major .stop | .major .snapshot | .major .upgradePrimary | .major .stanzaUpgrade
  | .major .rollback => true
  | _ => false

/-- A site reports a primary, and the report is at most two minutes old. -/
def SiteRevisionStatus.observes (site : SiteRevisionStatus) (now : Time) : Bool :=
  match site.topologyObservedAt with
  | some t => site.primary ≠ "" ∧ now - t ≤ 2 * minute
  | none => false

/-- The entries whose topology observation counts; while only the primary is started, only
its own site's. -/
def currentObservations (instance' : MultiSitePostgres) (now : Time) : List SiteRevisionStatus :=
  instance'.status.sites.filter fun site =>
    (instance'.annotations.upgradePhase ≠ .major .startPrimary ∨
      Text.hasPrefix instance'.annotations.upgradeFromPrimary ("postgres-" ++ site.name ++ "-")) ∧
    site.observes now

def requiredObservations (instance' : MultiSitePostgres) : Nat :=
  if instance'.annotations.restorePhase = .active .seed ∨
      instance'.annotations.upgradePhase = .major .startPrimary then 1
  else (instance'.spec.sites.filter (·.role = .data)).length

def aggregateTopology (instance' : MultiSitePostgres) (now : Time) : MultiSitePostgres :=
  if postgresStopped instance'.annotations.upgradePhase then
    withTopology instance' "" [] .false "PostgreSQLStopped"
      "Topology observation is suspended while PostgreSQL is intentionally stopped"
  else
    let observed := currentObservations instance' now
    let dataSites := requiredObservations instance'
    if observed.length ≠ dataSites then
      withTopology instance' "" [] .false "InsufficientObservations"
        ("Received " ++ toString observed.length ++ " of " ++ toString dataSites ++
          " current data-site topology observations")
    else match (observed.map (·.primary)).dedup with
    | [primary] =>
      -- a standby counts once for each time a site lists it
      let listed := observed.flatMap (·.synchronousStandbys)
      withTopology instance' primary
        (Text.sortText (listed.dedup.filter fun s => listed.count s = dataSites))
        .true "ObserverConsensus" "All data sites report the same Patroni leader"
    | _ =>
      withTopology instance' "" [] .false "ConflictingObservations"
        "Data sites disagree about the current Patroni leader"

def dataSitesApplied (instance' : MultiSitePostgres) : Bool :=
  instance'.spec.sites.all fun site =>
    site.role ≠ .data ∨ (previousSiteStatus instance'.status.sites site.name).appliedRevision =
        instance'.status.activeRevision

def backupSchedulingReady (instance' : MultiSitePostgres) (restore : Option RestorePlan)
    (upgrade : Option UpgradePlan) (major : Option MajorUpgradePlan)
    (operationActive : Bool) : Bool :=
  dataSitesApplied instance' ∧ conditionTrue instance'.status.conditions "TopologyReady" ∧
    (instance'.spec.backup.isNone ∨ conditionTrue instance'.status.conditions "BackupTLSReady") ∧
    restore.isNone ∧ upgrade.isNone ∧ major.isNone ∧ operationActive = false

end Mspsql
