import Mspsql.Hub.System

/-!
# Runs of the hub

The sites of the example instance and of variants of it are registered, planned, upgraded and
readdressed.  Concrete runs in the other modules are made of these scripts.
-/

namespace Mspsql.Sample

def registration (name : String) : SiteRegistration where
  name := "production-" ++ name
  uid := name ++ "-uid"
  permittedStorageClasses := { etcd := ["premium-rwo"], postgres := ["premium-rwo"] }
  storageRollbackPolicies := [⟨"premium-rwo", .volumeSnapshot, "premium-rwo-retain"⟩]
  permittedIssuers := {
    etcd := [issuer "etcd-vault"]
    postgres := [issuer "postgres-vault"]
    pgpool := [issuer "client-vault"]
    backup := [issuer "backup-vault"] }
  metallbAddressPools := ["database-services"]
  phase := "Connected"
  discoveredStorageClasses := ["premium-rwo"]
  discoveredVolumeSnapshotClasses := [⟨"premium-rwo-retain", "csi.example"⟩]
  capabilities := [capabilityMajorUpgradeSyncBeforeWrites]

def reads : HubReads where
  registrations := [registration "vic", registration "nsw", registration "qld"]

def config : BackupConfig where
  parseSchedule _ _ := some fun t => t + 86400 * second

def reconciled (reads : HubReads) (now : Time) (i : MultiSitePostgres) : MultiSitePostgres :=
  match (reconcile config reads [] (fun _ => false) now i).status with
  | some desired => { i with status := mergeReconciledStatus i.status desired }
  | none => i

def underRegistration (site : PostgresSiteSpec) : PostgresSiteSpec :=
  { site with name := site.siteRegistrationRef }

/-- An instance whose sites carry the names of their registrations. -/
def ledger : MultiSitePostgres where
  name := "ledger"
  namespaceName := "database-platform"
  uid := "ledger-uid"
  spec := specWith [underRegistration vic, underRegistration nsw, underRegistration qld]

def hub : HubConfig where
  backups := config
  library := library

def created (i : MultiSitePostgres) : HubState := { stored := i, versions := [i] }

theorem created_initial {i : MultiSitePostgres} (hadm : Admitted library i.spec)
    (hstatus : i.status = {}) (hfree : i.annotations.upgradeUID = "") :
    HubState.Initial hub (created i) where
  admitted := hadm
  versions := rfl
  activeRevision := congrArg (·.activeRevision) hstatus
  planFingerprint := congrArg (·.planFingerprint) hstatus
  sites := congrArg (·.sites) hstatus
  upgradeUID := hfree
  upgrades := rfl
  upgradeUIDs := rfl
  planMaps := rfl
  pending := rfl
  written := rfl
  applied := rfl
  advances := rfl

theorem ledger_initial : HubState.Initial hub (created ledger) :=
  created_initial (by decide +kernel) rfl rfl

open Machine

def after (i : MultiSitePostgres) (ok : HubState → HubEvent → Prop) [∀ s e, Decidable (ok s e)]
    (script : List (HubState → HubEvent)) : HubState :=
  reached (HubState.step hub) ok (created i) script

theorem after_reach {i : MultiSitePostgres} {init : HubState → Prop}
    {ok : HubState → HubEvent → Prop} [∀ s e, Decidable (ok s e)]
    {script : List (HubState → HubEvent)} {P : HubState → Prop} [DecidablePred P]
    (hinit : init (created i))
    (h : (play (HubState.step hub) ok (created i) script).any (fun s => decide (P s)) = true) :
    Reach (HubState.step hub) init ok (after i ok script) ∧ P (after i ok script) :=
  played hinit h

def reconcileWith (reads : HubReads) (s : HubState) : HubEvent :=
  .issue s.stored reads (fun _ => false) 0 s.stored.spec.sites.length

def commit (_ : HubState) : HubEvent := .commit

def applyAt (site : String) (s : HubState) : HubEvent :=
  .apply ((s.planMaps.get? site).getD (deletionPlan s.stored 0 (registration "") vic))

def resultFrom (site : String) (s : HubState) : HubEvent :=
  .message site 0 (.result {
    instanceUID := s.stored.uid, appliedRevision := s.stored.status.activeRevision })

def healthFrom (site : String) (topology : Option (String × List String)) (s : HubState) :
    HubEvent :=
  .message site 0 (.progress {
    instanceUID := s.stored.uid
    revision := s.stored.status.activeRevision
    phase := "Applying"
    conditions := [
      { type := "EtcdTLSReady", status := .true, reason := "TrustEstablished", message := "ca-1" },
      { type := "BackupTLSReady", status := .true, reason := "TrustEstablished",
        message := "ca-2" }]
    primary := topology.map (·.1)
    synchronousStandbys := (topology.map (·.2)).getD [] })

def topology : String × List String :=
  ("postgres-production-vic-0", ["postgres-production-nsw-0"])

/-- One reconcile after which every site applies its plan and reports it. -/
def rollOut (reads : HubReads) : List (HubState → HubEvent) :=
  [reconcileWith reads, commit,
    applyAt "production-vic", healthFrom "production-vic" topology, resultFrom "production-vic",
    applyAt "production-nsw", healthFrom "production-nsw" topology, resultFrom "production-nsw",
    applyAt "production-qld", healthFrom "production-qld" none, resultFrom "production-qld"]

/-! ## An upgrade of `ledger` -/

def reported (type message : String) : Condition :=
  { type := type, status := .true, reason := "Reported", message := message }

/-- A successful backup, reported together with the trust conditions that the hub reads
and that it does not derive from the reports of the sites. -/
def evidence (s : HubState) : HubEvent :=
  .backupResult "production-vic" (fun _ => some 0) {
    instanceUID := s.stored.uid
    appliedRevision := 0
    conditions := [
      reported "Succeeded" "", reported "BackupCompletedAt" "1970-01-01T00:00:00Z",
      reported "EtcdTLSReady" "ca-1", reported "BackupTLSReady" "ca-2"] }

/-- An upgrade of `ledger` to the next major version. -/
def ledgerUpgrade : PostgresUpgrade where
  name := "ledger-18"
  uid := "ledger-18-uid"
  spec := {
    instanceRef := "ledger"
    targetImage := "percona/percona-distribution-postgresql@sha256:18e10b2a"
    targetMajorVersion := 18
    upgradeImage := "percona/postgresql-upgrade@sha256:171802cc"
    serviceRestorationTarget := 60 * minute
    rollbackRetention := 24 * 60 * minute
    benchmark := some {
      testedAt := 0
      estimatedWriteOutage := 30 * minute
      evidence := "reports/ledger@sha256:5a5a0b11"
      upgradeImage := "percona/postgresql-upgrade@sha256:171802cc"
      sourceMajorVersion := 17
      targetMajorVersion := 18
      tdeEnabled := false
      postgresStorageClasses := ["premium-rwo"] } }

/-- A complete reconcile of the upgrade on the stored instance. -/
def upgradeStep (s : HubState) : HubEvent := .upgrade ledgerUpgrade.name s.stored reads 0 2

/-- `ledger` is rolled out and ready, and an upgrade with a fresh backup is requested. -/
def upgradeRequested : List (HubState → HubEvent) :=
  rollOut reads ++
    [evidence, reconcileWith reads, commit,
      fun _ => .createUpgrade ledgerUpgrade, upgradeStep,
      fun s => .upgradeBackupResult ledgerUpgrade.name (reported "FreshBackupReady" "")
        (fun _ => some 0) {
          instanceUID := s.stored.uid
          appliedRevision := 0
          conditions := [reported "Succeeded" ""] }]

def appliedEverywhere : List (HubState → HubEvent) :=
  [applyAt "production-vic", resultFrom "production-vic",
    applyAt "production-nsw", resultFrom "production-nsw",
    applyAt "production-qld", resultFrom "production-qld"]

/-! ## A minor upgrade with three members -/

/-- `ledger` with two PostgreSQL members at one site and one at the other. -/
def trio : MultiSitePostgres :=
  { ledger with spec := specWith [underRegistration (dataSite "vic" 100 3 2 2),
      underRegistration (dataSite "nsw" 50 3 1 2), underRegistration qld] }

theorem trio_initial : HubState.Initial hub (created trio) :=
  created_initial (by decide +kernel) rfl rfl

def vic0 : String := "postgres-production-vic-0"

def vic1 : String := "postgres-production-vic-1"

def nsw0 : String := "postgres-production-nsw-0"

def minorUpgrade : PostgresUpgrade where
  name := "ledger-17-2"
  uid := "ledger-17-2-uid"
  spec := {
    instanceRef := "ledger"
    targetImage := "percona/percona-distribution-postgresql@sha256:17e20b2a"
    targetMajorVersion := 17 }

def minorStep (s : HubState) : HubEvent := .upgrade minorUpgrade.name s.stored reads 0 2

def reconciledWith : List (HubState → HubEvent) := [reconcileWith reads, commit]

/-- The hub plans the recorded step, every site applies it, and the data sites report the
topology they observe. -/
def appliedWith (observed : String × List String) : List (HubState → HubEvent) :=
  reconciledWith ++
    [healthFrom "production-vic" observed, healthFrom "production-nsw" observed] ++
    appliedEverywhere ++ reconciledWith

/-- The minor upgrade of `trio` has upgraded its first member and asked for the switchover,
which has happened. -/
def switchedOver : List (HubState → HubEvent) :=
  rollOut reads ++ [evidence] ++ reconciledWith ++
    [fun _ => .createUpgrade minorUpgrade, minorStep, minorStep] ++ appliedWith topology ++
    minorStep :: appliedWith (nsw0, [vic0])

/-! ## Addresses -/

/-- `ledger` with one member of each kind at each data site. -/
def solo : MultiSitePostgres :=
  { ledger with spec := specWith [underRegistration (dataSite "vic" 100 1 1 1),
      underRegistration (dataSite "nsw" 50 1 1 1), underRegistration qld] }

theorem solo_initial : HubState.Initial hub (created solo) :=
  created_initial (by decide +kernel) rfl rfl

def addressesFrom (site : String) (addresses : List (String × String)) (s : HubState) : HubEvent :=
  .message site 0 (.progress {
    instanceUID := s.stored.uid
    revision := s.stored.status.activeRevision
    phase := "Applying"
    addresses := addresses })

/-- Every site has reported its addresses and applied the plan that assigns them. -/
def addressed : List (HubState → HubEvent) :=
  reconciledWith ++
    [addressesFrom "production-vic" [("etcd-production-vic-0", "10.1.0.1"),
      (vic0, "10.1.0.2"), ("pgpool-production-vic", "10.1.0.3")],
    addressesFrom "production-nsw" [("etcd-production-nsw-0", "10.2.0.1"),
      (nsw0, "10.2.0.2"), ("pgpool-production-nsw", "10.2.0.3")],
    addressesFrom "production-qld" [("etcd-production-qld-0", "10.3.0.1")]] ++
    reconciledWith ++ appliedEverywhere

/-- The PostgreSQL members of both data sites are reported under new addresses. -/
def readdressed : List (HubState → HubEvent) :=
  addressed ++
    [addressesFrom "production-vic" [(vic0, "10.1.0.9")],
      addressesFrom "production-nsw" [(nsw0, "10.2.0.9")]]

end Mspsql.Sample
