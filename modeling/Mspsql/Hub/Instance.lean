import Mspsql.Hub.Backups

/-!
# The instance controller

One reconcile of a `MultiSitePostgres` is a function of the instance it read and of
everything else it reads.  Its effects are returned as an `Outcome`: the signed plans it
hands to the plan ConfigMaps, in order, and the status it hands to the status write.  A
crash or an API error between two of these writes is left to whoever runs the reconcile.
-/

namespace Mspsql

structure Outcome where
  /-- The plans handed to `reconcilePlan`, in order. -/
  plans : List SitePlan := []
  /-- The directive ConfigMaps afterwards. -/
  directives : List DirectiveMap
  /-- The status handed to `updateInstanceStatus`, if it gets there. -/
  status : Option MultiSitePostgresStatus := none
  addFinalizer : Bool := false
  deletePlans : Bool := false
  removeFinalizer : Bool := false
  /-- Whether the reconcile runs to its last status write. -/
  ended : Bool := false
deriving DecidableEq

def MultiSitePostgres.setPhase (instance' : MultiSitePostgres) (phase : String) :
    MultiSitePostgres :=
  { instance' with status := { instance'.status with phase := phase } }

/-! ## Validation -/

/-- The loop over the sites: how many data sites and how many others are disconnected, or
the instance to write back when a site is unknown or against policy. -/
def checkSites (reads : HubReads) (instance' : MultiSitePostgres) :
    List PostgresSiteSpec → Except MultiSitePostgres (Nat × Nat)
  | [] => .ok (0, 0)
  | site :: rest =>
    match reads.registration? site.siteRegistrationRef with
    | none =>
      let text := notFound "siteregistrations" site.siteRegistrationRef
      .error ((((instance'.setCondition "SitesRegistered" .false "SiteNotFound" text).setCondition
        "StorageValidated" .false "SiteUnavailable" "Site policy cannot be validated").setCondition
        "AgentsConnected" .false "SiteUnavailable" "A referenced site is unavailable").setCondition
        "Ready" .false "SiteNotFound" text |>.setPhase "ValidatingSites")
    | some registration =>
      match validateSitePolicy site registration with
      | some e =>
        .error (((instance'.setCondition "SitesRegistered" .false "SiteValidationIncomplete"
          "A referenced site does not satisfy the instance policy").setCondition
          "StorageValidated" .false "SitePolicyRejected" (site.name ++ ": " ++ e)).setCondition
          "Ready" .false "SitePolicyRejected" (site.name ++ ": " ++ e) |>.setPhase
          "ValidatingSites")
      | none =>
        match checkSites reads instance' rest with
        | .error i => .error i
        | .ok (dataSites, controlSites) =>
          if registration.phase = "Connected" then .ok (dataSites, controlSites)
          else if site.role = .data then .ok (dataSites + 1, controlSites)
          else .ok (dataSites, controlSites + 1)

/-- Everything a plan carries besides the specification. -/
structure PlanInputs where
  restore : Option RestorePlan
  upgrade : Option UpgradePlan
  major : Option MajorUpgradePlan
  addresses : AddressPlan
  rotation : Option CredentialRotationPlan
deriving DecidableEq

def withConnections (instance' : MultiSitePostgres) (controlSites : Nat) : MultiSitePostgres :=
  if controlSites > 0 then
    (instance'.setCondition "AgentsConnected" .false "ControlPlaneDegraded"
      ("One or more non-data site agents are disconnected; topology-changing operations " ++
        "remain guarded")).setCondition "ControlPlaneDegraded" .true "WitnessDisconnected"
      "Safe data-site reconciliation can continue while a witness/control-only site is disconnected"
  else
    (instance'.setCondition "AgentsConnected" .true "AllAgentsConnected"
      "All site agents are connected").setCondition
      "ControlPlaneDegraded" .false "AllAgentsConnected" "All site agents are connected"

def withoutDataSites (instance' : MultiSitePostgres) : MultiSitePostgres :=
  let cleared := (instance'.setCondition "AgentsConnected" .false "AgentDisconnected"
    "One or more site agents are disconnected")
  { cleared with
      status := { cleared.status with primary := "", synchronousStandbys := [] } }
    |>.setCondition "TopologyReady" .false "AgentDisconnected"
      "Topology requires every data-site observer"
    |>.setCondition "Ready" .false "AgentDisconnected" "One or more site agents are disconnected"
    |>.setPhase "Pending"

/-- From the site checks to the inputs of the plans: `.error` is the instance whose status
an early exit writes. -/
def planInputs (reads : HubReads) (instance' : MultiSitePostgres) (controlSites : Nat) :
    Except MultiSitePostgres PlanInputs :=
  match restorePlan reads instance' with
  | .error e => .error (instance'.setCondition "Ready" .false "RestoreContractInvalid" e
      |>.setPhase "Restoring")
  | .ok restore =>
    match upgradePlans reads instance' with
    | .error e => .error (instance'.setCondition "Ready" .false "UpgradeContractInvalid" e
        |>.setPhase "Upgrading")
    | .ok (upgrade, major) =>
      if controlSites > 0 ∧ topologyChangingOperationPending restore upgrade major = true then
        .error ((instance'.setCondition "TopologyAuthoritative" .false "ControlPlaneDegraded"
          ("Topology-changing restore and upgrade plans require every observer site to be " ++
            "connected")).setCondition "Ready" .false "ControlPlaneDegraded"
          "Topology-changing operation is blocked until disconnected observer sites recover"
          |>.setPhase "Blocked")
      else
        let missing := missingPlanCapabilities reads instance' major
        if missing.length > 0 then
          .error (instance'.setCondition "Ready" .false "AgentCapabilityMissing"
            ("Plan requires newer site-agent capabilities: " ++ Text.join ", " missing)
            |>.setPhase "Blocked")
        else
          let addresses := addressPlan reads instance'
          .ok {
            restore := restore
            upgrade := upgrade
            major := major
            addresses := addresses
            rotation := credentialRotationPlan reads instance'
              (addresses.addressMigration.isSome ||
                topologyChangingOperationPending restore upgrade major) }

def prepare (reads : HubReads) (instance' : MultiSitePostgres) :
    Except MultiSitePostgres (MultiSitePostgres × PlanInputs) :=
  let started := aggregateDeclarationAndUpgradeStatus reads
    { instance' with status := { instance'.status with
        observedGeneration := instance'.generation } }
  match checkSites reads started started.spec.sites with
  | .error i => .error i
  | .ok (dataSites, controlSites) =>
    let registered := (started.setCondition "SitesRegistered" .true "AllSitesRegistered"
      "All referenced sites are registered").setCondition "StorageValidated" .true
      "SitePolicyAccepted" "StorageClasses, issuers and address pools are permitted"
    match validateInstanceClaims registered reads.instances with
    | some e => .error (registered.setCondition "Ready" .false "InstanceIsolationConflict" e
        |>.setPhase "ValidatingSites")
    | none =>
      if dataSites > 0 then .error (withoutDataSites registered)
      else
        let connected := withConnections registered controlSites
        match planInputs reads connected controlSites with
        | .error i => .error i
        | .ok inputs => .ok (connected, inputs)

/-! ## Issuing plans -/

def nextRevision (revision : Int) : Int := if revision + 1 = 0 then 1 else revision + 1

def withRevision (instance' : MultiSitePostgres) (inputs : PlanInputs) : MultiSitePostgres :=
  let fingerprint :=
    PlanFingerprint.sum (planFingerprint instance' inputs.addresses inputs.rotation)
  if instance'.status.planFingerprint ≠ fingerprint then
    { instance' with status := { instance'.status with
        activeRevision := nextRevision instance'.status.activeRevision
        planFingerprint := fingerprint } }
  else instance'

def tdeKeyCreatorName (enabled : Bool) (sites : List PostgresSiteSpec) : String :=
  if enabled then ((sites.find? (·.role = .data)).map (·.name)).getD "" else ""

def sitePlan (instance' : MultiSitePostgres) (inputs : PlanInputs) (now : Time)
    (registration : SiteRegistration) (site : PostgresSiteSpec) : SitePlan where
  siteUID := registration.uid
  instanceUID := instance'.uid
  hubNamespace := instance'.namespaceName
  hubName := instance'.name
  revision := instance'.status.activeRevision
  generatedAt := now
  site := site
  postgres := instance'.spec.postgres
  tde := instance'.spec.tde
  tdeKeyCreator := site.name = tdeKeyCreatorName instance'.spec.tde.enabled instance'.spec.sites
  backup := instance'.spec.backup
  credentials := instance'.spec.credentials
  memberAddresses := inputs.addresses.memberAddresses
  addressCandidates := inputs.addresses.addressCandidates
  addressMigration := inputs.addresses.addressMigration
  credentialRotation := inputs.rotation
  requiredCapabilities := requiredPlanCapabilities inputs.major
  restore := inputs.restore
  upgrade := inputs.upgrade
  majorUpgrade := inputs.major

/-- Build and sign a plan for each site in turn; the flag tells whether the loop got
through all of them. -/
def signedPlans (reads : HubReads) (build : SiteRegistration → PostgresSiteSpec → SitePlan) :
    List PostgresSiteSpec → List SitePlan × Bool
  | [] => ([], true)
  | site :: rest =>
    match reads.registration? site.siteRegistrationRef with
    | none => ([], false)
    | some registration =>
      match (build registration site).sign with
      | .error _ => ([], false)
      | .ok signed =>
        let (plans, complete) := signedPlans reads build rest
        (signed :: plans, complete)

def siteStatusFor (instance' : MultiSitePostgres) (site : PostgresSiteSpec) : SiteRevisionStatus :=
  let previous := previousSiteStatus instance'.status.sites site.name
  { previous with
    name := site.name
    siteRegistrationRef := site.siteRegistrationRef
    desiredRevision := instance'.status.activeRevision
    phase := if previous.phase = "" then "PlanIssued" else previous.phase }

def writeServiceUnavailable : MajorUpgradePhase → Bool
  | .drain | .stop | .snapshot | .upgradePrimary | .stanzaUpgrade | .startPrimary
  | .replicas | .restoreWrites | .finalize | .rollback | .rollbackStart => true
  | _ => false

def setAppliedInstanceReady (instance' : MultiSitePostgres) (restore : Option RestorePlan)
    (major : Option MajorUpgradePlan) : MultiSitePostgres :=
  let notReady (phase reason message : String) :=
    (instance'.setPhase phase).setCondition "Ready" .false reason message
  if restore.any (·.phase ≠ .verify) then
    notReady "Restoring" "RestoreInProgress"
      "The restore target is not available until recovery and replica seeding complete"
  else if major.any (writeServiceUnavailable ·.phase) then
    notReady "Upgrading" "WriteServiceUnavailable"
      "The major-upgrade operation is still converging and accepting writes is not yet complete"
  else if instance'.spec.backup.isSome ∧
      conditionTrue instance'.status.conditions "BackupTLSReady" = false then
    notReady "Reconciling" "BackupTrustPending"
      "Waiting for a common pgBackRest trust bundle across all data sites"
  else if conditionTrue instance'.status.conditions "EtcdTLSReady" = false then
    notReady "Reconciling" "EtcdTrustPending"
      "Waiting for a common etcd trust bundle across all sites"
  else if conditionTrue instance'.status.conditions "TopologyReady" = false then
    notReady "Reconciling" "TopologyPending"
      "Waiting for current topology consensus across all data sites"
  else if instance'.spec.postgres.synchronousStandbyCount > 0 ∧
      conditionTrue instance'.status.conditions "SynchronousReplicationReady" = false then
    notReady "Reconciling" "SynchronousReplicationPending"
      "Waiting for the configured synchronous standby count"
  else
    (instance'.setPhase "Ready").setCondition "Ready" .true "AllSitesReady"
      "All sites applied the active revision"

def settle (instance' : MultiSitePostgres) (inputs : PlanInputs) (now : Time) : MultiSitePostgres :=
  let recorded := { instance' with status := { instance'.status with
    sites := instance'.spec.sites.map (siteStatusFor instance') } }
  let observed := aggregateTopology recorded now
  let waiting := (observed.setPhase "Reconciling").setCondition "Ready" .false "PlansIssued"
    "Waiting for all sites to apply the active revision"
  if allSitesApplied waiting.status.sites waiting.status.activeRevision then
    setAppliedInstanceReady waiting inputs.restore inputs.major
  else waiting

/-- The second half of `Reconcile`: revision, plans, status and backup schedules. -/
def issue (config : BackupConfig) (reads : HubReads) (directives : List DirectiveMap)
    (fails : String → Bool) (now : Time) (instance' : MultiSitePostgres) (inputs : PlanInputs) :
    Outcome :=
  let revised := withRevision instance' inputs
  let (plans, complete) := signedPlans reads (sitePlan revised inputs now) revised.spec.sites
  if complete = false then { plans := plans, directives := directives }
  else
    let settled := settle revised inputs now
    let canRun := backupSchedulingReady settled inputs.restore inputs.upgrade inputs.major
      (lifecycleOperationActive reads settled)
    match reconcileBackupSchedules config settled now canRun fails directives with
    | (maps, .error .stuck) => { plans := plans, directives := maps }
    | (maps, .error (.failed e)) =>
      { plans := plans, directives := maps
        status := some (settled.setCondition "BackupReady" .false "ScheduleInvalid" e).status }
    | (maps, .ok statuses) =>
      { plans := plans, directives := maps
        status := some { settled.status with backupSchedules := statuses }
        ended := true }

/-! ## Deletion -/

def instanceDeletionOperation (instance' : MultiSitePostgres) (phase : String) :
    OperationProgressStatus where
  operationUID := instance'.uid ++ "-delete-" ++ toString instance'.generation
  phase := phase
  attempt := 1

def MultiSitePostgres.setOperation (instance' : MultiSitePostgres)
    (operation : OperationProgressStatus) : MultiSitePostgres :=
  { instance' with status := { instance'.status with operation := some operation } }

def referencingDeclarations (reads : HubReads) (instance' : MultiSitePostgres) : List String :=
  let children (kind : String) (declarations : List Declaration) :=
    (declarations.filter fun d =>
      d.instanceRef = instance'.name ∧ ¬ (d.deleting ∧ d.forceOrphan)).map fun d =>
        kind ++ "/" ++ d.name
  Text.sortText (children "PostgresDatabase" reads.databases ++
    children "PostgresUser" reads.users)

def deletionPlan (instance' : MultiSitePostgres) (now : Time) (registration : SiteRegistration)
    (site : PostgresSiteSpec) : SitePlan where
  siteUID := registration.uid
  instanceUID := instance'.uid
  hubNamespace := instance'.namespaceName
  hubName := instance'.name
  revision := instance'.status.activeRevision
  generatedAt := now
  site := site
  postgres := instance'.spec.postgres
  tde := instance'.spec.tde
  backup := instance'.spec.backup
  credentials := instance'.spec.credentials
  memberAddresses := observedAddresses instance'.status.sites
  deletion := some { policy := instance'.spec.deletionPolicy.getD .retain }

def issueDeletionPlans (reads : HubReads) (directives : List DirectiveMap) (now : Time)
    (instance' : MultiSitePostgres) : Outcome :=
  let revised := { instance' with status := { instance'.status with
    activeRevision := nextRevision instance'.status.activeRevision } }
  let (plans, complete) := signedPlans reads (deletionPlan revised now) revised.spec.sites
  if complete = false then { plans := plans, directives := directives }
  else
    let recorded := { revised with status := { revised.status with
      sites := revised.spec.sites.map fun site =>
        { siteStatusFor revised site with phase := "DeletionPlanIssued" }
      planFingerprint := .deleting } }
    { plans := plans, directives := directives
      status := some (((recorded.setPhase "Deleting").setOperation
        (instanceDeletionOperation revised "AwaitingSites")).setCondition "DeletionBlocked" .true
        "AwaitingSites" "Waiting for all sites to acknowledge remote cleanup").status }

def finalize (reads : HubReads) (directives : List DirectiveMap) (now : Time)
    (instance' : MultiSitePostgres) : Outcome :=
  if instance'.finalizer = false then { directives := directives }
  else if instance'.annotations.forceOrphan then
    { directives := directives, deletePlans := true, removeFinalizer := true }
  else
    let children := referencingDeclarations reads instance'
    let blocked (reason short long : String) : Outcome :=
      { directives := directives
        status := some (((instance'.setPhase "Deleting").setOperation
          { instanceDeletionOperation instance' "DeletionBlocked" with
            lastErrorReason := reason, lastErrorMessage := short }).setCondition
          "DeletionBlocked" .true reason long).status }
    if children.length > 0 then
      blocked "ChildDeclarationsPresent" "Child declarations still reference the instance"
        ("Delete or force-orphan child declarations before deleting the parent: " ++
          Text.join ", " children)
    else if instance'.status.planFingerprint ≠ .deleting then
      if instance'.spec.deletionPolicy = some .delete ∧
          conditionTrue instance'.status.conditions "BackupReady" = false then
        blocked "BackupNotVerified" "Delete policy requires a verified backup"
          "Delete policy requires a verified backup before remote cleanup begins"
      else issueDeletionPlans reads directives now instance'
    else
      let waiting := (instance'.status.sites.filter (·.phase ≠ "Deleted")).map (·.name)
      if waiting.length > 0 then
        { directives := directives
          status := some (((instance'.setPhase "Deleting").setOperation
            (instanceDeletionOperation instance' "AwaitingSites")).setCondition "DeletionBlocked"
            .true "AwaitingSites" ("Waiting for deletion acknowledgement from: " ++
              Text.join ", " waiting)).status }
      else { directives := directives, deletePlans := true, removeFinalizer := true }

/-- `Reconcile`. -/
def reconcile (config : BackupConfig) (reads : HubReads) (directives : List DirectiveMap)
    (fails : String → Bool) (now : Time) (instance' : MultiSitePostgres) : Outcome :=
  if instance'.deleting then finalize reads directives now instance'
  else if instance'.finalizer = false then { directives := directives, addFinalizer := true }
  else match prepare reads instance' with
  | .error i => { directives := directives, status := some i.status }
  | .ok (prepared, inputs) => issue config reads directives fails now prepared inputs

/-! ## Writing the status -/

def mergeReconciledSites (current desired : List SiteRevisionStatus) : List SiteRevisionStatus :=
  desired.map fun wanted =>
    let observed := if (previousSiteStatus current wanted.name).name = "" then wanted
      else previousSiteStatus current wanted.name
    { observed with
      name := wanted.name
      siteRegistrationRef := wanted.siteRegistrationRef
      desiredRevision := wanted.desiredRevision
      phase := if wanted.phase = "DeletionPlanIssued" ∧ observed.phase ≠ "Deleted" then
        wanted.phase else observed.phase }

/-- `mergeReconciledStatus`: what `updateInstanceStatus` stores over the current status. -/
def mergeReconciledStatus (current desired : MultiSitePostgresStatus) : MultiSitePostgresStatus :=
  { current with
    observedGeneration := desired.observedGeneration
    activeRevision := if desired.activeRevision > current.activeRevision then
      desired.activeRevision else current.activeRevision
    planFingerprint := desired.planFingerprint
    phase := desired.phase
    primary := desired.primary
    synchronousStandbys := desired.synchronousStandbys
    operation := if desired.operation.isSome then desired.operation else current.operation
    backupSchedules := desired.backupSchedules
    conditions := desired.conditions.foldl Condition.set current.conditions
    sites := mergeReconciledSites current.sites desired.sites }

/-- `planEnvelopeEqual` with the stored plan of the site: only the generation time may
differ. -/
def planStored (planMaps : SortedMap String SitePlan) (plan : SitePlan) : Bool :=
  match planMaps.get? plan.site.name with
  | some current => current.sameContent plan
  | none => false

def reconcilePlan (planMaps : SortedMap String SitePlan) (plan : SitePlan) :
    SortedMap String SitePlan :=
  if planStored planMaps plan then planMaps else planMaps.insert plan.site.name plan

end Mspsql
