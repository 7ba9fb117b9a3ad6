import Mspsql.Hub.Objects

/-!
# What goes into a plan

The parts of a site plan the instance controller computes before it decides on a
revision: the restore and upgrade contracts read from the instance's annotations, the
address plan, the credential rotation and the fingerprint.
-/

namespace Mspsql

/-- What one instance reconcile reads besides the instance: the other custom resources
and the plan stored for each site. -/
structure HubReads where
  databases : List Declaration := []
  users : List Declaration := []
  upgrades : List PostgresUpgrade := []
  restores : List PostgresRestore := []
  registrations : List SiteRegistration := []
  instances : List MultiSitePostgres := []
  planMaps : SortedMap String SitePlan := ∅
deriving DecidableEq

namespace HubReads

def registration? (reads : HubReads) (name : String) : Option SiteRegistration :=
  reads.registrations.find? (fun r => r.name = name)

def upgrade? (reads : HubReads) (name : String) : Option PostgresUpgrade :=
  reads.upgrades.find? (fun u => u.name = name)

def restore? (reads : HubReads) (name : String) : Option PostgresRestore :=
  reads.restores.find? (fun r => r.name = name)

def instance? (reads : HubReads) (namespaceName name : String) : Option MultiSitePostgres :=
  reads.instances.find? (fun i => i.namespaceName = namespaceName ∧ i.name = name)

end HubReads

def notFound (resource name : String) : String :=
  resource ++ ".multisite-postgres.dev \"" ++ name ++ "\" not found"

/-! ## Restore and upgrade contracts -/

/-- `selectRestoreSeed`: the data site with the highest primary preference, the smallest
name among equals. -/
def selectRestoreSeed (sites : List PostgresSiteSpec) : Except String (String × String) :=
  let better (selected : Option PostgresSiteSpec) (site : PostgresSiteSpec) :=
    if site.role ≠ .data ∨ site.components.postgresReplicas < 1 then selected
    else match selected with
      | none => some site
      | some s =>
        if site.primaryPreference > s.primaryPreference ∨
            site.primaryPreference = s.primaryPreference ∧ site.name < s.name then some site
        else selected
  match sites.foldl better none with
  | none => .error "restore topology has no PostgreSQL member"
  | some site => .ok (site.name, "postgres-" ++ site.name ++ "-0")

def restorePlan (reads : HubReads) (instance' : MultiSitePostgres) :
    Except String (Option RestorePlan) :=
  let annotations := instance'.annotations
  if annotations.restoreName = "" ∨ annotations.restorePhase = .completed then .ok none
  else match reads.restore? annotations.restoreName with
  | none => .error ("read owning restore: " ++
      notFound "postgresrestores" annotations.restoreName)
  | some restore =>
    match reads.instance? instance'.namespaceName restore.sourceInstanceRef with
    | none => .error ("read restore source: " ++
        notFound "multisitepostgres" restore.sourceInstanceRef)
    | some source =>
      match source.spec.backup with
      | none => .error "restore source has no backup repository"
      | some backup =>
        match selectRestoreSeed instance'.spec.sites with
        | .error e => .error e
        | .ok (seedSite, seedMember) =>
          match annotations.restorePhase with
          | .active phase => .ok (some {
              operationUID := restore.uid
              sourceInstanceUID := source.uid
              sourceBackup := backup
              targetTime := restore.targetTime
              backupSet := restore.backupSet
              seedSite := seedSite
              seedMember := seedMember
              phase := phase })
          | .other text => .error ("unsupported restore phase \"" ++ text ++ "\"")
          | _ => .error "unsupported restore phase \"\""

def rollbackPolicy (policies : List StorageRollbackPolicy) (storageClass : String) :
    Option StorageRollbackPolicy :=
  policies.find? (fun p => p.storageClassName = storageClass)

/-- The rollback policies of the data sites, as `upgradePlans` collects them. -/
def rollbackPolicies (reads : HubReads) (policies : SortedMap String StorageRollbackPolicy) :
    List PostgresSiteSpec → Except String (SortedMap String StorageRollbackPolicy)
  | [] => .ok policies
  | site :: rest =>
    match site.role, site.storage.postgres with
    | .data, some storage =>
      match reads.registration? site.siteRegistrationRef with
      | none => .error ("read site " ++ site.name ++ " registration: " ++
          notFound "siteregistrations" site.siteRegistrationRef)
      | some registration =>
        match rollbackPolicy registration.storageRollbackPolicies storage.storageClassName with
        | none => .error ("site " ++ site.name ++ " rollback policy is unavailable")
        | some policy => rollbackPolicies reads (policies.insert site.name policy) rest
    | _, _ => rollbackPolicies reads policies rest

/-- `upgradePlans`: at most one of the two plans is present. -/
def upgradePlans (reads : HubReads) (instance' : MultiSitePostgres) :
    Except String (Option UpgradePlan × Option MajorUpgradePlan) :=
  let annotations := instance'.annotations
  if annotations.upgradeName = "" then .ok (none, none)
  else match reads.upgrade? annotations.upgradeName with
  | none => .error ("read owning upgrade: " ++
      notFound "postgresupgrades" annotations.upgradeName)
  | some upgrade =>
    match annotations.upgradePhase with
    | .major phase =>
      match rollbackPolicies reads ∅ instance'.spec.sites with
      | .error e => .error e
      | .ok policies =>
        match annotations.upgradeSourceMajor with
        | none => .error "major upgrade source version is invalid"
        | some sourceMajor => .ok (none, some {
            operationUID := upgrade.uid
            phase := phase
            primary := annotations.upgradeFromPrimary
            sourceMajor := sourceMajor
            targetMajor := upgrade.spec.targetMajorVersion
            targetImage := upgrade.spec.targetImage
            upgradeImage := upgrade.spec.upgradeImage
            rollbackRetention := upgrade.spec.rollbackRetention
            rollbackPolicies := policies })
    | .minor phase => .ok (some {
        operationUID := upgrade.uid
        targetImage := upgrade.spec.targetImage
        targetMember := annotations.upgradeMember
        upgradedMembers := splitMembers annotations.upgradedMembers
        fromPrimary := annotations.upgradeFromPrimary
        candidate := annotations.upgradeCandidate
        phase := phase }, none)
    | .other text =>
      if Text.hasPrefix text "Major" then
        .error ("unsupported major-upgrade phase \"" ++ text ++ "\"")
      else .error ("unsupported minor-upgrade phase \"" ++ text ++ "\"")
    | .absent => .error "unsupported minor-upgrade phase \"\""

def topologyChangingOperationPending (restore : Option RestorePlan)
    (upgrade : Option UpgradePlan) (major : Option MajorUpgradePlan) : Bool :=
  restore.isSome || upgrade.isSome || major.isSome

def capabilityMajorUpgradeSyncBeforeWrites : String := "major-upgrade-sync-before-writes"

def requiredPlanCapabilities (major : Option MajorUpgradePlan) : List String :=
  if major.isSome then [capabilityMajorUpgradeSyncBeforeWrites] else []

def missingPlanCapabilities (reads : HubReads) (instance' : MultiSitePostgres)
    (major : Option MajorUpgradePlan) : List String :=
  Text.sortText (instance'.spec.sites.flatMap fun site =>
    (requiredPlanCapabilities major).filterMap fun capability =>
      match reads.registration? site.siteRegistrationRef with
      | some registration =>
        if capability ∈ registration.capabilities then none
        else some (site.name ++ "/" ++ site.siteRegistrationRef ++ ":" ++ capability)
      | none => some (site.name ++ "/" ++ site.siteRegistrationRef ++ ":" ++ capability))

/-! ## The address plan -/

/-- `activeSitePlan`: the stored plan of the first site. -/
def activeSitePlan (reads : HubReads) (instance' : MultiSitePostgres) : Option SitePlan :=
  match instance'.spec.sites with
  | [] => none
  | site :: _ => reads.planMaps.get? site.name

def addressesComplete (addresses : StringMap) (expected : List String) : Bool :=
  !expected.isEmpty && expected.all fun member => (addresses.get? member).getD "" ≠ ""

def observedAddresses (statuses : List SiteRevisionStatus) : StringMap :=
  statuses.foldl (fun acc s => acc.copyFrom s.addresses) ∅

structure AddressPlan where
  memberAddresses : StringMap
  addressCandidates : StringMap
  addressMigration : Option AddressMigrationPlan
deriving DecidableEq

/-- The operation UID of an address migration; the SHA-256 sum is kept as the text it is
computed from. -/
def migrationUID (instanceUID member oldAddress newAddress : String) : String :=
  Text.join "\x00" [instanceUID, member, oldAddress, newAddress]

/-- `addressPlan`: an address that changed moves by itself, one member at a time. -/
def addressPlan (reads : HubReads) (instance' : MultiSitePostgres) : AddressPlan :=
  let observed := observedAddresses instance'.status.sites
  let previous := activeSitePlan reads instance'
  let assigned := (previous.map (·.memberAddresses)).getD ∅
  let migration := previous.bind (·.addressMigration)
  if migration.isSome ∧
      allSitesApplied instance'.status.sites instance'.status.activeRevision = false then
    ⟨assigned, observed, migration⟩
  else
    let expected := expectedAddressMembers instance'.spec.sites
    if addressesComplete assigned expected = false then ⟨observed, observed, none⟩
    else
      let changed := expected.filter fun member =>
        (observed.get? member).getD "" ≠ "" ∧
          (observed.get? member).getD "" ≠ (assigned.get? member).getD ""
      match Text.sortText changed with
      | [] => ⟨assigned, observed, none⟩
      | member :: _ =>
        let oldAddress := (assigned.get? member).getD ""
        let newAddress := (observed.get? member).getD ""
        ⟨assigned.insert member newAddress, observed, some {
          operationUID := migrationUID instance'.uid member oldAddress newAddress
          member := member
          oldAddress := oldAddress
          newAddress := newAddress }⟩

/-! ## Credential rotation -/

/-- `siteRoleForName`; an unknown name has no role. -/
def siteRoleForName (instance' : MultiSitePostgres) (name : String) : Option SiteRole :=
  (instance'.spec.sites.find? (fun s => s.name = name)).map (·.role)

def credentialVersionIn (site : SiteRevisionStatus) (type : String) : Option Int :=
  match Condition.find? site.conditions type with
  | some c => if c.status = .true then
      (Text.parseInt c.message).filter fun v => 1 ≤ v else none
  | none => none

/-- The one version that all non-witness sites carry under `type`, folded over the status
entries: `none` as soon as one of them carries none or a different one. -/
def commonVersion (instance' : MultiSitePostgres) (type : String) :
    List SiteRevisionStatus → Int → Option Int
  | [], version => some version
  | site :: rest, version =>
    if siteRoleForName instance' site.name = some .witness then
      commonVersion instance' type rest version
    else match credentialVersionIn site type with
      | none => none
      | some v =>
        if version ≠ 0 ∧ v ≠ version then none else commonVersion instance' type rest v

def activeCredentialVersion (instance' : MultiSitePostgres) : Int :=
  (commonVersion instance' "PostgresCredentialsActive" instance'.status.sites 0).getD 0

/-- `commonStagedCredentialVersion`: needs at least one site that is not a witness. -/
def commonStagedCredentialVersion (instance' : MultiSitePostgres) : Option Int :=
  if instance'.status.sites.any
      (fun s => siteRoleForName instance' s.name ≠ some .witness) then
    commonVersion instance' "CredentialRotationPending" instance'.status.sites 0
  else none

/-- The first status entry whose site holds the observed primary. -/
def primarySite? (instance' : MultiSitePostgres) : Option SiteRevisionStatus :=
  instance'.status.sites.find? fun s =>
    Text.hasPrefix instance'.status.primary ("postgres-" ++ s.name ++ "-")

/-- Whether the primary's site reports `type` for this version: `credentialCatalogUpdated`
and `previousCredentialsRevoked` read the same way. -/
def primaryReports (instance' : MultiSitePostgres) (type : String) (version : Int) : Bool :=
  match primarySite? instance' with
  | some site =>
    match Condition.find? site.conditions type with
    | some c => c.status = .true ∧ c.message = toString version
    | none => false
  | none => false

def credentialCatalogUpdated (instance' : MultiSitePostgres) (version : Int) : Bool :=
  primaryReports instance' "CredentialCatalogUpdated" version

def previousCredentialsRevoked (instance' : MultiSitePostgres) (version : Int) : Bool :=
  primaryReports instance' "PreviousCredentialsRevoked" version

def credentialUpdatedMembers (instance' : MultiSitePostgres) (version : Int) : List String :=
  let tag := toString version ++ ":"
  compact (Text.sortText (instance'.status.sites.flatMap fun site =>
    match Condition.find? site.conditions "CredentialMembersUpdated" with
    | some c =>
      if c.status = .true ∧ Text.hasPrefix c.message tag = true then
        splitMembers (Text.trimPrefix c.message tag)
      else []
    | none => []))

/-- `credentialMemberOrder`: synchronous standbys first, the primary last. -/
def credentialMemberOrder (instance' : MultiSitePostgres) : List String :=
  let standbys := Text.sortText instance'.status.synchronousStandbys
  let others := compact ((expectedAddressMembers instance'.spec.sites).filter fun member =>
    Text.hasPrefix member "postgres-" ∧ member ≠ instance'.status.primary ∧ member ∉ standbys)
  standbys ++ others ++ if instance'.status.primary = "" then [] else [instance'.status.primary]

def credentialRotationPlan (reads : HubReads) (instance' : MultiSitePostgres)
    (operationPending : Bool) : Option CredentialRotationPlan :=
  let active := (activeSitePlan reads instance').bind (·.credentialRotation)
  if active.isSome ∧
      allSitesApplied instance'.status.sites instance'.status.activeRevision = false then active
  else if operationPending then none
  else match commonStagedCredentialVersion instance' with
  | none => none
  | some version =>
    let previousVersion := match active with
      | some rotation => rotation.previousVersion
      | none => activeCredentialVersion instance'
    if previousVersion < 1 ∨ previousVersion = version then none
    else if credentialCatalogUpdated instance' version = false then
      some { version := version, previousVersion := previousVersion, phase := .catalog }
    else
      let updated := credentialUpdatedMembers instance' version
      match (credentialMemberOrder instance').find? (· ∉ updated) with
      | some member => some {
          version := version
          previousVersion := previousVersion
          phase := .member
          targetMember := member
          updatedMembers := updated }
      | none => some {
          version := version
          previousVersion := previousVersion
          phase := if previousCredentialsRevoked instance' version then .finalize else .revoke
          updatedMembers := updated }

/-! ## The fingerprint -/

def planFingerprint (instance' : MultiSitePostgres) (addresses : AddressPlan)
    (rotation : Option CredentialRotationPlan) : FingerprintInputs where
  generation := instance'.generation
  addresses := addresses.memberAddresses
  addressCandidates := addresses.addressCandidates
  addressMigration := addresses.addressMigration
  credentialRotation := rotation
  restoreUID := instance'.annotations.restoreUID
  restorePhase := instance'.annotations.restorePhase
  upgradeUID := instance'.annotations.upgradeUID
  upgradePhase := instance'.annotations.upgradePhase
  upgradeMember := instance'.annotations.upgradeMember
  upgradedMembers := instance'.annotations.upgradedMembers

end Mspsql
