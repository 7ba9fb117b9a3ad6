import Mspsql.Control.Attribution
import Mspsql.Control.ConfigMaps
import Mspsql.Hub.Attempts

/-!
# What a message on a control stream writes

The server takes one message of a stream at a time and answers it with at most two writes, each
of which reads the object again.  The objects are found by what the message says: a plan message
names the UID of an instance, the result of a directive its operation UID, and only the site
registration is that of the stream.
-/

namespace Mspsql

/-! ## The stored objects -/

/-- A site registration with the part of its status that only the server writes. -/
structure SiteRecord where
  registration : SiteRegistration
  clusterUID : String := ""
  agentVersion : String := ""
  lastHeartbeatTime : Option Time := none
  agentCertificateExpiresAt : Option Time := none
  discoveredIssuers : List IssuerReference := []
  conditions : List Condition := []
deriving DecidableEq

/-- An instance with the annotation that triggers its reconcile. -/
structure InstanceRecord where
  stored : MultiSitePostgres
  addressObservation : Option Time := none
deriving DecidableEq

structure HubStore where
  registrations : List SiteRecord := []
  instances : List InstanceRecord := []
  declared : List DeclaredObject := []
  /-- The upgrades with their namespaces. -/
  upgrades : List (String × PostgresUpgrade) := []
  restores : List PostgresRestore := []
  configMaps : List ConfigMap := []

namespace HubStore

def registrationWithUID? (store : HubStore) (uid : String) : Option SiteRecord :=
  store.registrations.find? (·.registration.uid = uid)

def registration? (store : HubStore) (name : String) : Option SiteRecord :=
  store.registrations.find? (·.registration.name = name)

/-- `instancesByUID`, for a UID that is not shared. -/
def instanceWithUID? (store : HubStore) (uid : String) : Option InstanceRecord :=
  store.instances.find? (·.stored.uid = uid)

def upgrade? (store : HubStore) (namespaceName name : String) : Option (String × PostgresUpgrade) :=
  store.upgrades.find? fun u => u.1 = namespaceName ∧ u.2.name = name

end HubStore

/-! ## Messages -/

structure AgentHello where
  protocolVersion : String
  clusterUID : String
  agentVersion : String := ""
  capabilities : List String := []
deriving DecidableEq

structure Inventory where
  storageClasses : List String := []
  volumeSnapshotClasses : List VolumeSnapshotClassInventory := []
  issuers : List IssuerReference := []
deriving DecidableEq

inductive AgentMessage where
  /-- The first message, with the expiry of the peer's certificate. -/
  | hello (hello : AgentHello) (certificateNotAfter : Time)
  | certificateSigningRequest (requestID csrPEM : String)
  | heartbeat
  | acknowledgement (ack : PlanAcknowledgement)
  | progress (progress : PlanProgress)
  | result (result : PlanResult)
  /-- The length of the JSON text and what it decodes to. -/
  | inventory (length : Nat) (decoded : Option Inventory)
deriving DecidableEq

def PlanMessage.instanceUID : PlanMessage → String
  | .acknowledgement ack => ack.instanceUID
  | .progress report => report.instanceUID
  | .result applied => applied.instanceUID

/-- Whether handling the message, which is recorded in `site`, asks for a reconcile of the
instance. -/
def PlanMessage.triggers (site : SiteRevisionStatus) : PlanMessage → Bool
  | .acknowledgement _ => false
  | .progress report =>
    -- the topology is looked at before the revision is
    report.primary.isSome ∨ report.synchronousStandbys ≠ [] ∨
      report.revision = site.desiredRevision ∧ (report.addresses ≠ [] ∨ report.conditions ≠ [])
  | .result _ => true

inductive ResultOwner where
  | postgres
  | declared (kind : DeclarationKind)
  | restore
  | upgrade
deriving DecidableEq

/-- The cases of `recordOwnedDirectiveResult`. -/
def resultOwner? (kind : String) : Option ResultOwner :=
  if kind = "MultiSitePostgres" then some .postgres
  else if kind = "PostgresDatabase" then some (.declared .database)
  else if kind = "PostgresUser" then some (.declared .user)
  else if kind = "PostgresRestore" then some .restore
  else if kind = "PostgresUpgrade" then some .upgrade
  else none

/-! ## Writes -/

/-- A write of the server: the object it goes to, by the key it is read with, and what is
recorded there. -/
inductive HubWrite where
  | bind (name : String) (hello : AgentHello) (certificateNotAfter now : Time)
  | identity (name : String)
  | heartbeat (name : String) (now : Time)
  | inventory (name : String) (decoded : Inventory)
  | plan (siteName : String) (message : PlanMessage) (now : Time)
  | trigger (instanceUID : String) (now : Time)
  | instanceResult (namespaceName name siteName : String) (result : PlanResult)
  | declaredResult (kind : DeclarationKind) (namespaceName name siteName : String)
      (deleting : Bool) (result : PlanResult)
  | restoreResult (namespaceName name : String) (result : PlanResult)
  | upgradeResult (namespaceName name : String) (result : PlanResult)
  | upgradeBackup (namespaceName name : String) (map : DirectiveMap) (result : PlanResult)
  | backupEvidence (namespaceName name : String) (result : PlanResult)
deriving DecidableEq

structure ServerLibrary where
  parseTime : String → Option Time
  parseNames : String → Option (List String)
  /-- Whether `SignCertificate` gives a certificate for a request. -/
  signs : SiteRegistration → String → Bool

/-- A server whose parsers accept nothing. -/
def plainServer : ServerLibrary where
  parseTime _ := none
  parseNames _ := none
  signs _ _ := false

namespace HubWrite

def bindRecord (hello : AgentHello) (certificateNotAfter now : Time) (r : SiteRecord) :
    SiteRecord :=
  { r with
    registration := { r.registration with
      phase := "Connected", capabilities := hello.capabilities }
    clusterUID := hello.clusterUID
    agentVersion := hello.agentVersion
    lastHeartbeatTime := some now
    agentCertificateExpiresAt := some certificateNotAfter
    conditions := setSiteCondition (setSiteCondition r.conditions
      { type := "Connected", status := .true, reason := "ControlStreamEstablished",
        message := "The authenticated agent control stream is active" })
      { type := "IdentityReady", status := .true, reason := "CertificateAuthenticated",
        message := "The agent presented a valid site identity certificate" } }

def identityRecord (r : SiteRecord) : SiteRecord :=
  { r with
    conditions := setSiteCondition r.conditions
      { type := "IdentityReady", status := .true, reason := "CertificateIssued",
        message := "A renewed agent mTLS certificate was issued over the authenticated stream" } }

def heartbeatRecord (now : Time) (r : SiteRecord) : SiteRecord :=
  { r with
    registration := { r.registration with phase := "Connected" }
    lastHeartbeatTime := some now
    conditions := setSiteCondition r.conditions
      { type := "Connected", status := .true, reason := "HeartbeatReceived",
        message := "The site agent heartbeat is current" } }

def inventoryRecord (decoded : Inventory) (r : SiteRecord) : SiteRecord :=
  { r with
    registration := { r.registration with
      discoveredStorageClasses := decoded.storageClasses
      discoveredVolumeSnapshotClasses := decoded.volumeSnapshotClasses }
    discoveredIssuers := decoded.issuers }

/-- `updateInstanceSite`; without an entry of that name there is no write. -/
def planRecord (siteName : String) (message : PlanMessage) (now : Time) (r : InstanceRecord) :
    InstanceRecord :=
  match receivePlanMessage now siteName message r.stored with
  | .ok updated => { r with stored := updated }
  | .error _ => r

/-- `recordRestoreDirectiveResult`. -/
def restoreRecord (result : PlanResult) (restore : PostgresRestore) : PostgresRestore :=
  let applied := applyDirectiveStatus false restore.generation result.conditions
    { phase := restore.phase, conditions := restore.conditions }
  { restore with
    phase := applied.phase, conditions := applied.conditions
    observedGeneration := restore.generation }

/-- `recordUpgradeDirectiveResult`, for what is not a backup. -/
def upgradeRecord (result : PlanResult) (u : PostgresUpgrade) : PostgresUpgrade :=
  let applied := applyDirectiveStatus false u.generation result.conditions
    { phase := u.status.phase, conditions := u.status.conditions }
  { u with status := { u.status with
      phase := applied.phase, conditions := applied.conditions
      observedGeneration := u.generation } }

def upgradeBackupRecord (map : DirectiveMap) (result : PlanResult) (u : PostgresUpgrade) :
    PostgresUpgrade :=
  { u with status := { u.status with
      conditions := Condition.set u.status.conditions
        (upgradeBackupCondition u.generation map result) } }

def onRegistration (store : HubStore) (name : String) (f : SiteRecord → SiteRecord) : HubStore :=
  { store with
    registrations := Lists.updateFirst (·.registration.name = name) f store.registrations }

def onInstance (store : HubStore) (p : MultiSitePostgres → Bool)
    (f : InstanceRecord → InstanceRecord) : HubStore :=
  { store with instances := Lists.updateFirst (fun r => p r.stored) f store.instances }

def onUpgrade (store : HubStore) (namespaceName name : String)
    (f : PostgresUpgrade → PostgresUpgrade) : HubStore :=
  { store with
    upgrades := Lists.updateFirst (fun u => u.1 = namespaceName ∧ u.2.name = name)
      (fun u => (u.1, f u.2)) store.upgrades }

/-- What a write does to the stored objects. -/
def apply (library : ServerLibrary) (store : HubStore) : HubWrite → HubStore
  | .bind name hello certificateNotAfter now =>
    onRegistration store name (bindRecord hello certificateNotAfter now)
  | .identity name => onRegistration store name identityRecord
  | .heartbeat name now => onRegistration store name (heartbeatRecord now)
  | .inventory name decoded => onRegistration store name (inventoryRecord decoded)
  | .plan siteName message now =>
    onInstance store (·.uid = message.instanceUID) (planRecord siteName message now)
  | .trigger instanceUID now =>
    onInstance store (·.uid = instanceUID) fun r => { r with addressObservation := some now }
  | .instanceResult namespaceName name siteName result =>
    onInstance store (fun i => i.namespaceName = namespaceName ∧ i.name = name) fun r =>
      { r with stored := recordInstanceDirectiveResult library.parseTime siteName result r.stored }
  | .declaredResult kind namespaceName name siteName deleting result =>
    { store with
      declared := Lists.updateFirst
        (fun object => object.kind = kind ∧ object.namespaceName = namespaceName ∧
          object.name = name)
        (recordDeclaredResult library.parseNames siteName deleting result) store.declared }
  | .restoreResult namespaceName name result =>
    { store with
      restores := Lists.updateFirst
        (fun restore => restore.namespaceName = namespaceName ∧ restore.name = name)
        (restoreRecord result) store.restores }
  | .upgradeResult namespaceName name result =>
    onUpgrade store namespaceName name (upgradeRecord result)
  | .upgradeBackup namespaceName name map result =>
    onUpgrade store namespaceName name (upgradeBackupRecord map result)
  | .backupEvidence namespaceName name result =>
    onInstance store (fun i => i.namespaceName = namespaceName ∧ i.name = name) fun r =>
      { r with stored := recordUpgradeBackupEvidence library.parseTime result r.stored }

end HubWrite

/-! ## The writes of a message -/

namespace HubStore

variable (library : ServerLibrary) (siteName siteUID : String) (now : Time) (store : HubStore)

/-- `bindSite`: the registration with the UID that the peer has proved to have. -/
def bindSite (hello : AgentHello) (certificateNotAfter : Time) : Option HubWrite :=
  if hello.protocolVersion ≠ "v1alpha1" then none
  else
    (store.registrationWithUID? siteUID).bind fun r =>
      if r.registration.revoked then none
      else (store.registration? r.registration.name).bind fun current =>
        if current.clusterUID ≠ "" ∧ current.clusterUID ≠ hello.clusterUID then none
        else some (.bind r.registration.name hello certificateNotAfter now)

/-- `ensureSiteActive`. -/
def siteActive : Bool :=
  (store.registration? siteName).any fun r =>
    r.registration.uid = siteUID ∧ r.registration.revoked = false

/-- `rotateCertificate`. -/
def certificateWrites (requestID csrPEM : String) : List HubWrite :=
  if requestID = "" ∨ 128 < requestID.utf8ByteSize ∨ csrPEM.utf8ByteSize = 0 ∨
      16384 < csrPEM.utf8ByteSize then []
  else if siteActive siteName siteUID store ∧ (store.registration? siteName).any fun r =>
      library.signs r.registration csrPEM then
    [.identity siteName]
  else []

/-- `recordAcknowledgement`, `recordProgress` and `recordResult`. -/
def planWrites (message : PlanMessage) : List HubWrite :=
  match (store.instanceWithUID? message.instanceUID).bind fun r =>
      addressedSite? r.stored siteName with
  | none => []
  | some site => .plan siteName message now ::
      if message.triggers site then [.trigger message.instanceUID now] else []

/-- The ConfigMap `recordDirectiveResult` takes for an operation: the first one in the list. -/
def resultMap? (operationUID : String) : Option ConfigMap :=
  store.configMaps.find? fun m =>
    m.isDirective ∧ m.value "operationUID" = operationUID ∧ m.owners ≠ []

/-- `recordOwnedDirectiveResult`. -/
def ownedResultWrites (m : ConfigMap) (owner : OwnerReference) (result : PlanResult) :
    List HubWrite :=
  match resultOwner? owner.kind with
  | none => []
  | some .postgres => [.instanceResult m.namespaceName owner.name siteName result]
  | some (.declared kind) => [.declaredResult kind m.namespaceName owner.name siteName
      (m.value "deleting" = "true") result]
  | some .restore => [.restoreResult m.namespaceName owner.name result]
  | some .upgrade =>
    if m.value "type" ≠ "Backup" then [.upgradeResult m.namespaceName owner.name result]
    else if (store.upgrade? m.namespaceName owner.name).isNone then []
    else .upgradeBackup m.namespaceName owner.name
        (m.directive .postgresUpgrade owner (.declaration (m.value "spec.json"))) result ::
      if directiveSucceeded result.conditions then
        [.backupEvidence m.namespaceName (m.value "instanceRef") result]
      else []

/-- `recordDirectiveResult`: the owner is the first owner reference. -/
def resultWrites (result : PlanResult) : List HubWrite :=
  match store.resultMap? result.operationUID with
  | none => []
  | some m =>
    match m.owners with
    | [] => []
    | owner :: _ => ownedResultWrites siteName store m owner result

/-- The body of the loop of `receive`.  A hello that binds another registration belongs to
another stream. -/
def writes : AgentMessage → List HubWrite
  | .hello hello certificateNotAfter =>
    (bindSite siteUID now store hello certificateNotAfter).toList.filter fun w =>
      match w with
      | .bind name _ _ _ => name = siteName
      | _ => false
  | .certificateSigningRequest requestID csrPEM =>
    certificateWrites library siteName siteUID store requestID csrPEM
  | .heartbeat => [.heartbeat siteName now]
  | .acknowledgement ack => planWrites siteName now store (.acknowledgement ack)
  | .progress report => planWrites siteName now store (.progress report)
  | .result result =>
    if result.operationUID ≠ "" then resultWrites siteName store result
    else planWrites siteName now store (.result result)
  | .inventory length decoded =>
    if 1048576 < length then [] else decoded.toList.map (.inventory siteName)

/-- The stored objects after the first `landed` writes of a message. -/
def handle (message : AgentMessage) (landed : Nat) : HubStore :=
  ((writes library siteName siteUID now store message).take landed).foldl
    (HubWrite.apply library) store

end HubStore

end Mspsql
