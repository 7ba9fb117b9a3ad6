import Mspsql.Lib.GoType

/-!
# The documents that are signed

The Go types of a site plan and of a directive payload with their field tags, and the
envelope both travel in.  A struct is the list of its fields in the order of their
declaration, which is the order in which they are written.  Fields with the tag `-` are not
part of a document.
-/

namespace Mspsql.Wire

/-- The types with a JSON form of their own: `time.Time`, `metav1.Duration` and
`resource.Quantity`. -/
inductive TextKind where
  | time
  | duration
  | quantity
deriving DecidableEq

open GoType (string bool int custom raw ptr slice map struct)

/-- A field without `omitempty`, and one with it. -/
abbrev need (name : String) (t : GoType TextKind) (rest : GoFields TextKind) : GoFields TextKind :=
  .cons name false t rest

abbrev may (name : String) (t : GoType TextKind) (rest : GoFields TextKind) : GoFields TextKind :=
  .cons name true t rest

/-! ## The API types a plan contains -/

def issuerReference : GoType TextKind :=
  struct <| need "name" string <| may "kind" string <| may "group" string .nil

def siteComponents : GoType TextKind :=
  struct <| need "etcdReplicas" (int 32) <| need "postgresReplicas" (int 32) <|
    need "pgpoolReplicas" (int 32) .nil

def storageRequest : GoType TextKind :=
  struct <| need "storageClassName" string <| need "size" (custom .quantity) .nil

def siteStorage : GoType TextKind :=
  struct <| may "etcd" (ptr storageRequest) <| may "postgres" (ptr storageRequest) <|
    may "restoreWorkspace" (ptr storageRequest) .nil

def loadBalancerSpec : GoType TextKind :=
  struct <| need "addressPool" string <| may "peerSourceAddresses" (slice string) .nil

def secretKeyReference : GoType TextKind :=
  struct <| need "name" string <| may "key" string .nil

def vaultAuthSpec : GoType TextKind :=
  struct <| need "address" string <| need "authMount" string <| need "authRole" string <|
    may "caBundleSecretRef" (ptr secretKeyReference) .nil

def siteCertificateSpec : GoType TextKind :=
  struct <| need "etcdIssuerRef" issuerReference <| may "etcdPeerIssuerRef" issuerReference <|
    may "etcdClientIssuerRef" issuerReference <| may "postgresIssuerRef" issuerReference <|
    may "pgpoolIssuerRef" issuerReference <| may "backupIssuerRef" issuerReference .nil

def postgresSiteSpec : GoType TextKind :=
  struct <| need "name" string <| need "siteRegistrationRef" string <| need "namespace" string <|
    need "role" string <| may "primaryPreference" (int 32) <| need "components" siteComponents <|
    may "storage" siteStorage <| may "loadBalancer" (ptr loadBalancerSpec) <|
    may "vaultAuth" (ptr vaultAuthSpec) <| need "certificates" siteCertificateSpec .nil

def postgresSpec : GoType TextKind :=
  struct <| need "majorVersion" (int 32) <| need "image" string <|
    need "synchronousStandbyCount" (int 32) <| may "parameters" (map string) .nil

def tdeVaultSpec : GoType TextKind :=
  struct <| need "kvMount" string <| need "keyPath" string <| need "providerName" string <|
    need "principalKeyName" string .nil

def tdeSpec : GoType TextKind :=
  struct <| may "enabled" bool <| may "vault" (ptr tdeVaultSpec) .nil

def vaultSecretReference : GoType TextKind :=
  struct <| need "mount" string <| need "path" string <| may "key" string .nil

def instanceCredentialsSpec : GoType TextKind :=
  struct <| need "postgresVaultRef" vaultSecretReference <|
    may "pgpoolVaultRef" vaultSecretReference .nil

def backupRepositorySpec : GoType TextKind :=
  struct <| need "type" string <| need "bucket" string <| need "prefix" string <|
    may "endpoint" string <| may "region" string <| may "uriStyle" string <|
    may "caBundleSecretRef" (ptr secretKeyReference) <|
    need "credentialVaultRef" vaultSecretReference .nil

def backupSchedules : GoType TextKind :=
  struct <| may "full" string <| may "differential" string <| may "incremental" string <|
    may "timezone" string .nil

def backupRetention : GoType TextKind :=
  struct <| may "duration" (custom .duration) <| may "walDuration" (custom .duration) .nil

def backupSpec : GoType TextKind :=
  struct <| need "repository" backupRepositorySpec <| may "schedules" backupSchedules <|
    may "retention" backupRetention .nil

def storageRollbackPolicy : GoType TextKind :=
  struct <| need "storageClassName" string <| need "strategy" string <|
    may "volumeSnapshotClassName" string .nil

/-! ## Site plans -/

def credentialRotationPlan : GoType TextKind :=
  struct <| need "version" (int 64) <| need "previousVersion" (int 64) <| need "phase" string <|
    may "targetMember" string <| may "updatedMembers" (slice string) .nil

def addressMigrationPlan : GoType TextKind :=
  struct <| need "operationUID" string <| need "member" string <| need "oldAddress" string <|
    need "newAddress" string .nil

def restorePlan : GoType TextKind :=
  struct <| need "operationUID" string <| need "sourceInstanceUID" string <|
    need "sourceBackup" backupSpec <| need "targetTime" (custom .time) <|
    may "backupSet" string <| need "seedSite" string <| need "seedMember" string <|
    need "phase" string .nil

def upgradePlan : GoType TextKind :=
  struct <| need "operationUID" string <| need "targetImage" string <|
    may "targetMember" string <| may "upgradedMembers" (slice string) <|
    may "fromPrimary" string <| may "candidate" string <| need "phase" string .nil

def majorUpgradePlan : GoType TextKind :=
  struct <| need "operationUID" string <| need "phase" string <| need "primary" string <|
    need "sourceMajor" (int 32) <| need "targetMajor" (int 32) <| need "targetImage" string <|
    need "upgradeImage" string <| need "rollbackRetention" (int 64) <|
    need "rollbackPolicies" (map storageRollbackPolicy) .nil

def deletionPlan : GoType TextKind :=
  struct <| need "policy" string .nil

/-- What a plan says besides its identity. -/
def planContents : GoFields TextKind :=
  need "generatedAt" (custom .time) <| need "site" postgresSiteSpec <|
    need "postgres" postgresSpec <| may "tde" tdeSpec <| may "tdeKeyCreator" bool <|
    may "backup" (ptr backupSpec) <| need "credentials" instanceCredentialsSpec <|
    may "memberAddresses" (map string) <| may "addressCandidates" (map string) <|
    may "addressMigration" (ptr addressMigrationPlan) <|
    may "credentialRotation" (ptr credentialRotationPlan) <|
    may "requiredCapabilities" (slice string) <| may "restore" (ptr restorePlan) <|
    may "upgrade" (ptr upgradePlan) <| may "majorUpgrade" (ptr majorUpgradePlan) <|
    may "deletion" (ptr deletionPlan) .nil

def sitePlanFields : GoFields TextKind :=
  need "protocolVersion" string <| need "siteUID" string <| need "instanceUID" string <|
    need "hubNamespace" string <| need "hubName" string <| need "revision" (int 64) planContents

/-- `plan.SitePlan`. -/
def sitePlanType : GoType TextKind := struct sitePlanFields

/-! ## Directives and envelopes -/

def payloadFields : GoFields TextKind :=
  need "protocolVersion" string <| need "siteUID" string <| need "instanceUID" string <|
    need "objectUID" string <| need "operationUID" string <| need "type" string <|
    may "primary" string <| may "backupSource" string <| may "backupType" string <|
    may "deleting" bool <| need "generatedAt" (custom .time) <| need "spec" raw .nil

/-- `directive.Payload`. -/
def payload : GoType TextKind := struct payloadFields

def envelopeFields : GoFields TextKind :=
  need "plan" raw <| need "signature" string .nil

/-- `plan.Envelope`. -/
def envelope : GoType TextKind := struct envelopeFields

variable {P : Printers TextKind}

/-- The identity of a plan, and the rest of it. -/
structure PlanDocument (P : Printers TextKind) where
  protocolVersion : GoString
  siteUID : GoString
  instanceUID : GoString
  hubNamespace : GoString
  hubName : GoString
  revision : (int 64 : GoType TextKind).Val P
  contents : planContents.Val P

def PlanDocument.val (p : PlanDocument P) : sitePlanType.Val P :=
  (p.protocolVersion, p.siteUID, p.instanceUID, p.hubNamespace, p.hubName, p.revision, p.contents)

def PlanDocument.ofVal : sitePlanType.Val P → PlanDocument P
  | (protocolVersion, siteUID, instanceUID, hubNamespace, hubName, revision, contents) =>
    { protocolVersion, siteUID, instanceUID, hubNamespace, hubName, revision, contents }

structure Payload (P : Printers TextKind) where
  protocolVersion : GoString
  siteUID : GoString
  instanceUID : GoString
  objectUID : GoString
  operationUID : GoString
  type : GoString
  primary : GoString
  backupSource : GoString
  backupType : GoString
  deleting : Bool
  generatedAt : (custom .time : GoType TextKind).Val P
  spec : Option (List Char)

def Payload.val (p : Payload P) : payload.Val P :=
  (p.protocolVersion, p.siteUID, p.instanceUID, p.objectUID, p.operationUID, p.type, p.primary,
    p.backupSource, p.backupType, p.deleting, p.generatedAt, p.spec, ())

def Payload.ofVal : payload.Val P → Payload P
  | (protocolVersion, siteUID, instanceUID, objectUID, operationUID, type, primary, backupSource,
      backupType, deleting, generatedAt, spec, ()) =>
    { protocolVersion, siteUID, instanceUID, objectUID, operationUID, type, primary, backupSource,
      backupType, deleting, generatedAt, spec }

structure Envelope where
  plan : Option (List Char)
  signature : GoString
deriving DecidableEq

def Envelope.val (e : Envelope) : envelope.Val P := (e.plan, e.signature, ())

def Envelope.ofVal : envelope.Val P → Envelope
  | (plan, signature, ()) => { plan, signature }

def stringText (raw : List Char) : Option (List Char) :=
  (Json.parse raw).bind fun r =>
    match r.2 with
    | .str pieces => GoString.chars? (Json.unquote none pieces)
    | _ => none

theorem stringText_ofChars (w : List Char) : stringText (Json.ofChars w).print = some w := by
  rw [stringText, Json.parse_print (Json.tidy_ofChars w)]
  show GoString.chars? (Json.unquote none (Json.quote (GoString.ofChars w))) = some w
  rw [Json.unquote_quote, Json.map_valid_of_clean (GoString.ofChars_clean w),
    GoString.chars?_ofChars]

/-- Printers that take every text for a value. -/
def plainPrinters : Printers TextKind where
  canon _ raw := stringText raw
  keepsNull k := k = .time
  zeroText
    | .time => "0001-01-01T00:00:00Z".toList
    | .duration => "0s".toList
    | .quantity => "0".toList
  canon_printed _ := stringText_ofChars _
  canon_zero _ := stringText_ofChars _

theorem sitePlanType_wellFormed : sitePlanType.wellFormed = true := by decide +kernel

theorem envelope_wellFormed : envelope.wellFormed = true := by decide +kernel

end Mspsql.Wire
