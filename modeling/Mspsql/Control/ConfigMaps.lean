import Mspsql.Agent.PlanPath
import Mspsql.Control.Delivery

/-!
# Plans and directives as ConfigMaps

The server finds the plans and the directives of a site among all ConfigMaps of the API, by
their labels.  Anybody who may create a ConfigMap may set these labels, and the server reads
the data before it knows who wrote them.  A ConfigMap is what the API stores, and the checks of
`Delivery` are applied to what its texts decode to.

What a stream has sent is remembered per stream: the last revision for each instance UID, and
the operation UIDs of the directives.
-/

namespace Mspsql

open Wire

structure OwnerReference where
  apiVersion : String
  kind : String
  name : String
  uid : String
  controller : Bool
deriving DecidableEq, Repr

structure ConfigMap where
  namespaceName : String
  name : String
  labels : StringMap := ∅
  owners : List OwnerReference := []
  data : StringMap := ∅

namespace ConfigMap

/-- A key that is absent has the empty text. -/
def value (m : ConfigMap) (key : String) : String := (m.data.get? key).getD ""

/-- `metav1.GetControllerOf`. -/
def controllerOf (m : ConfigMap) : Option OwnerReference := m.owners.find? (·.controller)

end ConfigMap

def siteLabel : String := "multisite-postgres.dev/site-registration-uid"

def directiveLabel : String := "multisite-postgres.dev/directive"

def groupVersion : String := "multisite-postgres.dev/v1alpha1"

/-! ## What the texts decode to -/

structure TimeText where
  format : Time → String
  parse : String → Option Time
  parse_format : ∀ t, parse (format t) = some (storedTime t)

/-- Times written as their whole seconds. -/
def plainTimes : TimeText where
  format t := String.ofList (Json.intText (unix t))
  parse s := (Json.intOf? s.toList).map (· * second)
  parse_format t := by
    rw [String.toList_ofList, Json.intOf?_intText]
    rfl

def GoString.text? (s : GoString) : Option String := s.chars?.map String.ofList

theorem text?_ofString (s : String) : GoString.text? (.ofString s) = some s := by
  rw [GoString.text?, GoString.ofString, GoString.chars?_ofChars, Option.map_some,
    String.ofList_toList]

def backupTypeFields : GoFields TextKind := .cons "backupType" false .string .nil

def scheduledFields : GoFields TextKind :=
  .cons "backupType" false .string (.cons "scheduledAt" false .string .nil)

def backupTypeOf (P : Printers TextKind) (specJSON : String) : Option GoString :=
  ((GoType.struct backupTypeFields).unmarshal (P := P) specJSON.toList).map Prod.fst

def scheduledSpec (P : Printers TextKind) (T : TimeText) (specJSON : String) :
    Option DirectiveSpec :=
  ((GoType.struct scheduledFields).unmarshal (P := P) specJSON.toList).bind fun scheduled =>
    (GoString.text? scheduled.1).bind fun backupType =>
      ((GoString.text? scheduled.2.1).bind T.parse).map (.backup backupType)

def ConfigMap.directive (m : ConfigMap) (kind : OwnerKind) (owner : OwnerReference)
    (spec : DirectiveSpec) : DirectiveMap where
  namespaceName := m.namespaceName
  name := m.name
  ownerKind := kind
  ownerName := owner.name
  ownerUID := owner.uid
  type := m.value "type"
  instanceRef := m.value "instanceRef"
  deleting := m.value "deleting" = "true"
  operationUID := m.value "operationUID"
  upgradeBackupPhase := m.value "upgradeBackupPhase"
  spec := spec

/-! ## Trust -/

def ownerKind? : String → Option OwnerKind
  | "MultiSitePostgres" => some .multiSitePostgres
  | "PostgresDatabase" => some .postgresDatabase
  | "PostgresUser" => some .postgresUser
  | "PostgresUpgrade" => some .postgresUpgrade
  | _ => none

structure ServerReads where
  instances : List MultiSitePostgres
  declared : List DeclaredObject := []
  /-- With their namespaces. -/
  upgrades : List (String × PostgresUpgrade) := []

namespace ServerReads

variable (P : Printers TextKind) (T : TimeText) (reads : ServerReads)

def instance? (namespaceName name : String) : Option MultiSitePostgres :=
  reads.instances.find? fun i => i.namespaceName = namespaceName ∧ i.name = name

def upgradesIn (namespaceName : String) : List PostgresUpgrade :=
  (reads.upgrades.filter fun u => u.1 = namespaceName).map Prod.snd

/-- `directiveOwnerTrusted` on what the directive decodes to. -/
def trustsDirective (i : MultiSitePostgres) (map : DirectiveMap) : Bool :=
  directiveOwnerTrusted map i (reads.upgradesIn map.namespaceName) reads.declared

/-- `directiveOwnerTrusted`. -/
def trusts (m : ConfigMap) (i : MultiSitePostgres) (owner : OwnerReference) : Bool :=
  owner.apiVersion = groupVersion &&
    match ownerKind? owner.kind with
    | some .postgresDatabase => reads.trustsDirective i
        (m.directive .postgresDatabase owner (.declaration (m.value "spec.json")))
    | some .postgresUser => reads.trustsDirective i
        (m.directive .postgresUser owner (.declaration (m.value "spec.json")))
    | some .multiSitePostgres => m.value "deleting" = "false" &&
        match scheduledSpec P T (m.value "spec.json") with
        | none => false
        | some spec => reads.trustsDirective i (m.directive .multiSitePostgres owner spec)
    | some .postgresUpgrade => m.value "deleting" = "false" &&
        -- the specification is not looked at
        reads.trustsDirective i
          (m.directive .postgresUpgrade owner (.declaration (m.value "spec.json")))
    | none => false

def trustedOwner (m : ConfigMap) (i : MultiSitePostgres) : Option OwnerReference :=
  m.controllerOf.filter fun owner => reads.trusts P T m i owner

end ServerReads

/-! ## Sending plans -/

structure PlanDelivery where
  instanceUID : GoString
  revision : Int
  envelopeJSON : List Char
deriving DecidableEq

/-- What a pass has sent and what it remembers; `ok` is false when it ends the stream. -/
structure SendPass (α σ : Type) where
  messages : List α
  memory : σ
  ok : Bool

/-- The last revision that was sent for each instance UID. -/
abbrev SentPlans := GoString → Int

section

variable (P : Printers TextKind)

def ConfigMap.plan? (m : ConfigMap) : Option (Envelope × PlanDocument P) :=
  (Envelope.decode P (m.value "envelope.json").toList).bind fun e =>
    (sitePlanType.unmarshal (P := P) (e.plan.getD [])).map fun x => (e, PlanDocument.ofVal x)

/-- The loop of `sendPlans`. -/
def sendEach : List ConfigMap → SentPlans → SendPass PlanDelivery SentPlans
  | [], sent => ⟨[], sent, true⟩
  | m :: rest, sent =>
    match m.plan? P with
    | none => ⟨[], sent, false⟩
    | some (e, desired) =>
      if desired.revision.1 ≤ sent desired.instanceUID then sendEach rest sent
      else
        match e.encode P with
        | none => ⟨[], sent, false⟩
        | some envelopeJSON =>
          let later := sendEach rest (Function.update sent desired.instanceUID desired.revision.1)
          ⟨⟨desired.instanceUID, desired.revision.1, envelopeJSON⟩ :: later.messages,
            later.memory, later.ok⟩

theorem exists_encode {P : Printers TextKind} {m : ConfigMap} {e : Envelope}
    {desired : PlanDocument P} (h : m.plan? P = some (e, desired)) :
    ∃ text, e.encode P = some text := by
  obtain ⟨e', -, hplan⟩ := Option.bind_eq_some_iff.mp h
  obtain ⟨x, hx, heq⟩ := Option.map_eq_some_iff.mp hplan
  cases heq
  have hwritable : envelope.Writable (P := P) e.val := by
    refine ⟨fun text htext => ?_, trivial, trivial⟩
    have hplan : e.plan = some text := htext
    rw [hplan] at hx
    obtain ⟨r, hr, -⟩ := Option.bind_eq_some_iff.mp hx
    rw [show Json.parse text = some r from hr]
    rfl
  obtain ⟨v, hv⟩ := Option.isSome_iff_exists.mp (envelope.isSome_marshal _ hwritable)
  exact ⟨v.print, congrArg (Option.map Json.print) hv⟩

def ConfigMap.forSite (siteUID : String) (m : ConfigMap) : Bool :=
  m.labels.get? siteLabel = some siteUID

/-- One pass of `sendPlans` over the plans. -/
def sendPlans (siteUID : String) (maps : List ConfigMap) (sent : SentPlans) :
    SendPass PlanDelivery SentPlans :=
  sendEach P (maps.filter (ConfigMap.forSite siteUID)) sent

end

/-! ## Sending directives -/

structure DirectiveDelivery where
  operationUID : String
  instanceUID : String
  type : String
  directiveJSON : List Char
deriving DecidableEq

/-- A stream: the registration it belongs to and the key the hub signs with. -/
structure SiteLink (E : Ed25519) where
  siteName : String
  siteUID : String
  key : E.PrivateKey

inductive Verdict where
  | skip
  | fail
  | send (message : DirectiveDelivery)
deriving DecidableEq

section

variable {E : Ed25519} {P : Printers TextKind} (T : TimeText) (link : SiteLink E)
  (now : (GoType.custom TextKind.time).Val P) (reads : ServerReads)

def signDirective (i : MultiSitePostgres) (m : ConfigMap) (backupSource : String)
    (backupType : GoString) : Verdict :=
  match reads.trustedOwner P T m i with
  | none => .skip
  | some owner =>
    let p : Payload P := {
      protocolVersion := []
      siteUID := .ofString link.siteUID
      instanceUID := .ofString i.uid
      objectUID := .ofString owner.uid
      operationUID := .ofString (m.value "operationUID")
      type := .ofString (m.value "type")
      primary := .ofString i.status.primary
      backupSource := .ofString backupSource
      backupType := backupType
      deleting := m.value "deleting" = "true"
      generatedAt := now
      spec := some (m.value "spec.json").toList }
    match p.sign E link.key with
    | .error _ => .fail
    | .ok e =>
      match e.encode P with
      | none => .fail
      | some directiveJSON =>
        .send ⟨m.value "operationUID", i.uid, m.value "type", directiveJSON⟩

/-- The body of the loop of `sendDirectives`. -/
def considerDirective (sent : List String) (m : ConfigMap) : Verdict :=
  if m.value "operationUID" = "" ∨ m.value "operationUID" ∈ sent then .skip
  else
    match reads.instance? m.namespaceName (m.value "instanceRef") with
    | none => .skip
    | some i =>
      if m.value "type" = "Backup" then
        -- the specification is decoded before anything says that it can be trusted
        match backupTypeOf P (m.value "spec.json") with
        | none => .fail
        | some backupType =>
          if selectBackupSource i = "" ∨
              memberTargetsSite i (selectBackupSource i) link.siteName = false then .skip
          else signDirective T link now reads i m (selectBackupSource i) backupType
      else if directiveTargetsSite i (m.value "type") link.siteName = false then .skip
      else signDirective T link now reads i m "" []

/-- `sendDirectives`; `limit` is how many more this pass may send. -/
def sendDirectives : List ConfigMap → List String → Nat → SendPass DirectiveDelivery (List String)
  | [], sent, _ => ⟨[], sent, true⟩
  | m :: rest, sent, limit =>
    match considerDirective T link now reads sent m with
    | .skip => sendDirectives rest sent limit
    | .fail => ⟨[], sent, false⟩
    | .send message =>
      let sent := m.value "operationUID" :: sent
      let later := if limit ≤ 1 then ⟨[], sent, true⟩ else sendDirectives rest sent (limit - 1)
      ⟨message :: later.messages, later.memory, later.ok⟩

end

def ConfigMap.isDirective (m : ConfigMap) : Bool := (m.labels.get? directiveLabel).isSome

end Mspsql
