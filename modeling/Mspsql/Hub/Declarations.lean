import Mspsql.Control.Server

/-!
# Declared databases and users

The controllers of `PostgresDatabase` and `PostgresUser` put the declaration into a
directive ConfigMap and wait for the result that a site agent sends back.  They
differ in their checks before the directive is issued and in the texts of their status.

A reconcile is the list of its API writes.  Status and finalizer updates carry the resource
version of the object that was read, the directive ConfigMap has its own.
-/

namespace Mspsql

inductive DeclarationKind where
  | database
  | user
deriving DecidableEq, Repr

structure Membership where
  databaseRef : String
  role : String
deriving DecidableEq, Repr

structure DeclaredStatus where
  observedGeneration : Nat := 0
  phase : String := ""
  operation : Option OperationProgressStatus := none
  conditions : List Condition := []
  observedSize : Int := 0
  tdeVerified : Bool := false
  orphanedDeclarations : List String := []
  credentialVersion : Int := 0
deriving DecidableEq, Repr

/-- A `PostgresDatabase` or a `PostgresUser`; `specJSON` is the encoded specification. -/
structure DeclaredObject where
  kind : DeclarationKind
  namespaceName : String
  name : String
  uid : String
  generation : Nat := 1
  deleting : Bool := false
  finalizer : Bool := false
  forceOrphan : Bool := false
  instanceRef : String
  deletionPolicy : Option DeletionPolicy := none
  memberOf : List Membership := []
  specJSON : String := ""
  status : DeclaredStatus := {}
deriving DecidableEq, Repr

/-! ## The directive -/

def DeclarationKind.directiveType : DeclarationKind → String
  | .database => "Database"
  | .user => "User"

def DeclarationKind.ownerKind : DeclarationKind → OwnerKind
  | .database => .postgresDatabase
  | .user => .postgresUser

/-- `mspsql-database-<name>` or `mspsql-user-<name>`. -/
def DeclaredObject.directiveName (object : DeclaredObject) : String :=
  match object.kind with
  | .database => "mspsql-database-" ++ object.name
  | .user => "mspsql-user-" ++ object.name

/-- `fmt.Sprintf("%s-%d-%t", uid, generation, deleting)`. -/
def operationUIDOf (uid : String) (generation : Nat) (deleting : Bool) : String :=
  uid ++ "-" ++ toString generation ++ "-" ++ toString deleting

def directiveOperationUID (object : DeclaredObject) (deleting : Bool) : String :=
  operationUIDOf object.uid object.generation deleting

def directiveOperation (object : DeclaredObject) (phase : String) (deleting : Bool) :
    OperationProgressStatus where
  operationUID := directiveOperationUID object deleting
  phase := phase
  attempt := 1

/-- `reconcileDirective`: a ConfigMap that exists keeps its owner and gets new data. -/
def reconcileDirective (stored : Option DirectiveMap) (object : DeclaredObject)
    (deleting : Bool) : DirectiveMap :=
  let fresh : DirectiveMap := {
    namespaceName := object.namespaceName
    name := object.directiveName
    ownerKind := object.kind.ownerKind
    ownerName := object.name
    ownerUID := object.uid
    type := object.kind.directiveType
    instanceRef := object.instanceRef
    deleting := deleting
    operationUID := directiveOperationUID object deleting
    spec := .declaration object.specJSON }
  match stored with
  | none => fresh
  | some map => { map with
      type := fresh.type, instanceRef := fresh.instanceRef, deleting := fresh.deleting,
      operationUID := fresh.operationUID
      upgradeBackupPhase := fresh.upgradeBackupPhase, spec := fresh.spec }

/-- `declarationDirectiveTrusted` with the checks of its two callers. -/
def declarationDirectiveTrusted (map : DirectiveMap) (instanceName : String)
    (object : DeclaredObject) : Bool :=
  map.type = object.kind.directiveType ∧ map.ownerName = object.name ∧
    map.name = object.directiveName ∧ object.uid = map.ownerUID ∧
    object.instanceRef = instanceName ∧
    map.operationUID = directiveOperationUID object map.deleting ∧
    map.deleting = object.deleting ∧
    (map.deleting = true → object.deletionPolicy = some .delete) ∧
    map.spec = .declaration object.specJSON

/-! ## The controllers -/

inductive DeclarationWrite where
  | directive (deleting : Bool)
  | status (status : DeclaredStatus)
  | addFinalizer
  /-- After a status write the object is read again first. -/
  | removeFinalizer (reread : Bool)
deriving DecidableEq, Repr

/-- What reading the parent instance gives: whether it is `Ready`, that there is none, or
another error. -/
inductive ParentRead where
  | found (ready : Bool)
  | notFound (error : String)
  | failed (error : String)
deriving DecidableEq, Repr

def DeclaredObject.withCondition (object : DeclaredObject) (status : DeclaredStatus)
    (type : String) (value : ConditionStatus) (reason message : String) : DeclaredStatus :=
  { status with conditions :=
      setCondition status.conditions object.generation type value reason message }

/-- The branch of a deleted declaration; `noun` is what the messages call it. -/
def reconcileDeclarationDeletion (noun : String) (parent : ParentRead)
    (object : DeclaredObject) : List DeclarationWrite :=
  if object.deletionPolicy = some .retain ∨ object.status.phase = "Deleted" then
    [.removeFinalizer false]
  else match parent with
  | .notFound _ =>
    let orphaned := object.withCondition { object.status with
        observedGeneration := object.generation, phase := "Orphaned" }
      "DeletionBlocked" .true "ParentUnavailable"
      ("Parent instance is unavailable; set multisite-postgres.dev/force-orphan=true to " ++
        "abandon residual " ++ noun ++ " cleanup")
    if object.forceOrphan then
      [.status (object.withCondition orphaned "DeletionBlocked" .false "ForceOrphaned"
          ("Residual " ++ noun ++ " cleanup was force-orphaned after parent loss")),
        .removeFinalizer true]
    else [.status orphaned]
  | .failed _ => []
  | .found _ =>
    [.directive true, .status (object.withCondition { object.status with
          observedGeneration := object.generation
          phase := "Deleting"
          operation := some (directiveOperation object "Deleting" true) }
        "DeletionBlocked" .true "DeletionDirectiveIssued"
        ("Waiting for a site agent to delete the " ++ noun ++ " declaration"))]

/-- Issue the directive of the current generation, then settle the status: `Ready` when
`Succeeded` is true and the generation is the observed one, pending otherwise. -/
def issueDeclaration (object : DeclaredObject)
    (readyReason readyMessage pendingPhase pendingMessage : String) : List DeclarationWrite :=
  .directive false ::
    if object.status.observedGeneration = object.generation ∧
        conditionTrue object.status.conditions "Succeeded" then
      if object.status.phase = "Ready" ∧ conditionTrue object.status.conditions "Ready" then []
      else [.status (object.withCondition { object.status with phase := "Ready" }
        "Ready" .true readyReason readyMessage)]
    else
      [.status (object.withCondition { object.status with
          observedGeneration := object.generation
          phase := pendingPhase
          operation := some (directiveOperation object "Reconciling" false) }
        "Ready" .false "DeclarationIssued" pendingMessage)]

/-- The object stays `Pending` and not `Ready`, for a reason. -/
def declarationPending (object : DeclaredObject) (reason message : String) : DeclarationWrite :=
  .status (object.withCondition { object.status with phase := "Pending" } "Ready" .false
    reason message)

/-- `PostgresDatabaseReconciler.Reconcile`. -/
def reconcileDatabase (parent : ParentRead) (object : DeclaredObject) : List DeclarationWrite :=
  if object.deleting = false ∧ object.finalizer = false then [.addFinalizer]
  else if object.deleting then reconcileDeclarationDeletion "database" parent object
  else match parent with
  | .notFound error | .failed error =>
    [declarationPending object "InstanceUnavailable" error]
  | .found ready => issueDeclaration object "DatabaseReconciled"
      "The database declaration is applied and audited"
      (if ready then "Reconciling" else "Pending")
      "Waiting for a site agent to reconcile the database"

/-- A `PostgresDatabase` as the user controller reads it. -/
structure DatabaseView where
  instanceRef : String
  roles : List String
  ready : Bool
deriving DecidableEq, Repr

def membershipBlocked (databases : String → Except String DatabaseView)
    (object : DeclaredObject) : List Membership → Option (String × String)
  | [] => none
  | membership :: rest =>
    match databases membership.databaseRef with
    | .error error => some ("DatabaseUnavailable", error)
    | .ok database =>
      if database.instanceRef ≠ object.instanceRef then
        some ("DatabaseInstanceMismatch",
          "Database " ++ membership.databaseRef ++ " belongs to another instance")
      else if membership.role ∉ database.roles then
        some ("DatabaseRoleUnavailable", "Database " ++ membership.databaseRef ++
          " does not declare role " ++ membership.role)
      else if database.ready = false then
        some ("DatabaseNotReady",
          "Waiting for database " ++ membership.databaseRef ++ " to be reconciled")
      else membershipBlocked databases object rest

/-- `PostgresUserReconciler.Reconcile`. -/
def reconcileUser (parent : ParentRead) (databases : String → Except String DatabaseView)
    (object : DeclaredObject) : List DeclarationWrite :=
  if object.deleting = false ∧ object.finalizer = false then [.addFinalizer]
  else if object.deleting then reconcileDeclarationDeletion "user" parent object
  else match membershipBlocked databases object object.memberOf with
  | some (reason, message) => [declarationPending object reason message]
  | none => issueDeclaration object "UserReconciled"
      "The login role and credentials are applied" "Reconciling"
      "Waiting for a site agent to reconcile the login role"

def reconcileDeclared (parent : ParentRead) (databases : String → Except String DatabaseView)
    (object : DeclaredObject) : List DeclarationWrite :=
  match object.kind with
  | .database => reconcileDatabase parent object
  | .user => reconcileUser parent databases object

/-! ## Directive results -/

def applyDirectiveStatus (deleting : Bool) (generation : Nat) (reported : List Condition)
    (status : DeclaredStatus) : DeclaredStatus :=
  { status with
    conditions := reported.foldl (fun cs c =>
      Condition.set cs { c with observedGeneration := generation }) status.conditions
    phase := if directiveSucceeded reported = false then "Failed"
      else if deleting then "Deleted" else "Ready" }

/-- The loop of `recordDatabaseDirectiveResult` over the reported conditions; `parseNames`
decodes a JSON array of names. -/
def recordDatabaseEvidence (parseNames : String → Option (List String)) (status : DeclaredStatus)
    (c : Condition) : DeclaredStatus :=
  if c.status ≠ .true then status
  else match c.type with
  | "ObservedSize" =>
    match Text.parseInt c.message with
    | some size => if size > 0 then { status with observedSize := size } else status
    | none => status
  | "TDEVerified" => { status with tdeVerified := true }
  | "OrphanedDeclarations" =>
    match parseNames c.message with
    | some names => { status with orphanedDeclarations := names }
    | none => status
  | _ => status

/-- The loop of `recordUserDirectiveResult`. -/
def recordUserEvidence (status : DeclaredStatus) (c : Condition) : DeclaredStatus :=
  if c.type = "CredentialVersion" ∧ c.status = .true then
    match Text.parseInt c.message with
    | some version => { status with credentialVersion := version }
    | none => status
  else status

/-- `recordDatabaseDirectiveResult` and `recordUserDirectiveResult`. -/
def recordDeclaredResult (parseNames : String → Option (List String)) (siteName : String)
    (deleting : Bool) (result : PlanResult) (object : DeclaredObject) : DeclaredObject :=
  let applied := applyDirectiveStatus deleting object.generation result.conditions object.status
  let marked := { applied with
    operation := some (directiveResultOperation result applied.phase siteName) }
  let evidenced := match object.kind with
    | .database => result.conditions.foldl (recordDatabaseEvidence parseNames) marked
    | .user => result.conditions.foldl recordUserEvidence marked
  { object with status := { evidenced with observedGeneration := object.generation } }

end Mspsql
