import Mspsql.Agent.DirectiveRecord
import Mspsql.Control.Delivery
import Mspsql.Lib.Psql

/-!
# SQL directives

A database or user directive becomes a psql script that a Job runs against the primary the
directive names.  The executor waits for the Job and reports its success; for a database that
is created it also reads back the audit that the script writes at its end.

The statements carry the text that the agent generates.  JSON, Vault and the calls of the API
server are parameters, and so are the servers that the pods of the Job reach: a server keeps
its role while one pod runs.
-/

namespace Mspsql

open Psql (Command)

/-! ## Specifications -/

inductive RoleProfile where
  | owner
  | readWrite
  | readOnly
deriving DecidableEq, Repr

structure DatabaseRole where
  name : String
  profile : RoleProfile
deriving DecidableEq, Repr

structure RoleQuotas where
  connectionLimit : Option Int := none
  statementTimeout : Option Time := none
  lockTimeout : Option Time := none
  idleInTransactionSessionTimeout : Option Time := none
  /-- In bytes. -/
  tempFileLimit : Option Int := none
deriving DecidableEq, Repr

structure PostgresDatabaseSpec where
  databaseName : String
  schemas : List String := []
  roles : List DatabaseRole := []
  quotas : RoleQuotas := {}
deriving DecidableEq, Repr

structure PostgresUserSpec where
  roleName : String
  memberOf : List Membership := []
  passwordVaultRef : VaultSecretReference := {}
  quotas : RoleQuotas := {}
deriving DecidableEq, Repr

/-! ## Scripts -/

/-- A text with every `mark` doubled, between two of them. -/
def quotedWith (mark : Char) (value : String) : String :=
  String.ofList (mark :: value.toList.flatMap (fun c => if c = mark then [c, c] else [c]) ++ [mark])

def quotationMark : Char := Char.ofNat 34

def apostrophe : Char := Char.ofNat 39

def quoteIdentifier (value : String) : String := quotedWith quotationMark value

def quoteLiteral (value : String) : String := quotedWith apostrophe value

/-- The result of a sum of two 64-bit integers. -/
def wrap64 (value : Int) : Int := value.bmod (2 ^ 64)

/-- `Duration.Milliseconds`. -/
def milliseconds (duration : Duration) : Int := duration.tdiv 1000000

def kilobytes (limit : Int) : Int := (wrap64 (limit + 1023)).tdiv 1024

/-- `appendDatabaseSetting` and `appendRoleSetting`; `target` is what is altered. -/
def appendSetting (target setting : String) : Option Duration → List Command
  | none => []
  | some duration => [.statement ("ALTER " ++ target ++ " SET " ++ setting ++ " = " ++
      quoteLiteral (toString (milliseconds duration) ++ "ms"))]

def appendQuotas (target : String) (quotas : RoleQuotas) : List Command :=
  (quotas.connectionLimit.map fun limit =>
      Command.statement ("ALTER " ++ target ++ " CONNECTION LIMIT " ++ toString limit)).toList ++
    appendSetting target "statement_timeout" quotas.statementTimeout ++
    appendSetting target "lock_timeout" quotas.lockTimeout ++
    appendSetting target "idle_in_transaction_session_timeout"
      quotas.idleInTransactionSessionTimeout ++
    (quotas.tempFileLimit.map fun limit =>
      Command.statement ("ALTER " ++ target ++ " SET temp_file_limit = " ++
        quoteLiteral (toString (kilobytes limit) ++ "kB"))).toList

def createUnlessExists (statement catalog column name : String) : Command :=
  .gexec ("SELECT format('" ++ statement ++ "', " ++ quoteLiteral name ++
    ") WHERE NOT EXISTS (SELECT FROM " ++ catalog ++ " WHERE " ++ column ++ " = " ++
    quoteLiteral name ++ ")")

def profileGrants (quotedSchema quotedRole : String) : RoleProfile → List Command
  | .owner => [.statement ("GRANT ALL ON SCHEMA " ++ quotedSchema ++ " TO " ++ quotedRole)]
  | .readWrite =>
    [.statement ("GRANT USAGE, CREATE ON SCHEMA " ++ quotedSchema ++ " TO " ++ quotedRole),
      .statement ("GRANT SELECT, INSERT, UPDATE, DELETE ON ALL TABLES IN SCHEMA " ++
        quotedSchema ++ " TO " ++ quotedRole),
      .statement ("GRANT USAGE, SELECT, UPDATE ON ALL SEQUENCES IN SCHEMA " ++
        quotedSchema ++ " TO " ++ quotedRole)]
  | .readOnly =>
    [.statement ("GRANT USAGE ON SCHEMA " ++ quotedSchema ++ " TO " ++ quotedRole),
      .statement ("GRANT SELECT ON ALL TABLES IN SCHEMA " ++ quotedSchema ++ " TO " ++ quotedRole),
      .statement ("GRANT SELECT ON ALL SEQUENCES IN SCHEMA " ++ quotedSchema ++ " TO " ++
        quotedRole)]

def defaultPrivileges (quotedSchema owner : String) (role : DatabaseRole) : List Command :=
  if owner ≠ "" ∧ role.profile ≠ .owner then
    [.statement ("ALTER DEFAULT PRIVILEGES FOR ROLE " ++ quoteIdentifier owner ++ " IN SCHEMA " ++
      quotedSchema ++ " GRANT " ++
      (if role.profile = .readWrite then "SELECT, INSERT, UPDATE, DELETE" else "SELECT") ++
      " ON TABLES TO " ++ quoteIdentifier role.name)]
  else []

def appendDatabaseRoleSQL (database : String) (schemas : List String) (owner : String)
    (role : DatabaseRole) : List Command :=
  .statement ("GRANT CONNECT ON DATABASE " ++ quoteIdentifier database ++ " TO " ++
      quoteIdentifier role.name) ::
    schemas.flatMap fun schema =>
      profileGrants (quoteIdentifier schema) (quoteIdentifier role.name) role.profile ++
        defaultPrivileges (quoteIdentifier schema) owner role

def databaseOwner : List DatabaseRole → String → Except String String
  | [], owner => .ok owner
  | role :: rest, owner =>
    if role.profile = .owner then
      if owner ≠ "" then .error "database has multiple Owner roles"
      else databaseOwner rest role.name
    else databaseOwner rest owner

def tdeQuery : String :=
  "SELECT count(*) = 0 AS tde_verified
FROM pg_class c
JOIN pg_namespace n ON n.oid = c.relnamespace
JOIN pg_am a ON a.oid = c.relam
WHERE c.relkind IN ('r','m')
  AND n.nspname NOT IN ('pg_catalog','information_schema')
  AND n.nspname !~ '^pg_toast'
  AND a.amname <> 'tde_heap'"

def auditQuery (tdeEnabled : Bool) : String :=
  "SELECT json_build_object(
  'observedSizeBytes', pg_database_size(current_database()),
  'tdeVerified', " ++ toString tdeEnabled ++ "
)"

def terminationLog : String := "/dev/termination-log"

/-- What is declared, up to the checks at the end. -/
def declareDatabase (spec : PostgresDatabaseSpec) (owner : String) : List Command :=
  let database := quoteIdentifier spec.databaseName
  let schemas := Text.sortText spec.schemas
  [.statement ("SELECT pg_advisory_lock(hashtextextended(" ++
        quoteLiteral ("mspsql/database/" ++ spec.databaseName) ++ ", 0))"),
      createUnlessExists "CREATE DATABASE %I TEMPLATE template1" "pg_database" "datname"
        spec.databaseName] ++
    spec.roles.map (fun role =>
      createUnlessExists "CREATE ROLE %I NOLOGIN" "pg_roles" "rolname" role.name) ++
    (if owner ≠ "" then
      [.statement ("ALTER DATABASE " ++ database ++ " OWNER TO " ++ quoteIdentifier owner)]
    else []) ++
    appendQuotas ("DATABASE " ++ database) spec.quotas ++
    [.connect database] ++
    schemas.map (fun schema =>
      .statement ("CREATE SCHEMA IF NOT EXISTS " ++ quoteIdentifier schema ++ " AUTHORIZATION " ++
        if owner ≠ "" then quoteIdentifier owner else "postgres")) ++
    spec.roles.flatMap (appendDatabaseRoleSQL spec.databaseName schemas owner)

/-- Write the audit of the database where the Job's status shows it. -/
def auditDatabase (tdeEnabled : Bool) : List Command :=
  [.pset "tuples_only" "on", .pset "format" "unaligned", .output (some terminationLog),
    .statement (auditQuery tdeEnabled), .output none]

/-- `databaseSQL` of a database that is not deleted, once its owner is known. -/
def createDatabaseSQL (spec : PostgresDatabaseSpec) (owner : String) (tdeEnabled : Bool) :
    List Command :=
  declareDatabase spec owner ++
    (if tdeEnabled then Psql.guard tdeQuery "tde_verified" else []) ++ auditDatabase tdeEnabled

/-- `databaseSQL` of a database that is deleted. -/
def dropDatabaseSQL (spec : PostgresDatabaseSpec) : List Command :=
  [.statement ("DROP DATABASE IF EXISTS " ++ quoteIdentifier spec.databaseName ++ " WITH (FORCE)")]

def userLock (function : String) (spec : PostgresUserSpec) : Command :=
  .statement ("SELECT " ++ function ++ "(hashtextextended(" ++
    quoteLiteral ("mspsql/user/" ++ spec.roleName) ++ ", 0))")

def userSQL (spec : PostgresUserSpec) : List Command :=
  let role := quoteIdentifier spec.roleName
  [userLock "pg_advisory_lock" spec,
      createUnlessExists "CREATE ROLE %I LOGIN" "pg_roles" "rolname" spec.roleName,
      .getenv "user_password" "USER_PASSWORD",
      .statement ("ALTER ROLE " ++ role ++ " LOGIN PASSWORD :'user_password'")] ++
    spec.memberOf.map (fun membership =>
      .statement ("GRANT " ++ quoteIdentifier membership.role ++ " TO " ++ role)) ++
    appendQuotas ("ROLE " ++ role) spec.quotas ++ [userLock "pg_advisory_unlock" spec]

def dropUserSQL (spec : PostgresUserSpec) : List Command :=
  [.statement ("DROP ROLE IF EXISTS " ++ quoteIdentifier spec.roleName)]

def recoveryQuery : String := "SELECT NOT pg_is_in_recovery() AS is_primary"

/-- The script of `sqlJob`. -/
def jobScript (sql : List Command) : List Command := Psql.guard recoveryQuery "is_primary" ++ sql

/-! ## Jobs -/

/-- The PostgreSQL server that a pod of a Job reaches. -/
structure Postgres extends Psql.Server where
  inRecovery : Bool
  databaseSize : Int := 0
  answersRecovery : answer recoveryQuery = !inRecovery

def Postgres.psql (server : Postgres) (sql : List Command) : Psql.Session :=
  Psql.Session.run server.toServer {} (jobScript sql)

/-- The Job of an operation.  Its SQL follows from the operation and from whether the plan it
was created under has encryption. -/
structure SqlJob where
  tdeEnabled : Bool
  /-- The servers its pods reach, one after the other. -/
  pods : List Postgres

/-- The pods that are started: each when the one before has failed, and four at most. -/
def startedPods (sql : List Command) : Nat → List Postgres → List Postgres
  | 0, _ | _, [] => []
  | n + 1, server :: rest =>
    if (server.psql sql).exit = 0 then [server] else server :: startedPods sql n rest

def SqlJob.started (job : SqlJob) (sql : Bool → List Command) : List Postgres :=
  startedPods (sql job.tdeEnabled) 4 job.pods

def SqlJob.completedBy (job : SqlJob) (sql : Bool → List Command) : Option Postgres :=
  (job.started sql).find? fun server => (server.psql (sql job.tdeEnabled)).exit = 0

/-! ## The executor -/

structure Credential where
  data : StringMap := ∅
  version : Int := 0

/-- `vault.RequireFields` for one field. -/
def requireField (credential : Credential) (field : String) : Except String Unit :=
  if (credential.data.get? field).getD "" = "" then
    .error ("vault secret is missing non-empty field " ++ quote field)
  else .ok ()

structure DatabaseInventory where
  schemas : List String := []
  roles : List String := []

structure ExecutorReads where
  plan : Except String SitePlan
  decodeDatabase : DirectiveSpec → Except String PostgresDatabaseSpec
  decodeUser : DirectiveSpec → Except String PostgresUserSpec
  resolve : Option (VaultSecretReference → Except String Credential) := none
  job : Except String (Option SqlJob) := .ok none
  createSecret : Option String := none
  createJob : Option String := none
  /-- The servers that the pods of a new Job reach. -/
  pods : List Postgres := []
  wait : Option String := none
  /-- The message of the condition of a failed Job. -/
  jobFailure : String := ""
  /-- The first started pod in the list of the Job's pods. -/
  listed : Except String Nat := .ok 0
  inventory : Except String DatabaseInventory := .ok {}
  storeInventory : Option String := none
  encodeNames : List String → String := Text.join ","
  backup : Execution := {}
  now : Time := 0

structure SqlRequest where
  sql : Bool → List Command
  password : Bool := false
  report : SqlJob → Execution

namespace ExecutorReads

variable (reads : ExecutorReads)

def condition (type : String) (status : ConditionStatus) (reason message : String) :
    TimedCondition where
  type := type
  status := status
  reason := reason
  message := message
  lastTransitionTime := reads.now

/-- The conditions of `waitForJob` on a complete Job. -/
def sqlApplied : List TimedCondition :=
  [reads.condition "Succeeded" .true "SQLApplied" "PostgreSQL accepted the idempotent declaration"]

def failed (conditions : List TimedCondition) (error : String) : Execution where
  conditions := conditions
  error := some error
  now := reads.now

def finished (conditions : List TimedCondition) : Execution where
  conditions := conditions
  now := reads.now

def databaseMetadata (sql : Bool → List Command) (job : SqlJob) :
    Except String (List TimedCondition) :=
  match reads.listed with
  | .error error => .error error
  | .ok index =>
    match (job.started sql)[index]? with
    | none => .error "database SQL Job has no terminated audit status"
    | some server =>
      if (terminationLog, auditQuery job.tdeEnabled) ∉
          (server.psql (sql job.tdeEnabled)).written then
        .error "decode database audit metadata: unexpected end of JSON input"
      else if server.databaseSize ≤ 0 then
        .error "database audit metadata has no observed size"
      else .ok [
        reads.condition "ObservedSize" .true "DatabaseAudited" (toString server.databaseSize),
        reads.condition "TDEVerified" (if job.tdeEnabled then .true else .false)
          "DatabaseAudited" "All managed user relations were inspected"]

def removedDeclarations (previous current : DatabaseInventory) : List String :=
  Text.sortText ((previous.schemas.filter (· ∉ current.schemas)).map ("schema:" ++ ·) ++
    (previous.roles.filter (· ∉ current.roles)).map ("role:" ++ ·))

def reconcileDatabaseInventory (spec : PostgresDatabaseSpec) : Except String (List String) :=
  match reads.inventory, reads.storeInventory with
  | .error error, _ | _, some error => .error error
  | .ok previous, none =>
    .ok (removedDeclarations previous ⟨spec.schemas, spec.roles.map (·.name)⟩)

/-- What `executeDatabase` reports of a database that was created. -/
def auditReport (spec : PostgresDatabaseSpec) (sql : Bool → List Command) (job : SqlJob) :
    Execution :=
  match reads.databaseMetadata sql job with
  | .error error => reads.failed reads.sqlApplied error
  | .ok metadata =>
    match reads.reconcileDatabaseInventory spec with
    | .error error => reads.failed (reads.sqlApplied ++ metadata) error
    | .ok orphaned => reads.finished (reads.sqlApplied ++ metadata ++
        [reads.condition "OrphanedDeclarations" .true "RetainedObjectsAudited"
          (reads.encodeNames orphaned)])

/-- `executeDatabase` up to the Job. -/
def databaseRequest (payload : DirectivePayload) : Except String SqlRequest := do
  let spec ← (reads.decodeDatabase payload.spec).mapError ("decode database directive: " ++ ·)
  if payload.deleting then
    return {
      sql := fun _ => dropDatabaseSQL spec
      report := fun _ => reads.finished reads.sqlApplied }
  let owner ← databaseOwner spec.roles ""
  return {
    sql := createDatabaseSQL spec owner
    report := reads.auditReport spec (createDatabaseSQL spec owner) }

/-- What `executeUser` reports of a role that was created. -/
def credentialReport (credential : Credential) : Execution :=
  reads.finished (reads.sqlApplied ++
    [reads.condition "CredentialVersion" .true "VaultVersionApplied" (toString credential.version)])

/-- `executeUser` up to the Job. -/
def userRequest (payload : DirectivePayload) : Except String SqlRequest := do
  let spec ← (reads.decodeUser payload.spec).mapError ("decode user directive: " ++ ·)
  if payload.deleting then
    return { sql := fun _ => dropUserSQL spec, report := fun _ => reads.finished reads.sqlApplied }
  match reads.resolve with
  | none => throw "user directive requires Vault secret resolution"
  | some resolve =>
    let credential ← resolve spec.passwordVaultRef
    (requireField credential spec.passwordVaultRef.key).mapError ("user credential schema: " ++ ·)
    return {
      sql := fun _ => userSQL spec
      password := true
      report := fun _ => reads.credentialReport credential }

def ensureJob (desired : SitePlan) (password : Bool) : Except String SqlJob :=
  match reads.job with
  | .error error => .error error
  | .ok (some job) => .ok job
  | .ok none =>
    match (if password then reads.createSecret else none), reads.createJob with
    | some error, _ | none, some error => .error error
    | none, none => .ok ⟨desired.tde.enabled, reads.pods⟩

def waitForJob (sql : Bool → List Command) (job : SqlJob) : Except String Unit :=
  match reads.wait, job.completedBy sql with
  | some error, _ => .error error
  | none, some _ => .ok ()
  | none, none => .error ("SQL Job failed: " ++ reads.jobFailure)

/-- `runSQLJob` with what follows it. -/
def runRequest (desired : SitePlan) : Except String SqlRequest → Execution
  | .error error => reads.failed [] error
  | .ok request =>
    match reads.ensureJob desired request.password with
    | .error error => reads.failed [] error
    | .ok job =>
      match reads.waitForJob request.sql job with
      | .error error => reads.failed [] error
      | .ok _ => request.report job

def acceptedPlan (payload : DirectivePayload) : Except String SitePlan :=
  match reads.plan with
  | .error error => .error ("load accepted site plan: " ++ error)
  | .ok desired =>
    if payload.primary = "" then .error "directive has no observed primary"
    else if (desired.memberAddresses.get? payload.primary).isNone then
      .error ("primary " ++ quote payload.primary ++ " is not in the accepted site plan")
    else .ok desired

def request (payload : DirectivePayload) : Except String SqlRequest :=
  match payload.type with
  | "Database" => reads.databaseRequest payload
  | "User" => reads.userRequest payload
  | type => .error ("unsupported directive type " ++ quote type)

/-- `Execute`. -/
def execute (payload : DirectivePayload) : Execution :=
  match reads.acceptedPlan payload with
  | .error error => reads.failed [] error
  | .ok desired =>
    if payload.type = "Backup" then reads.backup
    else reads.runRequest desired (reads.request payload)

def reportsSuccess (payload : DirectivePayload) : Bool :=
  directiveSucceeded ((reads.execute payload).reported.map (·.toCondition))

end ExecutorReads

end Mspsql
