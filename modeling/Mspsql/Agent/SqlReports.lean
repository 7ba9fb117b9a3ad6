import Mspsql.Agent.SqlDirectives

/-!
# What a reported success of a SQL directive says

The script of a SQL directive first asks the server whether it is in recovery and, if it is,
quits.  psql then exits with status 0, so the Job is complete and the directive is reported
as successful although nothing was executed (`standby_unsound`).  Only the creation of a
database is safe: its audit is written after everything else.
-/

namespace Mspsql

open List

open Psql (Command)

variable {s : Psql.Session} {server : Postgres} {request : SqlRequest}

/-! ## Sessions -/

/-- SQL only, apart from variables. -/
def onlySQL : Command → Bool
  | .statement _ | .gexec _ | .getenv _ _ => true
  | _ => false

theorem plain_of_onlySQL {c : Command} (h : onlySQL c = true) : c.plain = true := by
  cases c <;> first | rfl | cases h

theorem sql_of_onlySQL {c : Command} (h : onlySQL c = true) (hremote : c.remote = true) :
    c.sql?.isSome = true := by
  cases c <;> first | exact hremote | cases h

theorem onlySQL_appendSetting (target setting : String) (duration : Option Time) :
    ∀ c ∈ appendSetting target setting duration, onlySQL c = true := by
  cases duration with
  | none => exact nofun
  | some d =>
    intro c hc
    cases mem_singleton.mp hc
    rfl

theorem onlySQL_appendQuotas (target : String) (quotas : RoleQuotas) :
    ∀ c ∈ appendQuotas target quotas, onlySQL c = true := by
  have hlimit : ∀ (limit : Option Int) (text : Int → String),
      ∀ c ∈ (limit.map fun l => Command.statement (text l)).toList, onlySQL c = true := by
    intro limit text c hc
    obtain ⟨l, -, rfl⟩ := Option.map_eq_some_iff.mp (Option.mem_toList.mp hc)
    rfl
  simp only [appendQuotas, forall_mem_append]
  exact ⟨⟨⟨⟨hlimit _ _, onlySQL_appendSetting _ _ _⟩, onlySQL_appendSetting _ _ _⟩,
    onlySQL_appendSetting _ _ _⟩, hlimit _ _⟩

theorem onlySQL_userSQL (spec : PostgresUserSpec) : ∀ c ∈ userSQL spec, onlySQL c = true := by
  simp only [userSQL, forall_mem_append, forall_mem_cons, forall_mem_map]
  refine ⟨⟨⟨⟨rfl, rfl, rfl, rfl, ?_⟩, fun _ _ => rfl⟩, onlySQL_appendQuotas _ _⟩, rfl, ?_⟩ <;>
    exact nofun

theorem declareDatabase_plain (spec : PostgresDatabaseSpec) (owner : String) :
    ∀ c ∈ declareDatabase spec owner, c.plain = true ∧ ∀ file, c ≠ .output file := by
  have hsql : ∀ c : Command, onlySQL c = true → c.plain = true ∧ ∀ file, c ≠ .output file := by
    intro c hc
    refine ⟨plain_of_onlySQL hc, fun file heq => ?_⟩
    rw [heq] at hc
    cases hc
  have hgrants : ∀ (schema role : String) (profile : RoleProfile),
      ∀ c ∈ profileGrants schema role profile, onlySQL c = true := by
    intro schema role profile
    cases profile <;> simp [profileGrants, onlySQL]
  have hdefaults : ∀ (schema : String) (role : DatabaseRole),
      ∀ c ∈ defaultPrivileges schema owner role, onlySQL c = true := by
    intro schema role c hc
    unfold defaultPrivileges at hc
    split at hc
    · cases mem_singleton.mp hc
      rfl
    · cases hc
  have hroles : ∀ (schemas : List String) (role : DatabaseRole),
      ∀ c ∈ appendDatabaseRoleSQL spec.databaseName schemas owner role, onlySQL c = true := by
    intro schemas role
    refine forall_mem_cons.mpr ⟨rfl, fun c hc => ?_⟩
    obtain ⟨schema, -, hc⟩ := mem_flatMap.mp hc
    rcases mem_append.mp hc with hc | hc
    · exact hgrants _ _ _ c hc
    · exact hdefaults _ _ c hc
  have howner : ∀ c ∈ (if owner ≠ "" then [Command.statement ("ALTER DATABASE " ++
      quoteIdentifier spec.databaseName ++ " OWNER TO " ++ quoteIdentifier owner)] else []),
      onlySQL c = true := by
    intro c hc
    split at hc
    · cases mem_singleton.mp hc
      rfl
    · cases hc
  simp only [declareDatabase, forall_mem_append, forall_mem_cons, forall_mem_map]
  refine ⟨⟨⟨⟨⟨⟨⟨hsql _ rfl, hsql _ rfl, ?_⟩, fun _ _ => hsql _ rfl⟩, ?_⟩, ?_⟩, ?_⟩, ?_⟩, ?_⟩
  · exact nofun
  · exact fun c hc => hsql c (howner c hc)
  · exact fun c hc => hsql c (onlySQL_appendQuotas _ _ c hc)
  · exact ⟨⟨rfl, fun file => nofun⟩, nofun⟩
  · exact fun _ _ => hsql _ rfl
  intro c hc
  obtain ⟨role, -, hc⟩ := mem_flatMap.mp hc
  exact hsql c (hroles _ role c hc)

namespace Postgres

/-- A session that is still running, outside of branches and with its output at the
terminal. -/
structure Fresh (s : Psql.Session) : Prop where
  status : s.status = none
  branches : s.branches = []
  file : s.file = none
  written : s.written = []

theorem Fresh.active (h : Fresh s) : s.active = true := by
  unfold Psql.Session.active
  rw [h.branches]
  rfl

theorem guard_cases (server : Psql.Server) (h : Fresh s) (text name : String) :
    let t := Psql.Session.run server s (Psql.guard text name)
    (t.status = some 3 ∧ t.written = [] ∧ t.executed = s.executed) ∨
      (server.answer text = false ∧ t.status = some 0 ∧ t.written = []) ∨
      (server.answer text = true ∧ Fresh t ∧ t.executed = s.executed ++ [text]) := by
  have hrecord : (s.record text).written = [] := by
    unfold Psql.Session.record
    rw [h.file, h.written]
    rfl
  cases Psql.Session.run_guard server text name h.status h.active with
  | refused status executed written => exact .inl ⟨status, written.trans h.written, executed⟩
  | ended answer status _ written => exact .inr (.inl ⟨answer, status, written.trans hrecord⟩)
  | passed answer status branches executed written file =>
    exact .inr (.inr ⟨answer, ⟨status, branches.trans h.branches, file.trans h.file,
      written.trans hrecord⟩, executed⟩)

theorem fresh_start : Fresh {} := ⟨rfl, rfl, rfl, rfl⟩

theorem psql_eq (server : Postgres) (sql : List Command) :
    server.psql sql = Psql.Session.run server.toServer
      (Psql.Session.run server.toServer {} (Psql.guard recoveryQuery "is_primary")) sql :=
  Psql.Session.run_append ..

/-- On a server that is not in recovery, SQL alone is executed completely exactly when psql
exits with status 0. -/
theorem executed_iff {sql : List Command} (hrecovery : server.inRecovery = false)
    (hsql : ∀ c ∈ sql, onlySQL c = true) :
    (server.psql sql).executed = Psql.statements (jobScript sql) ↔ (server.psql sql).exit = 0 := by
  have hall : Psql.statements (jobScript sql) = recoveryQuery :: Psql.statements sql := rfl
  rw [psql_eq, hall]
  rcases guard_cases server.toServer fresh_start recoveryQuery "is_primary" with
    ⟨hstatus, -, hexecuted⟩ | ⟨hanswer, -⟩ | ⟨-, hfresh, hexecuted⟩
  · rw [Psql.Session.run_of_ended _ (by rw [hstatus]; rfl), hexecuted]
    unfold Psql.Session.exit
    rw [hstatus]
    exact ⟨nofun, nofun⟩
  · rw [server.answersRecovery, hrecovery] at hanswer
    cases hanswer
  have hran := Psql.Session.run_plain server.toServer hfresh.status hfresh.active
    fun c hc => plain_of_onlySQL (hsql c hc)
  unfold Psql.Session.exit
  cases hran with
  | completed hstatus _ hdone =>
    rw [hstatus, hdone, hexecuted]
    exact ⟨fun _ => rfl, fun _ => rfl⟩
  | failed hstatus hshort =>
    have hlength := hshort fun c hc => sql_of_onlySQL (hsql c hc)
    rw [hexecuted] at hlength
    rw [hstatus]
    refine ⟨fun heq => ?_, nofun⟩
    rw [heq] at hlength
    simp only [nil_append, length_cons, length_nil] at hlength
    omega

theorem audit_cases (server : Psql.Server) (h : Fresh s) (tdeEnabled : Bool) :
    let t := Psql.Session.run server s (auditDatabase tdeEnabled)
    t.written = [] ∨ t.executed = s.executed ++ [auditQuery tdeEnabled] := by
  intro t
  by_cases hrefused : server.refuses (.statement (auditQuery tdeEnabled)) = true
  · simp [t, auditDatabase, Psql.Session.run, Psql.Session.exec, Psql.Session.perform,
      h.status, h.branches, h.written, Psql.Session.active, hrefused, Command.remote, Command.sql?]
  · simp [t, auditDatabase, Psql.Session.run, Psql.Session.exec, Psql.Session.perform,
      Psql.Session.record, h.status, h.branches, Psql.Session.active, hrefused,
      Command.remote, Command.sql?]

/-- An audit that was written comes after all the other SQL, on a server that is not in
recovery. -/
theorem executed_of_written {spec : PostgresDatabaseSpec} {owner : String} {tdeEnabled : Bool}
    {entry : String × String}
    (h : entry ∈ (server.psql (createDatabaseSQL spec owner tdeEnabled)).written) :
    server.inRecovery = false ∧
      (server.psql (createDatabaseSQL spec owner tdeEnabled)).executed =
        Psql.statements (jobScript (createDatabaseSQL spec owner tdeEnabled)) := by
  -- once the session has ended without writing, nothing more is written
  have hended : ∀ {t : Psql.Session} {script : List Command}, t.status.isSome = true →
      t.written = [] → entry ∉ (Psql.Session.run server.toServer t script).written := by
    intro t script hstatus hwritten
    rw [Psql.Session.run_of_ended _ hstatus, hwritten]
    exact not_mem_nil
  rw [psql_eq] at h ⊢
  rcases guard_cases server.toServer fresh_start recoveryQuery "is_primary" with
    ⟨hstatus, hwritten, -⟩ | ⟨-, hstatus, hwritten⟩ | ⟨hanswer, hfresh, hexecuted⟩
  · exact absurd h (hended (by rw [hstatus]; rfl) hwritten)
  · exact absurd h (hended (by rw [hstatus]; rfl) hwritten)
  generalize Psql.Session.run server.toServer {} (Psql.guard recoveryQuery "is_primary") = t₁
    at h hfresh hexecuted
  rw [server.answersRecovery, Bool.not_eq_true'] at hanswer
  refine ⟨hanswer, ?_⟩
  unfold createDatabaseSQL at h ⊢
  rw [append_assoc, Psql.Session.run_append] at h ⊢
  obtain ⟨hwritten, hfile⟩ := Psql.Session.run_silent server.toServer hfresh.status hfresh.active
    hfresh.file (fun c hc => (declareDatabase_plain spec owner c hc).1)
    (fun c hc => (declareDatabase_plain spec owner c hc).2)
  have hran := Psql.Session.run_plain server.toServer hfresh.status hfresh.active
    fun c hc => (declareDatabase_plain spec owner c hc).1
  generalize Psql.Session.run server.toServer t₁ (declareDatabase spec owner) = t₂
    at h hwritten hfile hran
  cases hran with
  | failed hstatus _ =>
    exact absurd h (hended (by rw [hstatus]; rfl) (hwritten.trans hfresh.written))
  | completed hstatus hbranches hdeclared =>
    have hfresh₂ : Fresh t₂ :=
      ⟨hstatus, hbranches.trans hfresh.branches, hfile, hwritten.trans hfresh.written⟩
    have hsofar : t₂.executed = recoveryQuery :: Psql.statements (declareDatabase spec owner) := by
      rw [hdeclared, hexecuted]
      rfl
    cases tdeEnabled with
    | false =>
      show (Psql.Session.run server.toServer t₂ (auditDatabase false)).executed = _
      rcases audit_cases server.toServer hfresh₂ false with hnone | hall
      · exact absurd h (hnone ▸ not_mem_nil)
      rw [hall, hsofar]
      unfold jobScript Psql.statements
      rw [filterMap_append, filterMap_append]
      rfl
    | true =>
      rw [Psql.Session.run_append] at h
      rcases guard_cases server.toServer hfresh₂ tdeQuery "tde_verified" with
        ⟨hstop, hnone, -⟩ | ⟨-, hstop, hnone⟩ | ⟨-, hfresh₃, htde⟩
      · exact absurd h (hended (by rw [if_pos rfl, hstop]; rfl) hnone)
      · exact absurd h (hended (by rw [if_pos rfl, hstop]; rfl) hnone)
      rcases audit_cases server.toServer hfresh₃ true with hnone | hall
      · exact absurd h (hnone ▸ not_mem_nil)
      refine Eq.trans hall ?_
      rw [htde, hsofar]
      unfold jobScript Psql.statements
      rw [filterMap_append, filterMap_append, append_assoc]
      rfl

end Postgres

/-! ## Soundness -/

theorem eq_of_startedPods {sql : List Command} {n : Nat} {pods : List Postgres} {other : Postgres}
    (h : (startedPods sql n pods).find? (fun p => (p.psql sql).exit = 0) = some server)
    (hmem : other ∈ startedPods sql n pods) (hexit : (other.psql sql).exit = 0) :
    other = server := by
  induction n generalizing pods with
  | zero => cases hmem
  | succ n ih =>
    cases pods with
    | nil => cases hmem
    | cons first rest =>
      rw [startedPods] at h hmem
      by_cases hfirst : (first.psql sql).exit = 0
      · rw [if_pos hfirst] at h hmem
        have hfound : first = server := by simpa [hfirst] using h
        exact (mem_singleton.mp hmem).trans hfound
      · rw [if_neg hfirst] at h hmem
        rcases mem_cons.mp hmem with rfl | hmem
        · exact absurd hexit hfirst
        · refine ih ?_ hmem
          simpa [hfirst] using h

namespace ExecutorReads

variable {reads : ExecutorReads} {payload : DirectivePayload}

theorem failed_reported (conditions : List TimedCondition) (error : String) :
    directiveSucceeded ((reads.failed conditions error).reported.map (·.toCondition)) = false := by
  simp [failed, Execution.reported, directiveSucceeded]

/-- What is asked for: the creation of a database, or SQL whose Job alone decides. -/
inductive RequestSpec (reads : ExecutorReads) (payload : DirectivePayload) : SqlRequest → Prop
  | created (spec : PostgresDatabaseSpec) (owner : String) (type : payload.type ≠ "User")
      (kept : payload.deleting = false) :
      RequestSpec reads payload {
        sql := createDatabaseSQL spec owner
        report := reads.auditReport spec (createDatabaseSQL spec owner) }
  | direct {request : SqlRequest} (either : payload.type = "User" ∨ payload.deleting = true)
      (sql : ∀ tde, ∀ c ∈ request.sql tde, onlySQL c = true)
      (report : ∀ job,
        directiveSucceeded ((request.report job).reported.map (·.toCondition)) = true) :
      RequestSpec reads payload request

theorem databaseRequest_spec (htype : payload.type ≠ "User")
    (h : reads.databaseRequest payload = .ok request) : RequestSpec reads payload request := by
  unfold databaseRequest at h
  cases hspec : reads.decodeDatabase payload.spec with
  | error error => rw [hspec] at h; cases h
  | ok spec =>
    rw [hspec] at h
    cases hdel : payload.deleting with
    | true =>
      rw [hdel] at h
      cases h
      refine .direct (.inr hdel) (fun _ c hc => ?_) fun _ => rfl
      cases mem_singleton.mp hc
      rfl
    | false =>
      rw [hdel] at h
      cases howner : databaseOwner spec.roles "" with
      | error error => simp [Except.mapError, howner, bind, Except.bind] at h
      | ok owner =>
        simp [Except.mapError, howner, bind, Except.bind] at h
        cases h
        exact .created spec owner htype hdel

theorem userRequest_spec (htype : payload.type = "User")
    (h : reads.userRequest payload = .ok request) : RequestSpec reads payload request := by
  unfold userRequest at h
  cases hspec : reads.decodeUser payload.spec with
  | error error => rw [hspec] at h; cases h
  | ok spec =>
    rw [hspec] at h
    cases hdel : payload.deleting with
    | true =>
      rw [hdel] at h
      cases h
      refine .direct (.inl htype) (fun _ c hc => ?_) fun _ => rfl
      cases mem_singleton.mp hc
      rfl
    | false =>
      rw [hdel] at h
      cases hresolve : reads.resolve with
      | none => rw [hresolve] at h; cases h
      | some resolve =>
        rw [hresolve] at h
        cases hcredential : resolve spec.passwordVaultRef with
        | error error => simp [Except.mapError, hcredential, bind, Except.bind] at h
        | ok credential =>
          cases hfield : requireField credential spec.passwordVaultRef.key with
          | error error => simp [Except.mapError, hcredential, hfield, bind, Except.bind] at h
          | ok _ =>
            simp [Except.mapError, hcredential, hfield, bind, Except.bind] at h
            cases h
            exact .direct (.inl htype) (fun _ => onlySQL_userSQL spec) fun _ => rfl

theorem request_spec (h : reads.request payload = .ok request) :
    RequestSpec reads payload request := by
  unfold ExecutorReads.request at h
  split at h
  · rename_i htype
    exact databaseRequest_spec (by rw [htype]; decide) h
  · rename_i htype
    exact userRequest_spec htype h
  · cases h

structure Started (reads : ExecutorReads) (payload : DirectivePayload) (request : SqlRequest)
    (job : SqlJob) : Prop where
  requested : reads.request payload = .ok request
  ensured : ∃ desired, reads.acceptedPlan payload = .ok desired ∧
    reads.ensureJob desired request.password = .ok job

def Executed (reads : ExecutorReads) (payload : DirectivePayload) : Prop :=
  ∃ request job, Started reads payload request job ∧
    ∃ server ∈ job.started request.sql, server.inRecovery = false ∧
      (server.psql (request.sql job.tdeEnabled)).executed =
        Psql.statements (jobScript (request.sql job.tdeEnabled))

def Misled (reads : ExecutorReads) (payload : DirectivePayload) : Prop :=
  (payload.type = "User" ∨ payload.deleting = true) ∧ reads.wait = none ∧
    ∃ request job, Started reads payload request job ∧
      ∃ server, job.completedBy request.sql = some server ∧ server.inRecovery = true

theorem Started.unique {request' : SqlRequest} {job job' : SqlJob}
    (h : Started reads payload request job) (h' : Started reads payload request' job') :
    request' = request ∧ job' = job := by
  obtain ⟨desired, hplan, hjob⟩ := h.ensured
  obtain ⟨desired', hplan', hjob'⟩ := h'.ensured
  obtain rfl : request' = request := Except.ok.inj (h'.requested.symm.trans h.requested)
  obtain rfl : desired' = desired := Except.ok.inj (hplan'.symm.trans hplan)
  exact ⟨rfl, Except.ok.inj (hjob'.symm.trans hjob)⟩

theorem reportsSuccess_iff (htype : payload.type ≠ "Backup") :
    reads.reportsSuccess payload = true ↔
      reads.wait = none ∧ ∃ request job, Started reads payload request job ∧
        (job.completedBy request.sql).isSome = true ∧
        directiveSucceeded ((request.report job).reported.map (·.toCondition)) = true := by
  have hfailed : ∀ (conditions : List TimedCondition) (error : String),
      directiveSucceeded ((reads.failed conditions error).reported.map (·.toCondition)) ≠ true := by
    intro conditions error
    rw [failed_reported]
    exact Bool.false_ne_true
  unfold reportsSuccess execute
  cases hplan : reads.acceptedPlan payload with
  | error error =>
    refine ⟨fun h => absurd h (hfailed _ _), fun ⟨_, request, job, hstarted, _⟩ => ?_⟩
    obtain ⟨desired, hdesired, -⟩ := hstarted.ensured
    cases hplan.symm.trans hdesired
  | ok desired =>
    dsimp only
    rw [if_neg htype]
    cases hrequest : reads.request payload with
    | error error =>
      refine ⟨fun h => absurd h (hfailed _ _), fun ⟨_, request, job, hstarted, _⟩ => ?_⟩
      cases hrequest.symm.trans hstarted.requested
    | ok request =>
      unfold runRequest
      dsimp only
      cases hjob : reads.ensureJob desired request.password with
      | error error =>
        refine ⟨fun h => absurd h (hfailed _ _), fun ⟨_, request', job, hstarted, _⟩ => ?_⟩
        obtain ⟨desired', hdesired, hjob'⟩ := hstarted.ensured
        obtain rfl : request' = request :=
          Except.ok.inj (hstarted.requested.symm.trans hrequest)
        obtain rfl : desired' = desired := Except.ok.inj (hdesired.symm.trans hplan)
        cases hjob.symm.trans hjob'
      | ok job =>
        have hstarted : Started reads payload request job := ⟨hrequest, desired, hplan, hjob⟩
        dsimp only
        unfold waitForJob
        cases hwait : reads.wait with
        | some error => exact ⟨fun h => absurd h (hfailed _ _), fun ⟨h, _⟩ => nomatch h⟩
        | none =>
          cases hcompleted : job.completedBy request.sql with
          | none =>
            refine ⟨fun h => absurd h (hfailed _ _),
              fun ⟨_, request', job', hother, hsome, _⟩ => ?_⟩
            obtain ⟨rfl, rfl⟩ := hstarted.unique hother
            rw [hcompleted] at hsome
            cases hsome
          | some server =>
            refine ⟨fun h => ⟨rfl, request, job, hstarted, by rw [hcompleted]; rfl, h⟩,
              fun ⟨_, request', job', hother, _, h⟩ => ?_⟩
            obtain ⟨rfl, rfl⟩ := hstarted.unique hother
            exact h

theorem audited_of_success {spec : PostgresDatabaseSpec} {sql : Bool → List Command}
    {job : SqlJob}
    (h : directiveSucceeded ((reads.auditReport spec sql job).reported.map (·.toCondition)) =
      true) :
    ∃ server ∈ job.started sql, (terminationLog, auditQuery job.tdeEnabled) ∈
      (server.psql (sql job.tdeEnabled)).written := by
  unfold auditReport at h
  cases hmetadata : reads.databaseMetadata sql job with
  | error error =>
    rw [hmetadata] at h
    cases h
  | ok metadata =>
    unfold databaseMetadata at hmetadata
    split at hmetadata
    · cases hmetadata
    split at hmetadata
    · cases hmetadata
    rename_i server hserver
    split at hmetadata
    · cases hmetadata
    · rename_i hwritten
      exact ⟨server, mem_of_getElem? hserver, not_not.mp hwritten⟩

theorem direct_of_either (h : payload.type = "User" ∨ payload.deleting = true)
    (hrequest : reads.request payload = .ok request) :
    (∀ tde, ∀ c ∈ request.sql tde, onlySQL c = true) ∧
      ∀ job, directiveSucceeded ((request.report job).reported.map (·.toCondition)) = true := by
  cases request_spec hrequest with
  | created _ _ hdatabase hkept =>
    rcases h with huser | hdel
    · exact absurd huser hdatabase
    · rw [hkept] at hdel
      cases hdel
  | direct _ hsql hreport => exact ⟨hsql, hreport⟩

theorem Misled.reported (h : Misled reads payload) (htype : payload.type ≠ "Backup") :
    reads.reportsSuccess payload = true := by
  obtain ⟨either, hwait, request, job, hstarted, server, hcompleted, -⟩ := h
  refine (reportsSuccess_iff htype).mpr ⟨hwait, request, job, hstarted, ?_, ?_⟩
  · rw [hcompleted]
    rfl
  · exact (direct_of_either either hstarted.requested).2 job

theorem Misled.not_executed (h : Misled reads payload) : ¬ Executed reads payload := by
  rintro ⟨request', job', hother, pod, hpod, hprimary, hall⟩
  obtain ⟨either, -, request, job, hstarted, server, hcompleted, hrecovery⟩ := h
  obtain ⟨rfl, rfl⟩ := hstarted.unique hother
  -- a pod that has executed everything has exit status 0, so it is the one in recovery
  have hsql := (direct_of_either either hstarted.requested).1 job'.tdeEnabled
  have hexit := (Postgres.executed_iff hprimary hsql).mp hall
  obtain rfl := eq_of_startedPods hcompleted hpod hexit
  rw [hrecovery] at hprimary
  cases hprimary

/-- A success is reported only when all SQL was executed on a server that is not in recovery,
exactly when no server in recovery completes the Job of a user directive or a deletion. -/
theorem soundReport_iff (htype : payload.type ≠ "Backup") :
    (reads.reportsSuccess payload = true → Executed reads payload) ↔ ¬ Misled reads payload := by
  constructor
  · exact fun hsound hmisled => hmisled.not_executed (hsound (hmisled.reported htype))
  intro hmisled hsuccess
  obtain ⟨hwait, request, job, hstarted, hsome, hreport⟩ :=
    (reportsSuccess_iff htype).mp hsuccess
  cases request_spec hstarted.requested with
  | created spec owner _ _ =>
    obtain ⟨server, hserver, hwritten⟩ := audited_of_success hreport
    obtain ⟨hprimary, hall⟩ := Postgres.executed_of_written hwritten
    exact ⟨_, job, hstarted, server, hserver, hprimary, hall⟩
  | direct either hsql _ =>
    obtain ⟨server, hserver⟩ := Option.isSome_iff_exists.mp hsome
    have hprimary : server.inRecovery = false := by
      by_contra hrecovery
      exact hmisled ⟨either, hwait, request, job, hstarted, server, hserver,
        Bool.not_eq_false _ ▸ hrecovery⟩
    have hexit : (server.psql (request.sql job.tdeEnabled)).exit = 0 := by
      simpa using find?_some hserver
    exact ⟨request, job, hstarted, server, mem_of_find?_eq_some hserver, hprimary,
      (Postgres.executed_iff hprimary (hsql job.tdeEnabled)).mpr hexit⟩

/-! ## A role that is dropped on a standby -/

def serverIn (recovery : Bool) : Postgres where
  refuses _ := false
  answer text := if text = recoveryQuery then !recovery else true
  inRecovery := recovery
  answersRecovery := if_pos rfl

open Sample

def acceptedBy (i : MultiSitePostgres) (site : PostgresSiteSpec) : SitePlan :=
  { deletionPlan i 1 (registration "vic") site with
    memberAddresses := SortedMap.ofList [(vic0, "10.1.0.2")] }

def dropReads (server : Postgres) : ExecutorReads where
  plan := .ok (acceptedBy ledger vic)
  decodeDatabase _ := .error "unexpected end of JSON input"
  decodeUser _ := .ok { roleName := "app" }
  pods := [server]

def dropPayload : DirectivePayload where
  instanceUID := "ledger-uid"
  operationUID := "app-uid-2-true"
  objectUID := "app-uid"
  type := "User"
  primary := vic0
  deleting := true
  spec := .declaration "app"

def dropRequest : SqlRequest where
  sql _ := dropUserSQL { roleName := "app" }
  report _ := (dropReads (serverIn true)).finished (dropReads (serverIn true)).sqlApplied

theorem drop_started (server : Postgres) :
    Started (dropReads server) dropPayload dropRequest ⟨false, [server]⟩ :=
  ⟨rfl, acceptedBy ledger vic, rfl, rfl⟩

theorem drop_completed (recovery : Bool) :
    SqlJob.completedBy ⟨false, [serverIn recovery]⟩ dropRequest.sql = some (serverIn recovery) := by
  cases recovery <;> rfl

/-- The primary has become a standby since the directive was targeted. -/
theorem standby_unsound :
    (dropReads (serverIn true)).reportsSuccess dropPayload = true ∧
      ¬ Executed (dropReads (serverIn true)) dropPayload := by
  have hmisled : Misled (dropReads (serverIn true)) dropPayload :=
    ⟨.inl rfl, rfl, dropRequest, _, drop_started _, serverIn true, drop_completed true, rfl⟩
  exact ⟨hmisled.reported (by decide), hmisled.not_executed⟩

theorem primary_sound :
    (dropReads (serverIn false)).reportsSuccess dropPayload = true ∧
      Executed (dropReads (serverIn false)) dropPayload := by
  have hsuccess : (dropReads (serverIn false)).reportsSuccess dropPayload = true :=
    (reportsSuccess_iff (by decide)).mpr ⟨rfl, dropRequest, _, drop_started _,
      by rw [drop_completed]; rfl, rfl⟩
  refine ⟨hsuccess, (soundReport_iff (by decide)).mpr ?_ hsuccess⟩
  rintro ⟨-, -, request, job, hstarted, server, hcompleted, hrecovery⟩
  obtain ⟨rfl, rfl⟩ := (drop_started (serverIn false)).unique hstarted
  obtain rfl := Option.some.inj ((drop_completed false).symm.trans hcompleted)
  cases hrecovery

end ExecutorReads

end Mspsql
