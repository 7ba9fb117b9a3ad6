import Mspsql.Control.Delivery
import Mspsql.Hub.DeclarationReady
import Mspsql.Hub.Ownership

/-!
# Retrying the deletion of a declaration

The operation UID of a deletion follows from the object's UID and generation, so it is the
same on every reconcile.  An agent that has failed to execute it keeps the failure for good
and replays it, and the Job of the failed execution is waited for again.  The deletion is
executed once more only at a site that holds neither (`finishable_iff`): when every site that
can become the site of the primary has failed, the object cannot be deleted any more
(`failedOnce_stuck`).

How the parent instance changes and which plans the sites have accepted are parameters.
-/

namespace Mspsql

open List

open Machine (Leads)

/-- What goes on around a declaration. -/
structure Surroundings (σ ε : Type) where
  step : σ → ε → Option σ
  parent : σ → MultiSitePostgres
  /-- The plan a site has accepted. -/
  plan : σ → String → Option SitePlan

structure SiteOutcome where
  registration : String
  operationUID : String
  succeeded : Bool
deriving DecidableEq, Repr

structure SiteDelivery where
  registration : String
  payload : DirectivePayload
deriving DecidableEq, Repr

structure SiteResult where
  registration : String
  result : PlanResult
deriving DecidableEq, Repr

/-- How far an agent comes with a directive. -/
inductive HandleFate where
  | crashed
  | stored
  | sent
deriving DecidableEq, Repr

structure DeletionRun (σ : Type) where
  around : σ
  declaration : DeclarationState
  streams : List SiteStream := []
  inbox : List SiteDelivery := []
  jobs : List SiteOutcome := []
  /-- The terminal records of the agents. -/
  records : List SiteOutcome := []
  results : List SiteResult := []
  /-- Every deletion whose SQL was executed. -/
  executed : List SiteOperation := []

inductive DeletionEvent (ε : Type) where
  | around (event : ε)
  | reconcile (view : DeclaredObject) (parent : ParentRead)
      (databases : String → Except String DatabaseView) (writes : Nat)
  | connect (registration : String)
  | disconnect (registration : String)
  | sync (registration : String)
  /-- The agent handles a directive; `succeeds` is how a new Job ends. -/
  | handle (delivery : SiteDelivery) (succeeds : Bool) (fate : HandleFate)
  | receive (arrived : SiteResult) (parseNames : String → Option (List String))

def SiteOutcome.of (outcome : SiteOutcome) (registration operationUID : String) : Bool :=
  outcome.registration = registration ∧ outcome.operationUID = operationUID

def DirectivePayload.result (payload : DirectivePayload) (succeeded : Bool) : PlanResult where
  instanceUID := payload.instanceUID
  operationUID := payload.operationUID
  conditions := [if succeeded then
      { type := "Succeeded", status := .true, reason := "SQLApplied"
        message := "PostgreSQL accepted the idempotent declaration" }
    else
      { type := "Succeeded", status := .false, reason := "ExecutionFailed"
        message := "SQL Job failed" }]

def ParentRead.present : ParentRead → Bool
  | .notFound _ => false
  | _ => true

namespace DeletionRun

variable {σ ε : Type}

def gone (w : DeletionRun σ) : Bool :=
  w.declaration.stored.deleting && !w.declaration.stored.finalizer

def lists (env : Surroundings σ ε) (s : σ) (registration member : String) : Bool :=
  (env.plan s registration).any fun plan => (plan.memberAddresses.get? member).isSome

def payloads (env : Surroundings σ ε) (w : DeletionRun σ) (registration : String)
    (sent : List String) : List DirectivePayload :=
  DirectiveReads.sendDirectives ⟨env.parent w.around, [], [w.declaration.stored]⟩ registration
    w.declaration.directive.toList sent 1

/-- Whether an execution succeeds: the directive is refused under another plan, a Job that
exists decides, and otherwise the SQL is executed. -/
def execution (env : Surroundings σ ε) (w : DeletionRun σ) (delivery : SiteDelivery)
    (succeeds : Bool) : DeletionRun σ × Bool :=
  if lists env w.around delivery.registration delivery.payload.primary = false then (w, false)
  else match w.jobs.find? (·.of delivery.registration delivery.payload.operationUID) with
  | some job => (w, job.succeeded)
  | none => ({ w with
      jobs := ⟨delivery.registration, delivery.payload.operationUID, succeeds⟩ :: w.jobs
      executed := if delivery.payload.deleting then
        ⟨delivery.registration, delivery.payload.operationUID⟩ :: w.executed
        else w.executed }, succeeds)

/-- The outcome of an execution is stored and reported. -/
def settle (w : DeletionRun σ) (delivery : SiteDelivery) (succeeded : Bool) :
    HandleFate → DeletionRun σ
  | .crashed => w
  | .stored => { w with
      records := ⟨delivery.registration, delivery.payload.operationUID, succeeded⟩ :: w.records }
  | .sent => { w with
      records := ⟨delivery.registration, delivery.payload.operationUID, succeeded⟩ :: w.records
      results := ⟨delivery.registration, delivery.payload.result succeeded⟩ :: w.results }

/-- An agent handles a directive: a terminal record is replayed. -/
def handle (env : Surroundings σ ε) (w : DeletionRun σ) (delivery : SiteDelivery)
    (succeeds : Bool) (fate : HandleFate) : DeletionRun σ :=
  let taken := { w with inbox := w.inbox.erase delivery }
  match w.records.find? (·.of delivery.registration delivery.payload.operationUID) with
  | some stored => { taken with
      results := ⟨delivery.registration, delivery.payload.result stored.succeeded⟩ :: w.results }
  | none =>
    let (ran, succeeded) := execution env taken delivery succeeds
    settle ran delivery succeeded fate

def step (env : Surroundings σ ε) (w : DeletionRun σ) : DeletionEvent ε → Option (DeletionRun σ)
  | .around event => (env.step w.around event).map ({ w with around := · })
  | .reconcile view parent databases writes =>
    if view ∈ w.declaration.versions ∧ parent.present ∧ w.gone = false then
      some { w with declaration :=
        w.declaration.applyWrites view ((reconcileDeclared parent databases view).take writes) }
    else none
  | .connect registration =>
    some { w with streams :=
      ⟨registration, []⟩ :: w.streams.filter (·.registration ≠ registration) }
  | .disconnect registration =>
    some { w with
      streams := w.streams.filter (·.registration ≠ registration)
      inbox := w.inbox.filter (·.registration ≠ registration) }
  | .sync registration =>
    (w.streams.find? (·.registration = registration)).map fun stream =>
      let messages := w.payloads env registration stream.sent
      { w with
        streams := ⟨registration, messages.map (·.operationUID) ++ stream.sent⟩ ::
          w.streams.filter (·.registration ≠ registration)
        inbox := messages.map (⟨registration, ·⟩) ++ w.inbox }
  | .handle delivery succeeds fate =>
    if delivery ∈ w.inbox then some (w.handle env delivery succeeds fate) else none
  | .receive arrived parseNames =>
    if arrived ∈ w.results ∧ w.gone = false then
      some { w with
        declaration := w.declaration.record arrived.registration parseNames arrived.result
        results := w.results.erase arrived }
    else none

/-- The operation that deletes the object. -/
def operation (w : DeletionRun σ) : String :=
  directiveOperationUID w.declaration.stored true

def executions (w : DeletionRun σ) (operationUID : String) : Nat :=
  (w.executed.filter (·.operationUID = operationUID)).length

/-- Without an edit of the object, the deletion can be executed again and the finalizer
released. -/
def Finishable (env : Surroundings σ ε) (w : DeletionRun σ) : Prop :=
  ∃ w', Leads (step env) w w' ∧ w.executions w.operation < w'.executions w.operation ∧
    w'.declaration.stored.finalizer = false

def isParent (i : MultiSitePostgres) (object : DeclaredObject) : Bool :=
  i.namespaceName = object.namespaceName ∧ i.name = object.instanceRef

/-- An object with policy `Delete` is being deleted, its parent exists and its directive has
failed. -/
@[mk_iff] structure FailedDelete (env : Surroundings σ ε) (w : DeletionRun σ) : Prop where
  policy : w.declaration.stored.deletionPolicy = some .delete
  deleting : w.declaration.stored.deleting = true
  finalizer : w.declaration.stored.finalizer = true
  unfinished : w.declaration.stored.status.phase ≠ "Deleted"
  uid : w.declaration.stored.uid ≠ ""
  current : w.declaration.stored ∈ w.declaration.versions
  parent : isParent (env.parent w.around) w.declaration.stored = true
  /-- The directive is the object's own. -/
  directive : ∃ map, w.declaration.directive = some map ∧
    map.namespaceName = w.declaration.stored.namespaceName ∧
    map.name = w.declaration.stored.directiveName ∧
    map.ownerKind = w.declaration.stored.kind.ownerKind ∧
    map.ownerName = w.declaration.stored.name ∧ map.ownerUID = w.declaration.stored.uid
  failed : ∃ record ∈ w.records, record.operationUID = w.operation ∧ record.succeeded = false

/-- The site holds neither a terminal record nor a Job of the operation. -/
def unused (w : DeletionRun σ) (operationUID registration : String) : Bool :=
  w.records.all (fun r => !r.of registration operationUID) &&
    w.jobs.all fun j => !j.of registration operationUID

/-- A site that holds neither record nor Job of the deletion is or becomes the site of the
primary, or has the directive in its hands, and comes to accept a plan with that primary. -/
def Retriable (env : Surroundings σ ε) (w : DeletionRun σ) : Prop :=
  ∃ registration, w.unused w.operation registration = true ∧
    ((∃ s t, Leads env.step w.around s ∧ isParent (env.parent s) w.declaration.stored = true ∧
        directiveTargetsSite (env.parent s) w.declaration.stored.kind.directiveType
          registration = true ∧
        Leads env.step s t ∧ lists env t registration (env.parent s).status.primary = true) ∨
      ∃ delivery ∈ w.inbox, delivery.registration = registration ∧
        delivery.payload.operationUID = w.operation ∧ delivery.payload.deleting = true ∧
        ∃ t, Leads env.step w.around t ∧ lists env t registration delivery.payload.primary = true)

/-! ## What stays -/

/-- Two versions of an object between which it was not edited. -/
structure Unedited (a b : DeclaredObject) : Prop where
  kind : a.kind = b.kind
  namespaceName : a.namespaceName = b.namespaceName
  uid : a.uid = b.uid
  generation : a.generation = b.generation
  instanceRef : a.instanceRef = b.instanceRef

theorem Unedited.refl (a : DeclaredObject) : Unedited a a := ⟨rfl, rfl, rfl, rfl, rfl⟩

theorem Unedited.operation {a b : DeclaredObject} (h : Unedited a b) (deleting : Bool) :
    directiveOperationUID a deleting = directiveOperationUID b deleting := by
  unfold directiveOperationUID
  rw [h.uid, h.generation]

variable {object : DeclaredObject} {env : Surroundings σ ε} {w w' : DeletionRun σ}
  {registration : String} {delivery : SiteDelivery}

theorem Unedited.writes {view : DeclaredObject} {writes : List DeclarationWrite}
    {s : DeclarationState} (h : Unedited s.stored object) :
    Unedited (s.applyWrites view writes).stored object := by
  induction writes generalizing s with
  | nil => exact h
  | cons write rest ih =>
    cases write with
    | directive deleting => exact ih h
    | status status | addFinalizer | removeFinalizer reread =>
      rw [DeclarationState.applyWrites]
      split
      · exact ih ⟨h.kind, h.namespaceName, h.uid, h.generation, h.instanceRef⟩
      · exact h

theorem Unedited.record {s : DeclarationState} (siteName : String)
    (parseNames : String → Option (List String)) (result : PlanResult)
    (h : Unedited s.stored object) :
    Unedited (s.record siteName parseNames result).stored object := by
  unfold DeclarationState.record
  split
  · split
    · exact ⟨h.kind, h.namespaceName, h.uid, h.generation, h.instanceRef⟩
    · exact h
  · exact h

theorem targets_declared {reads : DirectiveReads} {map : DirectiveMap} {kind : DeclarationKind}
    (htype : map.type = kind.directiveType) : reads.targets registration map =
      directiveTargetsSite reads.instance' kind.directiveType registration := by
  have hnot : map.type ≠ "Backup" := by
    rw [htype]
    cases kind <;> decide
  rw [DirectiveReads.targets, if_neg hnot, htype]

theorem payload_origin {sent : List String} {p : DirectivePayload}
    (h : p ∈ w.payloads env registration sent) (hdel : p.deleting = true) :
    isParent (env.parent w.around) w.declaration.stored = true ∧
      directiveTargetsSite (env.parent w.around) w.declaration.stored.kind.directiveType
        registration = true ∧ p.primary = (env.parent w.around).status.primary := by
  obtain ⟨map, -, hdeliverable, rfl, -⟩ := DirectiveReads.mem_sendDirectives h
  have hmap : map.deleting = true := hdel
  obtain ⟨-, hns, -, htargets, htrusted⟩ := of_decide_eq_true hdeliverable
  obtain ⟨object, hmem, hobject, htrust⟩ := declared_of_deleting htrusted hmap
  obtain rfl := mem_singleton.mp hmem
  obtain ⟨htype, -, -, -, hinstance, -⟩ := of_decide_eq_true htrust
  exact ⟨decide_eq_true ⟨hns.symm.trans hobject.symm, hinstance.symm⟩,
    (targets_declared htype).symm.trans htargets, rfl⟩

theorem unused_iff {op : String} : w.unused op registration = true ↔
    w.records.find? (·.of registration op) = none ∧
      w.jobs.find? (·.of registration op) = none := by
  simp [unused]

theorem unused_mono {op : String} (hrecords : w.records ⊆ w'.records) (hjobs : w.jobs ⊆ w'.jobs)
    (h : w'.unused op registration = true) : w.unused op registration = true := by
  rw [unused_iff, find?_eq_none, find?_eq_none] at h ⊢
  exact ⟨fun r hr => h.1 r (hrecords hr), fun j hj => h.2 j (hjobs hj)⟩

theorem settle_eq (w : DeletionRun σ) (delivery : SiteDelivery) (succeeded : Bool)
    (fate : HandleFate) : ∃ records results, w.records ⊆ records ∧
      w.settle delivery succeeded fate = { w with records, results } := by
  cases fate with
  | crashed => exact ⟨_, _, List.Subset.refl _, rfl⟩
  | stored | sent => exact ⟨_, _, subset_cons_self _ _, rfl⟩

/-- The SQL is executed at a site that accepts the directive and has not seen it. -/
theorem handle_spec (env : Surroundings σ ε) (w : DeletionRun σ) (delivery : SiteDelivery)
    (succeeds : Bool) (fate : HandleFate) :
    ∃ jobs records results executed, w.handle env delivery succeeds fate =
        { w with inbox := w.inbox.erase delivery, jobs, records, results, executed } ∧
      w.jobs ⊆ jobs ∧ w.records ⊆ records ∧ (executed = w.executed ∨
        lists env w.around delivery.registration delivery.payload.primary = true ∧
        w.unused delivery.payload.operationUID delivery.registration = true ∧
        executed = if delivery.payload.deleting then
          ⟨delivery.registration, delivery.payload.operationUID⟩ :: w.executed
          else w.executed) := by
  unfold handle execution
  dsimp only
  cases hrecord : w.records.find? (·.of delivery.registration delivery.payload.operationUID) with
  | some stored =>
    exact ⟨_, _, _, _, rfl, List.Subset.refl _, List.Subset.refl _, .inl rfl⟩
  | none =>
    by_cases hlists : lists env w.around delivery.registration delivery.payload.primary = false
    · rw [if_pos hlists]
      obtain ⟨records, results, hrecords, heq⟩ :=
        settle_eq { w with inbox := w.inbox.erase delivery } delivery false fate
      exact ⟨_, _, _, _, heq, List.Subset.refl _, hrecords, .inl rfl⟩
    rw [if_neg hlists]
    cases hjob : w.jobs.find? (·.of delivery.registration delivery.payload.operationUID) with
    | some job =>
      obtain ⟨records, results, hrecords, heq⟩ :=
        settle_eq { w with inbox := w.inbox.erase delivery } delivery job.succeeded fate
      exact ⟨_, _, _, _, heq, List.Subset.refl _, hrecords, .inl rfl⟩
    | none =>
      obtain ⟨records, results, hrecords, heq⟩ := settle_eq { w with
        inbox := w.inbox.erase delivery
        jobs := ⟨delivery.registration, delivery.payload.operationUID, succeeds⟩ :: w.jobs
        executed := if delivery.payload.deleting then
          ⟨delivery.registration, delivery.payload.operationUID⟩ :: w.executed
          else w.executed } delivery succeeds fate
      exact ⟨_, _, _, _, heq, subset_cons_self _ _, hrecords,
        .inr ⟨Bool.not_eq_false _ ▸ hlists, unused_iff.mpr ⟨hrecord, hjob⟩, rfl⟩⟩

theorem executions_congr (h : w'.executed = w.executed) (op : String) :
    w'.executions op = w.executions op := by
  unfold executions
  rw [h]

/-- What a step leaves of the ways in which the deletion can be executed. -/
structure Moved (env : Surroundings σ ε) (w w' : DeletionRun σ) : Prop where
  unedited : Unedited w'.declaration.stored w.declaration.stored
  unused : ∀ op registration, w'.unused op registration = true → w.unused op registration = true
  around : Leads env.step w.around w'.around
  inbox : ∀ delivery ∈ w'.inbox, delivery ∈ w.inbox ∨
    ∃ sent, delivery.payload ∈ w.payloads env delivery.registration sent
  count : w'.executions w.operation = w.executions w.operation ∨ Retriable env w

/-- No step makes a retry possible. -/
theorem Moved.retriable (h : Moved env w w') (hretriable : Retriable env w') : Retriable env w := by
  have hop : w'.operation = w.operation := h.unedited.operation true
  unfold Retriable at hretriable
  rw [hop, h.unedited.kind] at hretriable
  obtain ⟨registration, hunused, hway⟩ := hretriable
  refine ⟨registration, h.unused _ _ hunused, ?_⟩
  rcases hway with ⟨s, t, hs, hparent, htargets, ht, hlists⟩ |
    ⟨delivery, hmem, rfl, hdelivery, hdel, t, ht, hlists⟩
  · unfold isParent at hparent
    rw [h.unedited.namespaceName, h.unedited.instanceRef] at hparent
    exact .inl ⟨s, t, h.around.trans hs, hparent, htargets, ht, hlists⟩
  rcases h.inbox delivery hmem with hmem | ⟨sent, hpayload⟩
  · exact .inr ⟨delivery, hmem, rfl, hdelivery, hdel, t, h.around.trans ht, hlists⟩
  · obtain ⟨hparent, htargets, hprimary⟩ := payload_origin hpayload hdel
    exact .inl ⟨w.around, t, .refl _ _, hparent, htargets, h.around.trans ht, hprimary ▸ hlists⟩

theorem handle_moved (succeeds : Bool) (fate : HandleFate) (hmem : delivery ∈ w.inbox) :
    Moved env w (w.handle env delivery succeeds fate) := by
  obtain ⟨jobs, records, results, executed, heq, hjobs, hrecords, hexecuted⟩ :=
    handle_spec env w delivery succeeds fate
  rw [heq]
  refine ⟨.refl _, fun _ _ => unused_mono hrecords hjobs, .refl _ _,
    fun d hd => .inl (mem_of_mem_erase hd), ?_⟩
  rcases hexecuted with hidle | ⟨hlists, hunused, hexecutes⟩
  · exact .inl (executions_congr hidle _)
  by_cases hdeletes : delivery.payload.deleting = true ∧ delivery.payload.operationUID = w.operation
  · exact .inr ⟨_, hdeletes.2 ▸ hunused,
      .inr ⟨delivery, hmem, rfl, hdeletes.2, hdeletes.1, _, .refl _ _, hlists⟩⟩
  left
  unfold executions
  rw [hexecutes]
  split
  · rename_i hdel
    rw [filter_cons_of_neg (by simpa using fun hop => hdeletes ⟨hdel, hop⟩)]
  · rfl

theorem step_moved {e : DeletionEvent ε} (hst : w.step env e = some w') : Moved env w w' := by
  cases e with
  | around event =>
    obtain ⟨s, hs, rfl⟩ := Option.map_eq_some_iff.mp hst
    exact ⟨.refl _, fun _ _ => id, (Leads.refl _ _).next hs, fun _ => .inl, .inl rfl⟩
  | reconcile view parent databases writes =>
    rw [DeletionRun.step] at hst
    split at hst
    · cases hst
      exact ⟨(Unedited.refl _).writes, fun _ _ => id, .refl _ _, fun _ => .inl, .inl rfl⟩
    · cases hst
  | connect registration =>
    cases hst
    exact ⟨.refl _, fun _ _ => id, .refl _ _, fun _ => .inl, .inl rfl⟩
  | disconnect registration =>
    cases hst
    exact ⟨.refl _, fun _ _ => id, .refl _ _, fun _ hmem => .inl (mem_of_mem_filter hmem), .inl rfl⟩
  | sync registration =>
    obtain ⟨stream, -, rfl⟩ := Option.map_eq_some_iff.mp hst
    refine ⟨.refl _, fun _ _ => id, .refl _ _, fun delivery hmem => ?_, .inl rfl⟩
    rcases mem_append.mp hmem with hmem | hmem
    · obtain ⟨p, hp, rfl⟩ := mem_map.mp hmem
      exact .inr ⟨stream.sent, hp⟩
    · exact .inl hmem
  | handle delivery succeeds fate =>
    rw [DeletionRun.step] at hst
    split at hst
    · rename_i hmem
      cases hst
      exact handle_moved succeeds fate hmem
    · cases hst
  | receive arrived parseNames =>
    rw [DeletionRun.step] at hst
    split at hst
    · cases hst
      exact ⟨(Unedited.refl _).record _ _ _, fun _ _ => id, .refl _ _, fun _ => .inl, .inl rfl⟩
    · cases hst

open Machine

theorem not_finishable (h : ¬ Retriable env w) : ¬ Finishable env w := by
  rintro ⟨w', hleads, hmore, -⟩
  refine absurd (Reach.invariant (I := fun s => ¬ Retriable env s ∧ s.operation = w.operation ∧
    s.executions w.operation = w.executions w.operation)
    (fun s heq => by rw [heq]; exact ⟨h, rfl, rfl⟩) ?_ hleads).2.2 (Nat.ne_of_gt hmore)
  rintro s e t ⟨hnot, hop, hcount⟩ - hst
  have hmoved := step_moved hst
  refine ⟨fun hretriable => hnot (hmoved.retriable hretriable),
    (hmoved.unedited.operation true).trans hop, ?_⟩
  rw [← hcount, ← hop]
  exact hmoved.count.resolve_right hnot

/-! ## A retry -/

theorem leads_around {s : σ} (h : Leads env.step w.around s) :
    Leads (step env) w { w with around := s } := by
  induction h with
  | start heq => exact heq ▸ Leads.refl _ w
  | @next t u e _ _ hst ih =>
    refine ih.next (e := .around e) ?_
    show (env.step t e).map _ = _
    rw [hst]
    rfl

theorem reconcileDeclared_deleting (object : DeclaredObject) (parent : ParentRead)
    (databases : String → Except String DatabaseView) (h : object.deleting = true) :
    ∃ noun, reconcileDeclared parent databases object =
      reconcileDeclarationDeletion noun parent object := by
  unfold reconcileDeclared
  cases object.kind with
  | database =>
    refine ⟨"database", ?_⟩
    unfold reconcileDatabase
    rw [if_neg (by simp [h]), if_pos h]
  | user =>
    refine ⟨"user", ?_⟩
    unfold reconcileUser
    rw [if_neg (by simp [h]), if_pos h]

structure Issued (w : DeletionRun σ) : Prop where
  deleting : w.declaration.stored.deleting = true
  finalizer : w.declaration.stored.finalizer = true
  directive : ∃ map, w.declaration.directive = some map ∧ map.deleting = true ∧
    map.operationUID = w.operation

theorem present_of_finalizer (h : w.declaration.stored.finalizer = true) : w.gone = false := by
  rw [gone, h, Bool.not_true, Bool.and_false]

theorem recordDeclaredResult_deleted (parseNames : String → Option (List String))
    (siteName : String) (payload : DirectivePayload) (object : DeclaredObject) :
    (recordDeclaredResult parseNames siteName true (payload.result true) object).status.phase =
      "Deleted" := by
  unfold recordDeclaredResult
  cases object.kind <;> rfl

theorem released_of_result (env : Surroundings σ ε) {payload : DirectivePayload} (h : Issued w)
    (hop : payload.operationUID = w.operation)
    (hresult : ⟨registration, payload.result true⟩ ∈ w.results) :
    ∃ w', Leads (step env) w w' ∧ w'.executed = w.executed ∧
      w'.declaration.stored.finalizer = false := by
  obtain ⟨map, hmap, hdel, hmapop⟩ := h.directive
  -- the result is recorded
  let parseNames : String → Option (List String) := fun _ => none
  let object := recordDeclaredResult parseNames registration true (payload.result true)
    w.declaration.stored
  let received : DeletionRun σ := { w with
    declaration := w.declaration.store object
    results := w.results.erase ⟨registration, payload.result true⟩ }
  have hmatch : map.operationUID = (payload.result true).operationUID := hmapop.trans hop.symm
  have hreceive : step env w (.receive ⟨registration, payload.result true⟩ parseNames) =
      some received := by
    rw [DeletionRun.step, if_pos ⟨hresult, present_of_finalizer h.finalizer⟩]
    unfold DeclarationState.record
    rw [hmap]
    dsimp only
    rw [if_pos hmatch, hdel]
  -- the next reconcile finds the phase
  have hwrites : reconcileDeclared (.found true) (fun _ => .error "") object =
      [.removeFinalizer false] := by
    obtain ⟨noun, hnoun⟩ := reconcileDeclared_deleting object (.found true) (fun _ => .error "")
      h.deleting
    rw [hnoun, reconcileDeclarationDeletion,
      if_pos (.inr (recordDeclaredResult_deleted parseNames registration payload _))]
  let released : DeletionRun σ := { received with
    declaration := received.declaration.store { object with finalizer := false } }
  have hrelease : step env received (.reconcile object (.found true) (fun _ => .error "") 1) =
      some released := by
    rw [DeletionRun.step, if_pos ⟨mem_cons_self, rfl, present_of_finalizer h.finalizer⟩, hwrites]
    simp only [take_succ_cons, DeclarationState.applyWrites]
    rw [if_pos (.inr rfl)]
    rfl
  exact ⟨released, ((Leads.refl _ w).next hreceive).next hrelease, rfl, rfl⟩

theorem finishes_of_delivery (env : Surroundings σ ε) (h : Issued w) (hmem : delivery ∈ w.inbox)
    (hop : delivery.payload.operationUID = w.operation)
    (hdel : delivery.payload.deleting = true)
    (hunused : w.unused w.operation delivery.registration = true)
    (hlists : lists env w.around delivery.registration delivery.payload.primary = true) :
    ∃ w', Leads (step env) w w' ∧ w'.executions w.operation = w.executions w.operation + 1 ∧
      w'.declaration.stored.finalizer = false := by
  rw [← hop, unused_iff] at hunused
  let handled : DeletionRun σ := { w with
    inbox := w.inbox.erase delivery
    jobs := ⟨delivery.registration, delivery.payload.operationUID, true⟩ :: w.jobs
    records := ⟨delivery.registration, delivery.payload.operationUID, true⟩ :: w.records
    results := ⟨delivery.registration, delivery.payload.result true⟩ :: w.results
    executed := ⟨delivery.registration, delivery.payload.operationUID⟩ :: w.executed }
  have hhandle : step env w (.handle delivery true .sent) = some handled := by
    rw [DeletionRun.step, if_pos hmem]
    unfold DeletionRun.handle execution
    rw [hunused.1]
    dsimp only
    rw [if_neg (by rw [hlists]; simp), hunused.2, hdel]
    rfl
  obtain ⟨w', hleads, hexecuted, hreleased⟩ := released_of_result env (w := handled)
    ⟨h.deleting, h.finalizer, h.directive⟩ hop mem_cons_self
  refine ⟨w', ((Leads.refl _ w).next hhandle).trans hleads, ?_, hreleased⟩
  rw [executions_congr hexecuted]
  unfold executions
  rw [filter_cons_of_pos (by simpa using hop)]
  rfl

theorem reconcileDirective_trusted (object : DeclaredObject) {map : DirectiveMap}
    (hdel : object.deleting = true) (hpolicy : object.deletionPolicy = some .delete)
    (hname : map.name = object.directiveName) (hownerName : map.ownerName = object.name)
    (hownerUID : map.ownerUID = object.uid) :
    declarationDirectiveTrusted (reconcileDirective (some map) object true) object.instanceRef
      object = true :=
  decide_eq_true ⟨rfl, hownerName, hname, hownerUID.symm, rfl, rfl, hdel.symm,
    fun _ => hpolicy, rfl⟩

theorem operationUIDOf_ne_empty (uid : String) (generation : Nat) (deleting : Bool) :
    operationUIDOf uid generation deleting ≠ "" := by
  intro h
  have hlength := congrArg String.length h
  simp only [operationUIDOf, String.length_append] at hlength
  have hdash : "-".length = 1 := rfl
  have hempty : "".length = 0 := rfl
  omega

theorem payloads_of_trusted {map : DirectiveMap} (hmap : w.declaration.directive = some map)
    (htrusted : declarationDirectiveTrusted map (env.parent w.around).name w.declaration.stored =
      true) (hkind : map.ownerKind = w.declaration.stored.kind.ownerKind)
    (hns : map.namespaceName = w.declaration.stored.namespaceName)
    (huid : w.declaration.stored.uid ≠ "")
    (hinstance : map.instanceRef = (env.parent w.around).name)
    (hparent : isParent (env.parent w.around) w.declaration.stored = true)
    (htargets : directiveTargetsSite (env.parent w.around)
      w.declaration.stored.kind.directiveType registration = true) :
    w.payloads env registration [] =
      [DirectiveReads.payload ⟨env.parent w.around, [], [w.declaration.stored]⟩ map] := by
  obtain ⟨htype, -, -, howner, -, hop, -⟩ := of_decide_eq_true htrusted
  have howned :
    directiveOwnerTrusted map (env.parent w.around) [] [w.declaration.stored] = true := by
    unfold directiveOwnerTrusted declaredDirectiveTrusted
    rw [hkind, ← howner, hinstance]
    cases hk : w.declaration.stored.kind <;>
      simp [huid, hk, hns, htrusted, DeclarationKind.ownerKind]
  have hdeliverable : DirectiveReads.deliverable
      ⟨env.parent w.around, [], [w.declaration.stored]⟩ registration map = true := by
    refine decide_eq_true ⟨?_, ?_, hinstance, (targets_declared htype).trans htargets, howned⟩
    · rw [hop]
      exact operationUIDOf_ne_empty _ _ _
    · rw [hns]
      exact (of_decide_eq_true hparent).1.symm
  unfold payloads
  rw [hmap]
  show DirectiveReads.sendDirectives _ registration [map] [] 1 = _
  rw [DirectiveReads.sendDirectives, if_neg (by simp [hdeliverable])]
  rfl

structure Reissued (w w' : DeletionRun σ) : Prop extends Issued w' where
  jobs : w'.jobs = w.jobs
  records : w'.records = w.records
  executed : w'.executed = w.executed
  unedited : Unedited w'.declaration.stored w.declaration.stored
  trusted : ∀ map, w'.declaration.directive = some map →
    declarationDirectiveTrusted map w'.declaration.stored.instanceRef w'.declaration.stored = true ∧
      map.ownerKind = w'.declaration.stored.kind.ownerKind ∧
      map.namespaceName = w'.declaration.stored.namespaceName ∧
      map.instanceRef = w'.declaration.stored.instanceRef

theorem reissued (h : FailedDelete env w) :
    ∃ w', Leads (step env) w w' ∧ Reissued w w' ∧ w'.around = w.around ∧ w'.inbox = w.inbox := by
  obtain ⟨map, hmap, hns, hname, hkind, hownerName, hownerUID⟩ := h.directive
  obtain ⟨noun, hnoun⟩ := reconcileDeclared_deleting w.declaration.stored (.found true)
    (fun _ => .error "") h.deleting
  have hpend : ¬ (w.declaration.stored.deletionPolicy = some .retain ∨
      w.declaration.stored.status.phase = "Deleted") := by
    rw [h.policy]
    exact fun hor => hor.elim nofun h.unfinished
  obtain ⟨status, hwrites⟩ : ∃ status,
      reconcileDeclared (.found true) (fun _ => .error "") w.declaration.stored =
        [.directive true, .status status] := by
    rw [hnoun, reconcileDeclarationDeletion, if_neg hpend]
    exact ⟨_, rfl⟩
  let directed : DeclarationState := { w.declaration with
    directive := some (reconcileDirective (some map) w.declaration.stored true) }
  let issued : DeletionRun σ := { w with
    declaration := directed.store { w.declaration.stored with status := status } }
  have hstep : step env w (.reconcile w.declaration.stored (.found true) (fun _ => .error "") 2) =
      some issued := by
    rw [DeletionRun.step, if_pos ⟨h.current, rfl, present_of_finalizer h.finalizer⟩, hwrites]
    simp only [take_succ_cons, take_nil, DeclarationState.applyWrites, hmap]
    rw [if_pos trivial]
  refine ⟨issued, (Leads.refl _ w).next hstep, ?_, rfl, rfl⟩
  refine ⟨⟨h.deleting, h.finalizer, _, rfl, rfl, rfl⟩, rfl, rfl, rfl, ⟨rfl, rfl, rfl, rfl, rfl⟩, ?_⟩
  rintro _ ⟨⟩
  refine ⟨?_, hkind, hns, rfl⟩
  exact reconcileDirective_trusted { w.declaration.stored with status := status }
    h.deleting h.policy hname hownerName hownerUID

theorem unused_congr (hrecords : w'.records = w.records) (hjobs : w'.jobs = w.jobs)
    (op registration : String) :
    w'.unused op registration = w.unused op registration := by
  unfold unused
  rw [hrecords, hjobs]

theorem delivered_of_reissued {w₀ : DeletionRun σ} (h : Reissued w₀ w)
    (huid : w.declaration.stored.uid ≠ "")
    (hparent : isParent (env.parent w.around) w.declaration.stored = true)
    (htargets : directiveTargetsSite (env.parent w.around)
      w.declaration.stored.kind.directiveType registration = true) :
    ∃ w', Leads (step env) w w' ∧ Reissued w₀ w' ∧ w'.around = w.around ∧
      ∃ delivery ∈ w'.inbox, delivery.registration = registration ∧
        delivery.payload.operationUID = w.operation ∧ delivery.payload.deleting = true ∧
        delivery.payload.primary = (env.parent w.around).status.primary := by
  obtain ⟨map, hmap, hdel, hop⟩ := h.directive
  obtain ⟨htrusted, hkind, hns, hinstance⟩ := h.trusted map hmap
  have hname : w.declaration.stored.instanceRef = (env.parent w.around).name :=
    (of_decide_eq_true hparent).2.symm
  let others := w.streams.filter (·.registration ≠ registration)
  let connected : DeletionRun σ := { w with streams := ⟨registration, []⟩ :: others }
  have hconnect : step env w (.connect registration) = some connected := rfl
  let payload := DirectiveReads.payload ⟨env.parent w.around, [], [w.declaration.stored]⟩ map
  have hpayloads : connected.payloads env registration [] = [payload] :=
    payloads_of_trusted hmap (hname ▸ htrusted) hkind hns huid
      (hinstance.trans hname) hparent htargets
  let synced : DeletionRun σ := { connected with
    streams := ⟨registration, [payload.operationUID]⟩ ::
      connected.streams.filter (·.registration ≠ registration)
    inbox := ⟨registration, payload⟩ :: w.inbox }
  have hsync : step env connected (.sync registration) = some synced := by
    show Option.map _ (List.find? _ (⟨registration, []⟩ :: others)) = _
    rw [find?_cons_of_pos (by simp), Option.map_some]
    rw [hpayloads]
    rfl
  refine ⟨synced, ((Leads.refl _ w).next hconnect).next hsync, ?_, rfl, ⟨registration, payload⟩,
    mem_cons_self, rfl, hop, hdel, rfl⟩
  exact ⟨⟨h.deleting, h.finalizer, h.directive⟩, h.jobs, h.records, h.executed, h.unedited,
    h.trusted⟩

/-- Once the directive is at an unused site that comes to accept it, the site executes it. -/
theorem finishable_of_delivered {w₁ : DeletionRun σ} {t : σ} (hleads : Leads (step env) w w₁)
    (h : Reissued w w₁) (hmem : delivery ∈ w₁.inbox)
    (hop : delivery.payload.operationUID = w.operation)
    (hdel : delivery.payload.deleting = true)
    (hunused : w.unused w.operation delivery.registration = true)
    (ht : Leads env.step w₁.around t)
    (hlists : lists env t delivery.registration delivery.payload.primary = true) :
    Finishable env w := by
  have hop₁ : w₁.operation = w.operation := h.unedited.operation true
  have hissued : Issued { w₁ with around := t } :=
    ⟨h.deleting, h.finalizer, h.directive⟩
  have hunused₁ : w₁.unused w₁.operation delivery.registration = true := by
    rw [hop₁, ← hunused]
    exact unused_congr h.records h.jobs _ _
  obtain ⟨w₂, hfinish, hcount, hreleased⟩ := finishes_of_delivery env hissued hmem
    (hop.trans hop₁.symm) hdel hunused₁ hlists
  refine ⟨w₂, (hleads.trans (leads_around ht)).trans hfinish, ?_, hreleased⟩
  have hbefore : w₁.executions w.operation = w.executions w.operation :=
    executions_congr h.executed _
  have hafter : w₂.executions w₁.operation = w₁.executions w₁.operation + 1 := hcount
  rw [hop₁] at hafter
  omega

theorem finishable_of_retriable (h : FailedDelete env w) (hretriable : Retriable env w) :
    Finishable env w := by
  obtain ⟨registration, hunused, ⟨s, t, hs, hparent, htargets, ht, hlists⟩ |
    ⟨delivery, hmem, rfl, hop, hdel, t, ht, hlists⟩⟩ := hretriable
  · have hfailed : FailedDelete env { w with around := s } :=
      ⟨h.policy, h.deleting, h.finalizer, h.unfinished, h.uid, h.current, hparent, h.directive,
        h.failed⟩
    obtain ⟨w₁, hleads, h₁, haround, -⟩ := reissued hfailed
    have hsame := h₁.unedited
    have hparent₁ : isParent (env.parent w₁.around) w₁.declaration.stored = true := by
      unfold isParent at hparent ⊢
      rwa [haround, hsame.namespaceName, hsame.instanceRef]
    have htargets₁ : directiveTargetsSite (env.parent w₁.around)
        w₁.declaration.stored.kind.directiveType registration = true := by
      rw [haround, hsame.kind]
      exact htargets
    obtain ⟨w₂, hdeliver, h₂, haround₂, delivery, hmem, rfl, hop, hdel, hprimary⟩ :=
      delivered_of_reissued h₁ (hsame.uid ▸ h.uid) hparent₁ htargets₁
    have h₂' : Reissued w w₂ :=
      ⟨h₂.toIssued, h₂.jobs, h₂.records, h₂.executed, h₂.unedited, h₂.trusted⟩
    have ht₂ : Leads env.step w₂.around t := by
      rw [haround₂, haround]
      exact ht
    refine finishable_of_delivered (((leads_around hs).trans hleads).trans hdeliver) h₂' hmem
      (hop.trans (hsame.operation true)) hdel hunused ht₂ ?_
    rw [hprimary, haround]
    exact hlists
  · obtain ⟨w₁, hleads, h₁, haround, hinbox⟩ := reissued h
    exact finishable_of_delivered hleads h₁ (hinbox ▸ hmem) hop hdel hunused (haround ▸ ht) hlists

/-- A failed deletion can be executed again and finish exactly when some site without a record
and a Job of it is or becomes the site of the primary, or has the directive already. -/
theorem finishable_iff {env : Surroundings σ ε} {w : DeletionRun σ} (h : FailedDelete env w) :
    Finishable env w ↔ Retriable env w :=
  ⟨fun hfinishable => not_not.mp fun hnot => not_finishable hnot hfinishable,
    finishable_of_retriable h⟩

/-! ## The hub around a declaration -/

end DeletionRun

def HubEvent.byUser : HubEvent → Bool
  | .edit _ | .delete | .createUpgrade _ | .deleteUpgrade _ _ => true
  | _ => false

/-- Controllers and agents go on, and a site accepts its newest plan. -/
def hubSurroundings (config : HubConfig) : Surroundings HubState HubEvent where
  step s event := if event.byUser then none else s.step config event
  parent s := s.stored
  plan s registration := s.written.find? (·.site.siteRegistrationRef = registration)

theorem mem_sites_of_targets {i : MultiSitePostgres} {kind : DeclarationKind} {site : String}
    (h : directiveTargetsSite i kind.directiveType site = true) :
    ∃ desired ∈ i.spec.sites, desired.siteRegistrationRef = site := by
  unfold directiveTargetsSite at h
  rw [if_neg (by cases kind <;> simp [DeclarationKind.directiveType])] at h
  split at h
  · cases h
  obtain ⟨observed, -, hobs⟩ := exists_of_findSome?_eq_some (of_decide_eq_true h)
  obtain ⟨desired, hdesired, rfl⟩ := Option.map_eq_some_iff.mp hobs
  exact ⟨desired, mem_of_find?_eq_some hdesired, rfl⟩

namespace DeletionRun

open Machine

structure Initial (config : HubConfig) (w : DeletionRun HubState) : Prop where
  around : Reach (HubState.step config) (HubState.Initial config) anyStep w.around
  versions : w.declaration.versions = [w.declaration.stored]
  directive : w.declaration.directive = none
  streams : w.streams = []
  inbox : w.inbox = []
  jobs : w.jobs = []
  records : w.records = []
  results : w.results = []
  executed : w.executed = []

instance {o : Option α} {p : α → Prop} [DecidablePred p] : Decidable (∃ a, o = some a ∧ p a) :=
  inferInstanceAs (Decidable (∃ a ∈ o, p a))

instance (env : Surroundings HubState HubEvent) (w : DeletionRun HubState) :
    Decidable (FailedDelete env w) :=
  decidable_of_iff _ (failedDelete_iff env w).symm

/-! ## A role that is dropped -/

def appRole : DeclaredObject where
  kind := .user
  namespaceName := "database-platform"
  name := "app"
  uid := "app-uid"
  generation := 2
  deleting := true
  finalizer := true
  instanceRef := "ledger"
  deletionPolicy := some .delete

def requestedIn (s : HubState) : DeletionRun HubState where
  around := s
  declaration := { stored := appRole, versions := [appRole] }

open Sample

theorem requestedIn_initial {s : HubState}
    (hs : Reach (HubState.step hub) (HubState.Initial hub) anyStep s) :
    Initial hub (requestedIn s) :=
  ⟨hs, rfl, rfl, rfl, rfl, rfl, rfl, rfl, rfl⟩

def failedAt (site : String) : List (DeletionRun HubState → DeletionEvent HubEvent) :=
  [fun w => .reconcile w.declaration.stored (.found true) (fun _ => .error "") 2,
    fun _ => .connect site, fun _ => .sync site,
    fun w => match w.inbox with
      | delivery :: _ => .handle delivery false .sent
      | [] => .connect site,
    fun w => match w.results with
      | arrived :: _ => .receive arrived fun _ => none
      | [] => .connect site]

def oneSite : MultiSitePostgres :=
  { ledger with
    spec := specWith [underRegistration (dataSite "vic" 100 3 2 2)] }

theorem oneSite_initial : HubState.Initial hub (created oneSite) :=
  created_initial (by decide +kernel) rfl rfl

def running : HubState :=
  after oneSite anyStep (reconciledWith ++ [addressesFrom "production-vic" [(vic0, "10.1.0.2")],
      healthFrom "production-vic" (vic0, [vic1])] ++ reconciledWith)

theorem running_reach : Reach (HubState.step hub) (HubState.Initial hub) anyStep running ∧
      running.stored.spec.sites = oneSite.spec.sites :=
  after_reach (P := fun s => s.stored.spec.sites = oneSite.spec.sites) oneSite_initial
    (by decide +kernel)

def failedOnce : DeletionRun HubState :=
  reached (step (hubSurroundings hub)) anyStep (requestedIn running) (failedAt "production-vic")

/-- The failure is recorded at the site and nothing is on its way. -/
def FailedAtVic (w : DeletionRun HubState) : Prop :=
  FailedDelete (hubSurroundings hub) w ∧
    w.unused w.operation "production-vic" = false ∧ w.inbox = [] ∧ w.executions w.operation = 1 ∧
    w.around.stored.spec.sites = oneSite.spec.sites
deriving Decidable

theorem failedOnce_reach : Reach (step (hubSurroundings hub)) (Initial hub) anyStep
      failedOnce ∧ FailedAtVic failedOnce :=
  played (P := FailedAtVic) (requestedIn_initial running_reach.1) (by decide +kernel)

theorem failedOnce_stuck : Reach (step (hubSurroundings hub)) (Initial hub) anyStep failedOnce ∧
      FailedDelete (hubSurroundings hub) failedOnce ∧
      ¬ Finishable (hubSurroundings hub) failedOnce := by
  obtain ⟨hreach, hfailed, hused, hinbox, -, hsites⟩ := failedOnce_reach
  refine ⟨hreach, hfailed, not_finishable ?_⟩
  rintro ⟨registration, hunused, ⟨s, t, hs, -, htargets, -⟩ | ⟨delivery, hmem, -⟩⟩
  · have hkept : s.stored.spec.sites = oneSite.spec.sites := by
      refine Reach.invariant (I := fun s => s.stored.spec.sites = oneSite.spec.sites)
        (fun s heq => heq ▸ hsites) (fun s e t h _ hst => ?_) hs
      unfold hubSurroundings at hst
      dsimp only at hst
      split at hst
      · cases hst
      rename_i huser
      refine (HubState.StepCase.specSites (HubState.step_case hst) fun spec he => ?_).trans h
      exact huser (he ▸ rfl)
    obtain ⟨desired, hdesired, rfl⟩ := mem_sites_of_targets htargets
    have hvic : desired.siteRegistrationRef = "production-vic" := by
      have : desired ∈ oneSite.spec.sites := hkept ▸ hdesired
      rw [mem_singleton.mp this]
      rfl
    rw [hvic, hused] at hunused
    cases hunused
  · rw [hinbox] at hmem
    cases hmem

def twoSites : HubState :=
  after solo anyStep (rollOut reads ++ addressed ++ reconciledWith)

def PrimaryAtVic (s : HubState) : Prop := s.stored.status.primary = vic0
deriving Decidable

theorem twoSites_reach : Reach (HubState.step hub) (HubState.Initial hub) anyStep
      twoSites ∧ PrimaryAtVic twoSites :=
  after_reach (P := PrimaryAtVic) solo_initial (by decide +kernel)

/-- The role could not be dropped at one site, and the primary has moved to the other. -/
def failedOver : DeletionRun HubState :=
  reached (step (hubSurroundings hub)) anyStep (requestedIn twoSites) (failedAt "production-vic" ++
    ([healthFrom "production-vic" (nsw0, [vic0]), healthFrom "production-nsw" (nsw0, [vic0])] ++
      reconciledWith).map fun event w => .around (event w.around))

def MovedToNsw (w : DeletionRun HubState) : Prop :=
  FailedDelete (hubSurroundings hub) w ∧ w.unused w.operation "production-nsw" = true ∧
    directiveTargetsSite w.around.stored w.declaration.stored.kind.directiveType
      "production-nsw" = true ∧
    lists (hubSurroundings hub) w.around "production-nsw" w.around.stored.status.primary = true
deriving Decidable

theorem MovedToNsw.retriable {w : DeletionRun HubState} (h : MovedToNsw w) :
    Retriable (hubSurroundings hub) w := by
  obtain ⟨hfailed, hunused, htargets, hlists⟩ := h
  exact ⟨"production-nsw", hunused,
    .inl ⟨_, _, .refl _ _, hfailed.parent, htargets, .refl _ _, hlists⟩⟩

theorem failedOver_reach : Reach (step (hubSurroundings hub)) (Initial hub) anyStep
      failedOver ∧ MovedToNsw failedOver :=
  played (P := MovedToNsw) (requestedIn_initial twoSites_reach.1) (by decide +kernel)

theorem failedOver_finishable : FailedDelete (hubSurroundings hub) failedOver ∧
      Finishable (hubSurroundings hub) failedOver :=
  ⟨failedOver_reach.2.1, (finishable_iff failedOver_reach.2.1).mpr failedOver_reach.2.retriable⟩

end DeletionRun

end Mspsql
