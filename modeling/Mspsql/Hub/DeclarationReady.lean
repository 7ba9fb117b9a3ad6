import Mspsql.Hub.Declarations
import Mspsql.Lib.Machine

/-!
# When a declaration is shown as ready

The life of one declared database or user: it is edited, its controller reconciles any version
of it that was ever stored, the server sends the directive and records the results.  A result
is recorded when the directive still carries its operation, whatever generation the object has
by then.

`Succeeded` outlives the generation it was reported for, and a recorded result stamps the
generation that is current when it arrives.  So the status can show a generation as ready
for which no result was received (`orderly` runs apart).
-/

namespace Mspsql

open List

structure DeclarationState where
  stored : DeclaredObject
  versions : List DeclaredObject
  directive : Option DirectiveMap := none
  /-- The operations sent to a site. -/
  delivered : List String := []
  /-- The operations a successful result was received for. -/
  received : List String := []
deriving DecidableEq

inductive DeclarationEvent where
  | edit (instanceRef : String) (deletionPolicy : Option DeletionPolicy)
      (memberOf : List Membership) (specJSON : String)
  | annotate (forceOrphan : Bool)
  | requestDeletion
  /-- The first `writes` writes of a reconcile on `view`. -/
  | reconcile (view : DeclaredObject) (parent : ParentRead)
      (databases : String → Except String DatabaseView) (writes : Nat)
  | deliver (instanceName : String)
  | result (siteName : String) (parseNames : String → Option (List String)) (result : PlanResult)

namespace DeclarationState

def store (s : DeclarationState) (object : DeclaredObject) : DeclarationState :=
  { s with stored := object, versions := object :: s.versions }

/-- The writes of a reconcile on `view`, up to the first that meets a newer version. -/
def applyWrites (view : DeclaredObject) : DeclarationState → List DeclarationWrite →
    DeclarationState
  | s, [] => s
  | s, .directive deleting :: rest =>
    applyWrites view
      { s with directive := some (reconcileDirective s.directive view deleting) } rest
  | s, .status status :: rest =>
    if view = s.stored then applyWrites view (s.store { s.stored with status := status }) rest
    else s
  | s, .addFinalizer :: rest =>
    if view = s.stored then applyWrites view (s.store { s.stored with finalizer := true }) rest
    else s
  | s, .removeFinalizer reread :: rest =>
    if reread ∨ view = s.stored then
      applyWrites view (s.store { s.stored with finalizer := false }) rest
    else s

def record (s : DeclarationState) (siteName : String)
    (parseNames : String → Option (List String)) (result : PlanResult) : DeclarationState :=
  match s.directive with
  | some map =>
    if map.operationUID = result.operationUID then
      s.store (recordDeclaredResult parseNames siteName map.deleting result s.stored)
    else s
  | none => s

def step (s : DeclarationState) (e : DeclarationEvent) : Option DeclarationState :=
  if s.stored.deleting ∧ s.stored.finalizer = false then none
  else match e with
  | .edit instanceRef deletionPolicy memberOf specJSON =>
    some (s.store { s.stored with
      instanceRef := instanceRef, deletionPolicy := deletionPolicy, memberOf := memberOf,
      specJSON := specJSON, generation := s.stored.generation + 1 })
  | .annotate forceOrphan => some (s.store { s.stored with forceOrphan := forceOrphan })
  | .requestDeletion =>
    some (s.store { s.stored with deleting := true, generation := s.stored.generation + 1 })
  | .reconcile view parent databases writes =>
    if view ∈ s.versions then
      some (applyWrites view s ((reconcileDeclared parent databases view).take writes))
    else none
  | .deliver instanceName =>
    match s.directive with
    | some map =>
      if declarationDirectiveTrusted map instanceName s.stored then
        some { s with delivered := map.operationUID :: s.delivered }
      else none
    | none => none
  | .result siteName parseNames result =>
    if result.operationUID ∈ s.delivered then
      some { s.record siteName parseNames result with
        received := if directiveSucceeded result.conditions then
          result.operationUID :: s.received else s.received }
    else none

/-- A declaration that was just created. -/
structure Initial (s : DeclarationState) : Prop where
  status : s.stored.status = {}
  versions : s.versions = [s.stored]
  directive : s.directive = none
  delivered : s.delivered = []
  received : s.received = []

/-- Whatever generation is shown as ready, its operation was reported as successful. -/
def ReadyBacked (s : DeclarationState) : Prop :=
  conditionTrue s.stored.status.conditions "Ready" = true →
    operationUIDOf s.stored.uid s.stored.status.observedGeneration false ∈ s.received
deriving Decidable

/-- A result that does not report readiness itself, and success only as a whole. -/
def reportsPlainly (reported : List Condition) : Prop :=
  (∀ c ∈ reported, c.type ≠ "Ready") ∧
    ((∃ c ∈ reported, c.type = "Succeeded" ∧ c.status = .true) →
      directiveSucceeded reported = true)
deriving Decidable

/-- Edits come while the status shows neither success nor readiness, deletion while it does
not show readiness, and a result is recorded only for the operation of the generation that
is current when it arrives. -/
def orderly (s : DeclarationState) : DeclarationEvent → Prop
  | .edit .. => conditionTrue s.stored.status.conditions "Succeeded" = false ∧
      conditionTrue s.stored.status.conditions "Ready" = false
  | .requestDeletion => conditionTrue s.stored.status.conditions "Ready" = false
  | .result _ _ result => reportsPlainly result.conditions ∧
      ∀ map ∈ s.directive, map.operationUID = result.operationUID →
        result.operationUID = directiveOperationUID s.stored s.stored.deleting
  | _ => True

instance (s : DeclarationState) (e : DeclarationEvent) : Decidable (orderly s e) := by
  cases e <;> unfold orderly <;> infer_instance

/-! ## What the controllers write -/

/-- A status that the controller writes for `object`. -/
structure StatusSpec (object : DeclaredObject) (status : DeclaredStatus) : Prop where
  succeeded : conditionTrue status.conditions "Succeeded" =
    conditionTrue object.status.conditions "Succeeded"
  ready : conditionTrue status.conditions "Ready" = true →
    (object.deleting = true ∧ conditionTrue object.status.conditions "Ready" = true) ∨
      (object.deleting = false ∧ status.observedGeneration = object.generation ∧
        conditionTrue object.status.conditions "Succeeded" = true)

theorem conditionTrue_withCondition (object : DeclaredObject) (status : DeclaredStatus)
    (type : String) (value : ConditionStatus) (reason message other : String) :
    conditionTrue (object.withCondition status type value reason message).conditions other =
      if type = other then decide (value = .true) else conditionTrue status.conditions other :=
  conditionTrue_setCondition ..

theorem statusSpec_notReady {object : DeclaredObject} {status : DeclaredStatus}
    {reason message : String} (h : status.conditions = object.status.conditions) :
    StatusSpec object (object.withCondition status "Ready" .false reason message) where
  succeeded := by
    rw [conditionTrue_withCondition, if_neg (by decide), h]
  ready := by
    intro hready
    rw [conditionTrue_withCondition] at hready
    cases hready

theorem statusSpec_blocked {object : DeclaredObject} {status : DeclaredStatus}
    {value : ConditionStatus} {reason message : String} (hdel : object.deleting = true)
    (hsucceeded : conditionTrue status.conditions "Succeeded" =
      conditionTrue object.status.conditions "Succeeded")
    (hready : conditionTrue status.conditions "Ready" =
      conditionTrue object.status.conditions "Ready") :
    StatusSpec object (object.withCondition status "DeletionBlocked" value reason message) where
  succeeded := by
    rw [conditionTrue_withCondition, if_neg (by decide), hsucceeded]
  ready := by
    intro h
    rw [conditionTrue_withCondition, hready] at h
    exact .inl ⟨hdel, h⟩

theorem issueDeclaration_spec {object : DeclaredObject}
    {readyReason readyMessage pendingPhase pendingMessage : String} {status : DeclaredStatus}
    (hdel : object.deleting = false)
    (h : .status status ∈
      issueDeclaration object readyReason readyMessage pendingPhase pendingMessage) :
    StatusSpec object status := by
  rcases mem_cons.mp h with h | h
  · cases h
  split at h
  · rename_i hcur
    split at h
    · cases h
    obtain rfl := DeclarationWrite.status.inj (mem_singleton.mp h)
    refine ⟨?_, fun _ => .inr ⟨hdel, hcur.1, hcur.2⟩⟩
    rw [conditionTrue_withCondition, if_neg (by decide)]
  · obtain rfl := DeclarationWrite.status.inj (mem_singleton.mp h)
    exact statusSpec_notReady rfl

theorem reconcileDeclarationDeletion_spec {noun : String} {parent : ParentRead}
    {object : DeclaredObject} {status : DeclaredStatus} (hdel : object.deleting = true)
    (h : .status status ∈ reconcileDeclarationDeletion noun parent object) :
    StatusSpec object status := by
  have horphaned : ∀ reason message, StatusSpec object (object.withCondition
      { object.status with observedGeneration := object.generation, phase := "Orphaned" }
      "DeletionBlocked" .true reason message) :=
    fun _ _ => statusSpec_blocked hdel rfl rfl
  unfold reconcileDeclarationDeletion at h
  split at h
  · cases mem_singleton.mp h
  split at h
  · split at h
    · rcases mem_cons.mp h with h | h
      · obtain rfl := DeclarationWrite.status.inj h
        refine statusSpec_blocked hdel (horphaned _ _).succeeded ?_
        rw [conditionTrue_withCondition, if_neg (by decide)]
      · cases mem_singleton.mp h
    · obtain rfl := DeclarationWrite.status.inj (mem_singleton.mp h)
      exact horphaned _ _
  · cases h
  rcases mem_cons.mp h with h | h
  · cases h
  · obtain rfl := DeclarationWrite.status.inj (mem_singleton.mp h)
    exact statusSpec_blocked hdel rfl rfl

theorem reconcileDeclared_spec {parent : ParentRead}
    {databases : String → Except String DatabaseView} {object : DeclaredObject}
    {status : DeclaredStatus} (h : .status status ∈ reconcileDeclared parent databases object) :
    StatusSpec object status := by
  unfold reconcileDeclared at h
  split at h
  · unfold reconcileDatabase at h
    split at h
    · cases mem_singleton.mp h
    split at h
    · exact reconcileDeclarationDeletion_spec ‹_› h
    rename_i hdel
    split at h
    · obtain rfl := DeclarationWrite.status.inj (mem_singleton.mp h)
      exact statusSpec_notReady rfl
    · obtain rfl := DeclarationWrite.status.inj (mem_singleton.mp h)
      exact statusSpec_notReady rfl
    · exact issueDeclaration_spec (Bool.eq_false_iff.mpr hdel) h
  · unfold reconcileUser at h
    split at h
    · cases mem_singleton.mp h
    split at h
    · exact reconcileDeclarationDeletion_spec ‹_› h
    rename_i hdel
    split at h
    · obtain rfl := DeclarationWrite.status.inj (mem_singleton.mp h)
      exact statusSpec_notReady rfl
    · exact issueDeclaration_spec (Bool.eq_false_iff.mpr hdel) h

/-! ## Recorded results -/

theorem recordDatabaseEvidence_conditions (parseNames : String → Option (List String))
    (status : DeclaredStatus) (c : Condition) :
    (recordDatabaseEvidence parseNames status c).conditions = status.conditions := by
  unfold recordDatabaseEvidence
  repeat' split
  all_goals rfl

theorem recordUserEvidence_conditions (status : DeclaredStatus) (c : Condition) :
    (recordUserEvidence status c).conditions = status.conditions := by
  unfold recordUserEvidence
  repeat' split
  all_goals rfl

theorem foldl_conditions {f : DeclaredStatus → Condition → DeclaredStatus}
    (hf : ∀ status c, (f status c).conditions = status.conditions) (reported : List Condition)
    (status : DeclaredStatus) : (reported.foldl f status).conditions = status.conditions := by
  induction reported generalizing status with
  | nil => rfl
  | cons c rest ih => rw [foldl_cons, ih, hf]

theorem recordDeclaredResult_conditions (parseNames : String → Option (List String))
    (siteName : String) (deleting : Bool) (result : PlanResult) (object : DeclaredObject) :
    (recordDeclaredResult parseNames siteName deleting result object).status.conditions =
      result.conditions.foldl (fun cs c =>
        Condition.set cs { c with observedGeneration := object.generation })
        object.status.conditions := by
  unfold recordDeclaredResult
  cases object.kind with
  | database => exact foldl_conditions (recordDatabaseEvidence_conditions parseNames) _ _
  | user => exact foldl_conditions recordUserEvidence_conditions _ _

theorem conditionTrue_foldl {reported conditions : List Condition} {generation : Nat}
    {type : String}
    (h : conditionTrue (reported.foldl (fun cs c =>
      Condition.set cs { c with observedGeneration := generation }) conditions) type = true) :
    conditionTrue conditions type = true ∨
      ∃ c ∈ reported, c.type = type ∧ c.status = .true := by
  induction reported generalizing conditions with
  | nil => exact .inl h
  | cons c rest ih =>
    rcases ih h with h | ⟨d, hd, hdtype⟩
    · rw [conditionTrue, Condition.isTrue_set] at h
      split at h
      · rename_i htype
        exact .inr ⟨c, mem_cons_self, htype, of_decide_eq_true h⟩
      · exact .inl h
    · exact .inr ⟨d, mem_cons_of_mem _ hd, hdtype⟩

/-! ## The invariant -/

/-- Success and readiness belong to the generation the object has. -/
structure Backed (s : DeclarationState) : Prop where
  succeeded : s.stored.deleting = false →
    conditionTrue s.stored.status.conditions "Succeeded" = true →
    directiveOperationUID s.stored false ∈ s.received
  ready : conditionTrue s.stored.status.conditions "Ready" = true →
    s.stored.deleting = false ∧ s.stored.status.observedGeneration = s.stored.generation ∧
      directiveOperationUID s.stored false ∈ s.received

theorem Backed.readyBacked {s : DeclarationState} (h : Backed s) : ReadyBacked s := by
  intro hready
  obtain ⟨-, hobs, hreceived⟩ := h.ready hready
  rw [hobs]
  exact hreceived

theorem Backed.of_eq {s t : DeclarationState} (h : Backed s)
    (hstatus : t.stored.status = s.stored.status)
    (hdel : t.stored.deleting = s.stored.deleting)
    (hgen : t.stored.generation = s.stored.generation)
    (huid : t.stored.uid = s.stored.uid) (hreceived : t.received = s.received) : Backed t := by
  have hop : directiveOperationUID t.stored false = directiveOperationUID s.stored false := by
    rw [directiveOperationUID, directiveOperationUID, huid, hgen]
  constructor
  · rw [hstatus, hdel, hop, hreceived]
    exact h.succeeded
  · rw [hstatus, hdel, hgen, hop, hreceived]
    exact h.ready

theorem Backed.status {s : DeclarationState} {status : DeclaredStatus} (h : Backed s)
    (hspec : StatusSpec s.stored status) : Backed (s.store { s.stored with status := status }) := by
  constructor
  · intro hdel hsucceeded
    exact h.succeeded hdel (hspec.succeeded.symm.trans hsucceeded)
  intro hready
  rcases hspec.ready hready with ⟨hdel, hready⟩ | ⟨hdel, hobs, hsucceeded⟩
  · have hnot := (h.ready hready).1
    rw [hdel] at hnot
    cases hnot
  · exact ⟨hdel, hobs, h.succeeded hdel hsucceeded⟩

theorem Backed.applyWrites {view : DeclaredObject} {writes : List DeclarationWrite}
    (hspec : ∀ status, .status status ∈ writes → StatusSpec view status) {s : DeclarationState}
    (h : Backed s) : Backed (applyWrites view s writes) := by
  induction writes generalizing s with
  | nil => exact h
  | cons w rest ih =>
    have hrest := fun status hs => hspec status (mem_cons_of_mem _ hs)
    cases w with
    | directive deleting => exact ih hrest (h.of_eq rfl rfl rfl rfl rfl)
    | status status =>
      unfold DeclarationState.applyWrites
      split
      · rename_i hview
        exact ih hrest (h.status (hview ▸ hspec status mem_cons_self))
      · exact h
    | addFinalizer | removeFinalizer reread =>
      unfold DeclarationState.applyWrites
      split
      · exact ih hrest (h.of_eq rfl rfl rfl rfl rfl)
      · exact h

theorem Backed.record {s : DeclarationState} {siteName : String}
    {parseNames : String → Option (List String)} {result : PlanResult} {deleting : Bool}
    (h : Backed s) (hplain : reportsPlainly result.conditions)
    (hcur : result.operationUID = directiveOperationUID s.stored s.stored.deleting)
    (hreceived : directiveSucceeded result.conditions = true → result.operationUID ∈ s.received) :
    Backed (s.store (recordDeclaredResult parseNames siteName deleting result s.stored)) := by
  constructor
  · intro hdel hsucceeded
    replace hdel : s.stored.deleting = false := hdel
    rw [DeclarationState.store, recordDeclaredResult_conditions] at hsucceeded
    rcases conditionTrue_foldl hsucceeded with hbefore | hreported
    · exact h.succeeded hdel hbefore
    have hop : directiveOperationUID s.stored false = result.operationUID := by
      rw [hcur, hdel]
    exact hop ▸ hreceived (hplain.2 hreported)
  · intro hready
    rw [DeclarationState.store, recordDeclaredResult_conditions] at hready
    rcases conditionTrue_foldl hready with hbefore | ⟨c, hc, htype, -⟩
    · obtain ⟨hdel, -, hreceived⟩ := h.ready hbefore
      exact ⟨hdel, rfl, hreceived⟩
    · exact absurd htype (hplain.1 c hc)

theorem Backed.received {s : DeclarationState} {received : List String} (h : Backed s)
    (hkept : ∀ op ∈ s.received, op ∈ received) : Backed { s with received := received } where
  succeeded hdel hsucceeded := hkept _ (h.succeeded hdel hsucceeded)
  ready hready := by
    obtain ⟨hdel, hobs, hreceived⟩ := h.ready hready
    exact ⟨hdel, hobs, hkept _ hreceived⟩

theorem Backed.step {s t : DeclarationState} {e : DeclarationEvent} (h : Backed s)
    (hok : orderly s e) (hst : s.step e = some t) : Backed t := by
  unfold DeclarationState.step at hst
  split at hst
  · cases hst
  cases e with
  | edit =>
    obtain rfl := Option.some.inj hst
    obtain ⟨hsucceeded, hready⟩ := hok
    exact ⟨fun _ hs => absurd (hsucceeded.symm.trans hs) (by decide),
      fun hr => absurd (hready.symm.trans hr) (by decide)⟩
  | annotate =>
    obtain rfl := Option.some.inj hst
    exact h.of_eq rfl rfl rfl rfl rfl
  | requestDeletion =>
    obtain rfl := Option.some.inj hst
    exact ⟨fun hdel => (by cases hdel),
      fun hr => absurd ((hok : _ = false).symm.trans hr) (by decide)⟩
  | reconcile view parent databases writes =>
    dsimp only at hst
    split at hst
    · obtain rfl := Option.some.inj hst
      exact h.applyWrites fun status hs =>
        reconcileDeclared_spec (mem_of_mem_take hs)
    · cases hst
  | deliver instanceName =>
    dsimp only at hst
    split at hst
    · split at hst
      · obtain rfl := Option.some.inj hst
        exact h.of_eq rfl rfl rfl rfl rfl
      · cases hst
    · cases hst
  | result siteName parseNames result =>
    dsimp only at hst
    split at hst
    · obtain rfl := Option.some.inj hst
      obtain ⟨hplain, hcur⟩ := hok
      have hkept : Backed { s with received := if directiveSucceeded result.conditions then
          result.operationUID :: s.received else s.received } := by
        refine h.received fun op hop => ?_
        split
        · exact mem_cons_of_mem _ hop
        · exact hop
      unfold DeclarationState.record
      split
      · rename_i map hmap
        split
        · rename_i hop
          refine hkept.record hplain (hcur map hmap hop) fun hsucceeded => ?_
          rw [if_pos hsucceeded]
          exact mem_cons_self
        · exact hkept
      · exact hkept
    · cases hst

open Machine

/-- In every run in which edits and deletions come before success and results arrive for the
current generation, a generation shown as ready was reported as successful. -/
theorem readyBacked_of_reach {s : DeclarationState}
    (h : Reach step Initial orderly s) : ReadyBacked s := by
  refine (h.invariant (fun s hinit => ?_) fun _ _ _ hinv hok hst => hinv.step hok hst :
    Backed s).readyBacked
  constructor
  · intro _ hsucceeded
    rw [hinit.status] at hsucceeded
    cases hsucceeded
  · intro hready
    rw [hinit.status] at hready
    cases hready

/-! ## Ready without a result -/

def created (kind : DeclarationKind) : DeclarationState :=
  let object : DeclaredObject := {
    kind := kind
    namespaceName := "database-platform"
    name := "orders-api"
    uid := "orders-api-uid"
    instanceRef := "orders"
    deletionPolicy := some .delete }
  { stored := object, versions := [object] }

theorem created_initial (kind : DeclarationKind) : Initial (created kind) :=
  ⟨rfl, rfl, rfl, rfl, rfl⟩

def reconciled (s : DeclarationState) : DeclarationEvent :=
  .reconcile s.stored (.found true) (fun ref => .error ref) 2

def sent (_ : DeclarationState) : DeclarationEvent := .deliver "orders"

def succeeds (operationUID : String) (_ : DeclarationState) : DeclarationEvent :=
  .result "production-vic" (fun _ => none) {
    instanceUID := "orders-uid"
    operationUID := operationUID
    conditions := [{ type := "Succeeded", status := .true, reason := "Executed", message := "" }] }

def edited (s : DeclarationState) : DeclarationEvent :=
  .edit s.stored.instanceRef s.stored.deletionPolicy s.stored.memberOf "edited"

def issued : List (DeclarationState → DeclarationEvent) := [reconciled, reconciled, sent]

def completed : List (DeclarationState → DeclarationEvent) :=
  issued ++ [succeeds "orders-api-uid-1-false", reconciled]

/-- The specification is edited after the success; two reconciles follow. -/
def editedScript : List (DeclarationState → DeclarationEvent) :=
  completed ++ [edited, reconciled, reconciled]

/-- The specification is edited before the result of the first generation arrives. -/
def lateScript : List (DeclarationState → DeclarationEvent) :=
  issued ++ [edited, succeeds "orders-api-uid-1-false", reconciled]

def deletedScript : List (DeclarationState → DeclarationEvent) :=
  completed ++ [fun _ => .requestDeletion, reconciled]

def after (ok : DeclarationState → DeclarationEvent → Prop) [∀ s e, Decidable (ok s e)]
    (kind : DeclarationKind) (script : List (DeclarationState → DeclarationEvent)) :
    DeclarationState :=
  reached step ok (created kind) script

/-- A script leads declarations of both kinds to a status that shows a generation as ready
for which no result was received. -/
def ShownUnbacked (script : List (DeclarationState → DeclarationEvent)) : Prop :=
  ∀ kind, Reach step Initial anyStep (after anyStep kind script) ∧
    ¬ ReadyBacked (after anyStep kind script)

theorem shownUnbacked_of_play {script : List (DeclarationState → DeclarationEvent)}
    (h : ∀ kind, (play step anyStep (created kind) script).any
      (fun s => decide (¬ ReadyBacked s)) = true) : ShownUnbacked script := by
  intro kind
  exact played (created_initial kind) (h kind)

theorem declarations_shown_unbacked :
    ShownUnbacked editedScript ∧ ShownUnbacked lateScript ∧ ShownUnbacked deletedScript := by
  refine ⟨shownUnbacked_of_play ?_, shownUnbacked_of_play ?_, shownUnbacked_of_play ?_⟩ <;>
    intro kind <;> cases kind <;> decide +kernel

def redeclared : DeclarationState :=
  after orderly .database [reconciled, edited, reconciled, sent,
    succeeds "orders-api-uid-2-false", reconciled]

def ShownReady (s : DeclarationState) : Prop :=
  conditionTrue s.stored.status.conditions "Ready" = true
deriving Decidable

theorem redeclared_reach : Reach step Initial orderly redeclared ∧ ShownReady redeclared := by
  unfold redeclared after
  exact played (P := ShownReady) (created_initial .database) (by decide +kernel)

theorem redeclared_readyBacked : ShownReady redeclared ∧ ReadyBacked redeclared :=
  ⟨redeclared_reach.2, readyBacked_of_reach redeclared_reach.1⟩

end DeclarationState

end Mspsql
