import Mspsql.Agent.Cache
import Mspsql.Agent.DirectiveRecord

/-!
# Listing the cached plans

Plans and directive states are ConfigMaps of one namespace, and both carry the label of the
agent and the UID of their instance.  `Cache.List` selects by the label of the agent alone.
So it loads the plan of an instance once more for every directive that has run for it, and
fails when the instance has no plan (`list_iff`).
-/

namespace Mspsql

open Wire List

def directiveStateLabel : String := "multisite-postgres.dev/directive-state"

def DirectivePhase.text : DirectivePhase → String
  | .running => "Running"
  | .succeeded => "Succeeded"
  | .failed => "Failed"

namespace AgentConfigMap

def managed (m : AgentConfigMap) : Bool := m.labels.get? managedByLabel = some "mspsql-agent"

def instanceUID (m : AgentConfigMap) : String := (m.labels.get? instanceUIDLabel).getD ""

def isDirectiveState (m : AgentConfigMap) : Bool := m.labels.get? directiveStateLabel = some "true"

def holdsPlan (m : AgentConfigMap) : Bool := (m.data.get? "site-plan.json").isSome

end AgentConfigMap

/-! ## Directive states -/

/-- The name of the record of an operation; `digest` is the front of the hash of its UID. -/
def directiveStateName (digest : String → String) (operationUID : String) : String :=
  "mspsql-directive-" ++ digest operationUID

/-- `encodeDirectiveState`. -/
def directiveData (state : DirectiveState) (conditionsJSON updatedAt : GoString) :
    SortedMap String GoString :=
  .ofList [("operationUID", .ofString state.operationUID),
    ("instanceUID", .ofString state.instanceUID), ("phase", .ofString state.phase.text),
    ("conditions.json", conditionsJSON), ("updated-at", updatedAt)]

def directiveLabels (labels : StringMap) (instanceUID : String) : StringMap :=
  ((labels.insert managedByLabel "mspsql-agent").insert directiveStateLabel "true").insert
    instanceUIDLabel instanceUID

/-- `upsert`, with its calls going through. -/
def upsertState (digest : String → String) (ns : AgentNamespace) (state : DirectiveState)
    (conditionsJSON updatedAt : GoString) : AgentNamespace :=
  let name := directiveStateName digest state.operationUID
  let data := directiveData state conditionsJSON updatedAt
  match ns.get? name with
  | none => ns.insert name { labels := directiveLabels ∅ state.instanceUID, data }
  | some m =>
    if m.value "phase" = .ofString "Succeeded" ∨ m.value "phase" = .ofString "Failed" then ns
    else ns.insert name { labels := directiveLabels m.labels state.instanceUID, data }

namespace PlanCache

variable {E : Ed25519} {P : Printers TextKind}

/-- The loop of `Cache.List`. -/
def loadListed (c : PlanCache E) (ns : AgentNamespace) :
    List (String × AgentConfigMap) → Except CacheError (List (PlanDocument P))
  | [] => .ok []
  | item :: rest =>
    match c.load ns item.2.instanceUID with
    | .error reason => .error reason
    | .ok desired =>
      match c.loadListed ns rest with
      | .error reason => .error reason
      | .ok plans => .ok (desired :: plans)

/-- `Cache.List`. -/
def list (c : PlanCache E) (ns : AgentNamespace) : Except CacheError (List (PlanDocument P)) :=
  c.loadListed ns (ns.entries.filter fun item => item.2.managed)

def cached (ns : AgentNamespace) : List String :=
  (ns.entries.filter fun item => item.2.holdsPlan).map fun item => item.2.instanceUID

/-! ## The agent's namespace -/

inductive NamespaceEvent where
  | store (call : StoreCall)
  | markRunning (message : Delivery) (conditionsJSON updatedAt : GoString)
  | markTerminal (message : Delivery) (conditions : List TimedCondition)
      (conditionsJSON updatedAt : GoString)

/-- Plans are stored and directives executed, in any order. -/
def advance (P : Printers TextKind) (c : PlanCache E) (digest : String → String)
    (ns : AgentNamespace) : NamespaceEvent → Option AgentNamespace
  | .store call => step P c ns call
  | .markRunning message conditionsJSON updatedAt =>
    some (upsertState digest ns (Mspsql.markRunning message) conditionsJSON updatedAt)
  | .markTerminal message conditions conditionsJSON updatedAt =>
    some (upsertState digest ns (Mspsql.markTerminal message conditions) conditionsJSON updatedAt)

/-- A ConfigMap of somebody else. -/
structure Foreign (digest : String → String) (item : String × AgentConfigMap) : Prop where
  managed : item.2.managed = false
  state : item.2.isDirectiveState = false
  plan : item.2.holdsPlan = false
  cacheName : ∀ uid, item.1 ≠ Mspsql.cacheName uid
  stateName : ∀ operationUID, item.1 ≠ directiveStateName digest operationUID

/-- The agent has not written anything yet. -/
def Unused (digest : String → String) (ns : AgentNamespace) : Prop :=
  ∀ item ∈ ns.entries, Foreign digest item

structure IsPlan (item : String × AgentConfigMap) : Prop where
  name : item.1 = cacheName item.2.instanceUID
  managed : item.2.managed = true
  state : item.2.isDirectiveState = false
  plan : item.2.holdsPlan = true

structure IsState (digest : String → String) (item : String × AgentConfigMap) : Prop where
  name : ∃ operationUID, item.1 = directiveStateName digest operationUID
  managed : item.2.managed = true
  state : item.2.isDirectiveState = true
  plan : item.2.holdsPlan = false

/-- What a namespace holds: other people's ConfigMaps, plans and directive states. -/
def Sorted (digest : String → String) (ns : AgentNamespace) : Prop :=
  ∀ item ∈ ns.entries, Foreign digest item ∨ IsPlan item ∨ IsState digest item

theorem cacheName_ne_stateName (digest : String → String) (uid operationUID : String) :
    cacheName uid ≠ directiveStateName digest operationUID :=
  Text.append_ne_append _ _ 2 (by decide) (by decide) (by decide)

theorem get?_empty_map {α : Type} (key : String) :
    (SortedMap.empty : SortedMap String α).get? key = none := rfl

theorem isPlan_planData (uid : String) (revision : Int) (planJSON : List Char)
    (signature receivedAt : GoString) :
    IsPlan (cacheName uid, ⟨planLabels uid, planData revision planJSON signature receivedAt⟩) := by
  refine ⟨?_, ?_, ?_, ?_⟩ <;>
    simp [AgentConfigMap.instanceUID, AgentConfigMap.managed, AgentConfigMap.isDirectiveState,
      AgentConfigMap.holdsPlan, planLabels, planData, SortedMap.ofList, SortedMap.get?_insert,
      get?_empty_map, managedByLabel, instanceUIDLabel, directiveStateLabel]

theorem isState_directiveData (digest : String → String) (labels : StringMap)
    (state : DirectiveState) (conditionsJSON updatedAt : GoString) :
    IsState digest (directiveStateName digest state.operationUID,
      ⟨directiveLabels labels state.instanceUID,
        directiveData state conditionsJSON updatedAt⟩) := by
  refine ⟨⟨_, rfl⟩, ?_, ?_, ?_⟩ <;>
    simp [AgentConfigMap.managed, AgentConfigMap.isDirectiveState, AgentConfigMap.holdsPlan,
      directiveLabels, directiveData, SortedMap.ofList, SortedMap.get?_insert, get?_empty_map,
      managedByLabel,
      instanceUIDLabel, directiveStateLabel]

theorem mem_insert {ns : AgentNamespace} {name : String} {m : AgentConfigMap}
    {item : String × AgentConfigMap} (h : item ∈ (ns.insert name m).entries) :
    item = (name, m) ∨ item ∈ ns.entries :=
  SortedMap.mem_insertIn h

section

variable {c : PlanCache E} {digest : String → String} {ns ns' : AgentNamespace}

theorem Sorted.isPlan (h : Sorted digest ns) {uid : String} {m : AgentConfigMap}
    (hfound : ns.get? (cacheName uid) = some m) : IsPlan (cacheName uid, m) := by
  have hmem := (ns.get?_eq_some_iff _ _).mp hfound
  rcases h _ hmem with hforeign | hplan | hstate
  · exact absurd rfl (hforeign.cacheName uid)
  · exact hplan
  · obtain ⟨operationUID, hname⟩ := hstate.name
    exact absurd hname (cacheName_ne_stateName digest uid operationUID)

theorem Sorted.put (h : Sorted digest ns) {uid : String} {revision : Int} {planJSON : List Char}
    {signature receivedAt : GoString}
    (hput : Put ns uid (planData revision planJSON signature receivedAt) ns') :
    Sorted digest ns' := by
  intro item hitem
  cases hput with
  | created =>
    rcases mem_insert hitem with rfl | hitem
    · exact .inr (.inl (isPlan_planData uid revision planJSON signature receivedAt))
    · exact h item hitem
  | kept => exact h item hitem
  | @replaced m hfound _ =>
    rcases mem_insert hitem with rfl | hitem
    · -- the labels stay, the data are those of a plan
      have hplan := h.isPlan hfound
      exact .inr (.inl ⟨hplan.name, hplan.managed, hplan.state,
        (isPlan_planData uid revision planJSON signature receivedAt).plan⟩)
    · exact h item hitem

theorem Sorted.upsertState (h : Sorted digest ns) (state : DirectiveState)
    (conditionsJSON updatedAt : GoString) :
    Sorted digest (upsertState digest ns state conditionsJSON updatedAt) := by
  intro item hitem
  rw [Mspsql.upsertState] at hitem
  split at hitem
  · rcases mem_insert hitem with rfl | hitem
    · exact .inr (.inr (isState_directiveData digest ∅ state conditionsJSON updatedAt))
    · exact h item hitem
  · rename_i m _
    split at hitem
    · exact h item hitem
    · rcases mem_insert hitem with rfl | hitem
      · exact .inr (.inr (isState_directiveData digest m.labels state conditionsJSON updatedAt))
      · exact h item hitem

open Machine

theorem sorted_of_reach (h : Reach (advance P c digest) (Unused digest) anyStep ns) :
    Sorted digest ns := by
  refine h.invariant (fun s hs item hitem => .inl (hs item hitem)) (fun s e t hs _ hst => ?_)
  cases e with
  | store call =>
    cases hst
    cases hr : c.store call.now call.calls s call.envelope call.instanceUID with
    | mk r ns' =>
      cases r with
      | error reason => rwa [store_error hr]
      | ok desired =>
        obtain ⟨least, v, -, -, -, -, hput⟩ := store_ok hr
        exact hs.put hput
  | markRunning message conditionsJSON updatedAt
  | markTerminal message conditions conditionsJSON updatedAt =>
    cases hst
    exact hs.upsertState _ _ _

/-! ## The list -/

theorem load_instanceUID {uid : String} {p : PlanDocument P} (h : c.load ns uid = .ok p) :
    p.instanceUID = .ofString uid := by
  rw [load] at h
  split at h
  · cases h
  · rw [read] at h
    split at h
    · cases h
    · split at h
      · rename_i hverify
        cases h
        exact (PlanDocument.verify_ok_iff.mp hverify).1.instance'
      · cases h

theorem loadListed_ok {l : List (String × AgentConfigMap)} {plans : List (PlanDocument P)}
    (h : c.loadListed ns l = .ok plans) :
    plans.map (·.instanceUID) = l.map fun item => .ofString item.2.instanceUID := by
  induction l generalizing plans with
  | nil =>
    cases h
    rfl
  | cons item l ih =>
    rw [loadListed] at h
    split at h
    · cases h
    · rename_i hload
      split at h
      · cases h
      · rename_i hrest
        cases h
        rw [map_cons, map_cons, load_instanceUID hload, ih hrest]

theorem exists_loadListed {l : List (String × AgentConfigMap)}
    (h : ∀ item ∈ l, ∃ p : PlanDocument P, c.load ns item.2.instanceUID = .ok p) :
    ∃ plans : List (PlanDocument P), c.loadListed ns l = .ok plans := by
  induction l with
  | nil => exact ⟨[], rfl⟩
  | cons item l ih =>
    obtain ⟨⟨p, hp⟩, hl⟩ := forall_mem_cons.mp h
    obtain ⟨plans, hplans⟩ := ih hl
    refine ⟨p :: plans, ?_⟩
    rw [loadListed, hp]
    rw [hplans]

theorem Sorted.nodup_cached (h : Sorted digest ns) : (cached ns).Nodup := by
  have hnames : (cached ns).map cacheName =
      (ns.entries.filter fun item => item.2.holdsPlan).map Prod.fst := by
    rw [cached, map_map]
    refine map_congr_left fun item hitem => ?_
    obtain ⟨hmem, hplan⟩ := mem_filter.mp hitem
    rcases h item hmem with hforeign | hisPlan | hstate
    · rw [hforeign.plan] at hplan
      cases hplan
    · exact hisPlan.name.symm
    · rw [hstate.plan] at hplan
      cases hplan
  have hnodup : ((ns.entries.filter fun item => item.2.holdsPlan).map Prod.fst).Nodup :=
    ns.keys_nodup.sublist (filter_sublist.map Prod.fst)
  rw [← hnames] at hnodup
  exact hnodup.of_map cacheName

theorem Sorted.managed_iff (h : Sorted digest ns) {item : String × AgentConfigMap}
    (hitem : item ∈ ns.entries) :
    item.2.managed = true ↔ item.2.holdsPlan = true ∨ item.2.isDirectiveState = true := by
  rcases h item hitem with hforeign | hplan | hstate
  · simp [hforeign.managed, hforeign.plan, hforeign.state]
  · simp [hplan.managed, hplan.plan]
  · simp [hstate.managed, hstate.state]

theorem Sorted.not_plan_of_state (h : Sorted digest ns) {item : String × AgentConfigMap}
    (hitem : item ∈ ns.entries) (hstate : item.2.isDirectiveState = true) :
    item.2.holdsPlan = false := by
  rcases h item hitem with hforeign | hplan | hstate'
  · exact hforeign.plan
  · rw [hplan.state] at hstate
    cases hstate
  · exact hstate'.plan

end

open Machine

/-- In every namespace that stores and directives lead to, if each cached plan can be loaded,
then the list succeeds with exactly one plan for each cached instance exactly if there is no
directive state in the namespace. -/
theorem list_iff (c : PlanCache E) (digest : String → String) {ns : AgentNamespace}
    (h : Reach (advance P c digest) (Unused digest) anyStep ns)
    (hload : ∀ uid ∈ cached ns, ∃ p : PlanDocument P, c.load ns uid = .ok p) :
    (∃ plans : List (PlanDocument P), c.list ns = .ok plans ∧ (cached ns).Nodup ∧
      plans.map (·.instanceUID) = (cached ns).map GoString.ofString) ↔
    ∀ item ∈ ns.entries, item.2.isDirectiveState = false := by
  have hsorted := sorted_of_reach h
  constructor
  · rintro ⟨plans, hlist, -, hplans⟩ item hitem
    have hlength : (ns.entries.filter fun item => item.2.holdsPlan).length =
        (ns.entries.filter fun item => item.2.managed).length := by
      have hlisted := congrArg List.length (loadListed_ok hlist)
      rw [hplans] at hlisted
      simpa [cached] using hlisted
    have hboth : ns.entries.filter (fun item => item.2.holdsPlan && item.2.managed) =
        ns.entries.filter fun item => item.2.holdsPlan := by
      refine filter_congr fun item hitem => ?_
      have hmanaged := (hsorted.managed_iff hitem).mpr
      cases hplan : item.2.holdsPlan with
      | false => rfl
      | true => simpa using hmanaged (.inl hplan)
    have hsub : (ns.entries.filter fun item => item.2.holdsPlan).Sublist
        (ns.entries.filter fun item => item.2.managed) := by
      rw [← hboth, ← filter_filter]
      exact filter_sublist
    have hsame := hsub.eq_of_length hlength
    by_contra hstate
    rw [Bool.not_eq_false] at hstate
    have hmanaged : item ∈ ns.entries.filter fun item => item.2.managed :=
      mem_filter.mpr ⟨hitem, (hsorted.managed_iff hitem).mpr (.inr hstate)⟩
    rw [← hsame] at hmanaged
    have hplan := (mem_filter.mp hmanaged).2
    rw [hsorted.not_plan_of_state hitem hstate] at hplan
    cases hplan
  · intro hnone
    have hfilter : ns.entries.filter (fun item => item.2.managed) =
        ns.entries.filter fun item => item.2.holdsPlan := by
      refine filter_congr fun item hitem => ?_
      rw [Bool.eq_iff_iff, hsorted.managed_iff hitem, hnone item hitem]
      simp
    obtain ⟨plans, hplans⟩ := exists_loadListed fun item hitem =>
      hload item.2.instanceUID (mem_map_of_mem hitem)
    refine ⟨plans, ?_, hsorted.nodup_cached, ?_⟩
    · rw [list, hfilter]
      exact hplans
    · rw [loadListed_ok hplans, cached, map_map]
      rfl

theorem unused_empty (digest : String → String) : Unused digest ∅ :=
  fun _ hitem => absurd hitem not_mem_nil

/-- The first plan of an instance is stored. -/
def offered (uid : String) (_ : AgentNamespace) : NamespaceEvent :=
  .store {
    now := []
    calls := {}
    envelope := ((barePlan (.ofString "site") (.ofString uid) [] ⟨1, one_fits⟩).sign
      oneKey ()).toOption.getD { plan := none, signature := [] }
    instanceUID := uid }

def adopting (_ : AgentNamespace) : NamespaceEvent :=
  .markRunning { operationUID := "adopt", instanceUID := "instance" } [] []

def namespaceAfter : List (AgentNamespace → NamespaceEvent) → AgentNamespace :=
  reached (advance plainPrinters boundCache id) anyStep ∅

def Listed (uids : List String) (plans : Option (List String)) (ns : AgentNamespace) : Prop :=
  cached ns = uids ∧ (boundCache.list (P := plainPrinters) ns).toOption.map
    (·.map (·.instanceUID)) = plans.map (·.map .ofString)
deriving Decidable

/-- A directive makes the list fail, or return a plan twice. -/
theorem list_disturbed :
    (Reach (advance plainPrinters boundCache id) (Unused id) anyStep (namespaceAfter [adopting]) ∧
      Listed [] none (namespaceAfter [adopting])) ∧
    Reach (advance plainPrinters boundCache id) (Unused id) anyStep
        (namespaceAfter [offered "instance", adopting]) ∧
      Listed ["instance"] (some ["instance", "instance"])
        (namespaceAfter [offered "instance", adopting]) :=
  ⟨played (P := Listed [] none) (unused_empty id) (by decide +kernel),
    played (P := Listed ["instance"] (some ["instance", "instance"])) (unused_empty id)
      (by decide +kernel)⟩

def twoPlanned : AgentNamespace := namespaceAfter [offered "instance", offered "ledger"]

def Loads (ns : AgentNamespace) : Prop :=
  cached ns = ["instance", "ledger"] ∧
    (∀ uid ∈ cached ns, (boundCache.load (P := plainPrinters) ns uid).isOk = true) ∧
    ∀ item ∈ ns.entries, item.2.isDirectiveState = false
deriving Decidable

theorem twoPlanned_reach : Reach (advance plainPrinters boundCache id) (Unused id) anyStep
      twoPlanned ∧ Loads twoPlanned := by
  unfold twoPlanned namespaceAfter
  exact played (P := Loads) (unused_empty id) (by decide +kernel)

theorem list_of_two_plans : cached twoPlanned = ["instance", "ledger"] ∧
    ∃ plans : List (PlanDocument plainPrinters), boundCache.list twoPlanned = .ok plans ∧
      (cached twoPlanned).Nodup ∧
      plans.map (·.instanceUID) = (cached twoPlanned).map GoString.ofString := by
  obtain ⟨hreach, hcached, hok, hnone⟩ := twoPlanned_reach
  refine ⟨hcached, (list_iff boundCache id hreach fun uid huid => ?_).mpr hnone⟩
  have hisOk := hok uid huid
  cases hload : boundCache.load twoPlanned uid with
  | error reason =>
    rw [hload] at hisOk
    cases hisOk
  | ok p => exact ⟨p, rfl⟩

end PlanCache

end Mspsql
