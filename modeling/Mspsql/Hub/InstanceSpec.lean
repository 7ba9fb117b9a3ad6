import Mspsql.Hub.Instance

/-!
# What an instance reconcile can do

Everything later proofs need to know about `reconcile`: the conditions it touches, that
nothing else of the instance changes before plans are issued, and what the issued plans
and the written status carry.
-/

namespace Mspsql

open List

namespace MultiSitePostgres

/-- The instance without what validation and observation write: conditions, phase,
topology and the observed generation. -/
def core (i : MultiSitePostgres) : MultiSitePostgres :=
  { i with status := { i.status with
      conditions := [], phase := "", primary := "", synchronousStandbys := []
      observedGeneration := 0 } }

@[simp] theorem core_setCondition (i : MultiSitePostgres) (type : String)
    (status : ConditionStatus) (reason message : String) :
    (i.setCondition type status reason message).core = i.core := rfl

@[simp] theorem core_setPhase (i : MultiSitePostgres) (phase : String) :
    (i.setPhase phase).core = i.core := rfl

section Core

variable {i j : MultiSitePostgres} (h : i.core = j.core)
include h

theorem spec_of_core : i.spec = j.spec := congrArg (·.spec) h

theorem annotations_of_core : i.annotations = j.annotations := congrArg (·.annotations) h

theorem generation_of_core : i.generation = j.generation := congrArg (·.generation) h

theorem uid_of_core : i.uid = j.uid := congrArg (·.uid) h

theorem name_of_core : i.name = j.name := congrArg (·.name) h

theorem namespace_of_core : i.namespaceName = j.namespaceName := congrArg (·.namespaceName) h

theorem sites_of_core : i.status.sites = j.status.sites := congrArg (·.status.sites) h

theorem activeRevision_of_core : i.status.activeRevision = j.status.activeRevision :=
  congrArg (·.status.activeRevision) h

theorem planFingerprint_of_core : i.status.planFingerprint = j.status.planFingerprint :=
  congrArg (·.status.planFingerprint) h

theorem backupSchedules_of_core : i.status.backupSchedules = j.status.backupSchedules :=
  congrArg (·.status.backupSchedules) h

end Core

end MultiSitePostgres

open MultiSitePostgres

def hubConditions : List String :=
  ["DatabasesReconciled", "UpgradeInProgress", "SitesRegistered", "StorageValidated",
    "AgentsConnected", "ControlPlaneDegraded", "TopologyAuthoritative", "TopologyReady",
    "SynchronousReplicationReady", "Ready", "BackupReady", "DeletionBlocked"]

def observedConditions : List String :=
  ["DatabasesReconciled", "UpgradeInProgress", "SitesRegistered", "StorageValidated",
    "AgentsConnected", "ControlPlaneDegraded", "TopologyAuthoritative", "TopologyReady",
    "SynchronousReplicationReady", "Ready"]

theorem hubConditions_of_observed {type : String} (h : type ∈ observedConditions) :
    type ∈ hubConditions := by
  have hsub : ∀ t ∈ observedConditions, t ∈ hubConditions := by decide
  exact hsub type h

variable {i view : MultiSitePostgres} {reads : HubReads} {sites : List PostgresSiteSpec}

theorem mem_setCondition {type : String} (htype : type ∈ hubConditions) {status : ConditionStatus}
    {reason message : String} {c : Condition}
    (h : c ∈ (i.setCondition type status reason message).status.conditions) :
    c.type ∈ hubConditions ∨ c ∈ i.status.conditions := by
  rcases Condition.mem_set h with rfl | h
  · exact .inl htype
  · exact .inr h

/-- The second instance is the first one with conditions of the controller's own, a phase
and a topology written into it. -/
structure Observed (i j : MultiSitePostgres) : Prop where
  core : j.core = i.core
  conditions : ∀ c ∈ j.status.conditions, c.type ∈ hubConditions ∨ c ∈ i.status.conditions
  others : ∀ type ∉ observedConditions,
    Condition.find? j.status.conditions type = Condition.find? i.status.conditions type
  distinct : (i.status.conditions.map (·.type)).Nodup → (j.status.conditions.map (·.type)).Nodup

namespace Observed

variable {i j k : MultiSitePostgres}

theorem refl (i : MultiSitePostgres) : Observed i i := ⟨rfl, fun _ => .inr, fun _ _ => rfl, id⟩

theorem trans (h : Observed i j) (h' : Observed j k) : Observed i k :=
  ⟨h'.core.trans h.core, fun c hc => (h'.conditions c hc).elim .inl (h.conditions c),
    fun type htype => (h'.others type htype).trans (h.others type htype),
    fun hi => h'.distinct (h.distinct hi)⟩

theorem setCondition (h : Observed i j) {type : String} (htype : type ∈ observedConditions)
    {status : ConditionStatus} {reason message : String} :
    Observed i (j.setCondition type status reason message) where
  core := by rw [core_setCondition, h.core]
  conditions c hc :=
    (mem_setCondition (hubConditions_of_observed htype) hc).elim .inl (h.conditions c)
  others other hother := by
    have hne : type ≠ other := fun heq => hother (heq ▸ htype)
    exact (Condition.find?_set ..).trans ((if_neg hne).trans (h.others other hother))
  distinct hi := Condition.nodup_set (h.distinct hi)

theorem setPhase (h : Observed i j) {phase : String} : Observed i (j.setPhase phase) :=
  ⟨h.core, h.conditions, h.others, h.distinct⟩

theorem withTopology (h : Observed i j) {primary : String} {standbys : List String} :
    Observed i { j with status := { j.status with
      primary := primary, synchronousStandbys := standbys } } :=
  ⟨h.core, h.conditions, h.others, h.distinct⟩

end Observed

/-- The conditions the restore controller waits for. -/
def acceptanceConditions : List String := ["TopologyReady", "Ready"]

/-- Neither of the two conditions has become true. -/
def Lowers (i j : MultiSitePostgres) : Prop :=
  ∀ type ∈ acceptanceConditions, Condition.Lowered type i.status.conditions j.status.conditions

/-- What an early exit has made of the instance. -/
structure Withdrawn (i j : MultiSitePostgres) : Prop extends Observed i j where
  lowers : Lowers i j

namespace Withdrawn

variable {i j k : MultiSitePostgres}

theorem refl (i : MultiSitePostgres) : Withdrawn i i := ⟨.refl i, fun _ _ => .refl ..⟩

theorem trans (h : Withdrawn i j) (h' : Withdrawn j k) : Withdrawn i k :=
  ⟨h.toObserved.trans h'.toObserved,
    fun type htype => (h.lowers type htype).trans (h'.lowers type htype)⟩

theorem setCondition (h : Withdrawn i j) {type : String} {status : ConditionStatus}
    {reason message : String} (htype : type ∈ observedConditions ∧
      (type ∈ acceptanceConditions → status = .false)) :
    Withdrawn i (j.setCondition type status reason message) := by
  refine ⟨h.toObserved.setCondition htype.1, fun other hother => ?_⟩
  refine (h.lowers other hother).set fun hsame hstatus => ?_
  obtain rfl : type = other := hsame
  exact nomatch (htype.2 hother).symm.trans hstatus

theorem setPhase (h : Withdrawn i j) {phase : String} : Withdrawn i (j.setPhase phase) :=
  ⟨h.toObserved.setPhase, h.lowers⟩

theorem withTopology (h : Withdrawn i j) {primary : String} {standbys : List String} :
    Withdrawn i { j with status := { j.status with
      primary := primary, synchronousStandbys := standbys } } :=
  ⟨h.toObserved.withTopology, h.lowers⟩

end Withdrawn

/-! ## Before plans are issued -/

theorem checkSites_error {e : MultiSitePostgres} (h : checkSites reads i sites = .error e) :
    Withdrawn i e := by
  induction sites with
  | nil => cases h
  | cons site rest ih =>
    rw [checkSites] at h
    split at h
    · rw [← Except.error.inj h]
      exact (((((Withdrawn.refl i).setCondition (by decide)).setCondition (by decide)).setCondition
        (by decide)).setCondition (by decide)).setPhase
    · split at h
      · rw [← Except.error.inj h]
        exact ((((Withdrawn.refl i).setCondition (by decide)).setCondition (by decide)).setCondition
          (by decide)).setPhase
      · split at h
        · rename_i hrest
          cases h
          exact ih hrest
        · split at h
          · cases h
          · split at h <;> cases h

theorem aggregateDeclarationAndUpgradeStatus_withdrawn (reads : HubReads)
    (i : MultiSitePostgres) : Withdrawn i (aggregateDeclarationAndUpgradeStatus reads i) := by
  unfold aggregateDeclarationAndUpgradeStatus
  dsimp only
  split <;> split <;>
    exact ((Withdrawn.refl i).setCondition (by decide)).setCondition (by decide)

theorem withConnections_withdrawn (i : MultiSitePostgres) (n : Nat) :
    Withdrawn i (withConnections i n) := by
  unfold withConnections
  split <;> exact ((Withdrawn.refl i).setCondition (by decide)).setCondition (by decide)

theorem withoutDataSites_withdrawn (i : MultiSitePostgres) : Withdrawn i (withoutDataSites i) :=
  (((((Withdrawn.refl i).setCondition (by decide)).withTopology).setCondition
    (by decide)).setCondition (by decide)).setPhase

theorem planInputs_error {e : MultiSitePostgres} {n : Nat} (h : planInputs reads i n = .error e) :
    Withdrawn i e := by
  rw [planInputs] at h
  split at h
  · rw [← Except.error.inj h]
    exact ((Withdrawn.refl i).setCondition (by decide)).setPhase
  split at h
  · rw [← Except.error.inj h]
    exact ((Withdrawn.refl i).setCondition (by decide)).setPhase
  split at h
  · rw [← Except.error.inj h]
    exact (((Withdrawn.refl i).setCondition (by decide)).setCondition (by decide)).setPhase
  dsimp only at h
  split at h
  · rw [← Except.error.inj h]
    exact ((Withdrawn.refl i).setCondition (by decide)).setPhase
  · cases h

theorem planInputs_ok {n : Nat} {inputs : PlanInputs}
    (h : planInputs reads i n = .ok inputs) : restorePlan reads i = .ok inputs.restore ∧
      upgradePlans reads i = .ok (inputs.upgrade, inputs.major) := by
  unfold planInputs at h
  split at h
  · cases h
  rename_i hrestore
  split at h
  · cases h
  rename_i hplans
  split at h
  · cases h
  dsimp only at h
  split at h
  · cases h
  · rw [← Except.ok.inj h]
    exact ⟨hrestore, hplans⟩

theorem started_withdrawn (reads : HubReads) (i : MultiSitePostgres) :
    Withdrawn i (aggregateDeclarationAndUpgradeStatus reads { i with status := { i.status with
      observedGeneration := i.generation } }) := by
  refine Withdrawn.trans ?_ (aggregateDeclarationAndUpgradeStatus_withdrawn reads _)
  exact ⟨⟨rfl, fun _ => .inr, fun _ _ => rfl, id⟩, fun _ _ => .refl ..⟩

def registered (reads : HubReads) (i : MultiSitePostgres) : MultiSitePostgres :=
  ((aggregateDeclarationAndUpgradeStatus reads { i with status := { i.status with
    observedGeneration := i.generation } }).setCondition "SitesRegistered" .true
    "AllSitesRegistered" "All referenced sites are registered").setCondition "StorageValidated"
    .true "SitePolicyAccepted" "StorageClasses, issuers and address pools are permitted"

theorem registered_withdrawn (reads : HubReads) (i : MultiSitePostgres) :
    Withdrawn i (registered reads i) :=
  ((started_withdrawn reads i).setCondition (by decide)).setCondition (by decide)

theorem connected_withdrawn (reads : HubReads) (i : MultiSitePostgres) (n : Nat) :
    Withdrawn i (withConnections (registered reads i) n) :=
  (registered_withdrawn reads i).trans (withConnections_withdrawn _ n)

/-- What `prepare` returns: an instance whose status an early exit writes, or the instance and
inputs the plans are built from. -/
def Prepared (reads : HubReads) (i : MultiSitePostgres) :
    Except MultiSitePostgres (MultiSitePostgres × PlanInputs) → Prop
  | .error e => Withdrawn i e
  | .ok (prepared, inputs) =>
    Observed i prepared ∧ ∃ n, planInputs reads prepared n = .ok inputs

theorem prepare_spec (reads : HubReads) (i : MultiSitePostgres) :
    Prepared reads i (prepare reads i) := by
  have hregistered := registered_withdrawn reads i
  rw [prepare]
  dsimp only
  split
  · rename_i hsites
    exact (started_withdrawn reads i).trans (checkSites_error hsites)
  rename_i controlSites _
  split
  · exact (hregistered.setCondition (by decide)).setPhase
  split
  · exact hregistered.trans (withoutDataSites_withdrawn _)
  have hconnected := connected_withdrawn reads i controlSites
  split
  · rename_i hinputs
    exact hconnected.trans (planInputs_error hinputs)
  · rename_i hinputs
    exact ⟨hconnected.toObserved, controlSites, hinputs⟩

/-! ## Issuing plans -/

theorem withTopology_observed (i : MultiSitePostgres) (primary : String) (standbys : List String)
    (status : ConditionStatus) (reason message : String) :
    Observed i (withTopology i primary standbys status reason message) := by
  unfold withTopology setSynchronousReplicationCondition
  dsimp only
  split <;> exact ((((Observed.refl i).withTopology).setCondition (by decide))).setCondition
    (by decide)

theorem aggregateTopology_observed (i : MultiSitePostgres) (now : Time) :
    Observed i (aggregateTopology i now) := by
  rw [aggregateTopology]
  split
  · exact withTopology_observed ..
  dsimp only
  split
  · exact withTopology_observed ..
  · split <;> exact withTopology_observed ..

theorem setAppliedInstanceReady_observed (i : MultiSitePostgres) (restore : Option RestorePlan)
    (major : Option MajorUpgradePlan) : Observed i (setAppliedInstanceReady i restore major) := by
  have h : ∀ (phase : String) (status : ConditionStatus) (reason message : String),
      Observed i ((i.setPhase phase).setCondition "Ready" status reason message) :=
    fun _ _ _ _ => (Observed.refl i).setPhase.setCondition (by decide)
  unfold setAppliedInstanceReady
  repeat' split
  all_goals exact h ..

/-- The instance with an entry for every site its plans were written for. -/
def recordSites (i : MultiSitePostgres) (entry : PostgresSiteSpec → SiteRevisionStatus) :
    MultiSitePostgres :=
  { i with status := { i.status with sites := i.spec.sites.map entry } }

theorem settle_observed (i : MultiSitePostgres) (inputs : PlanInputs) (now : Time) :
    Observed (recordSites i (siteStatusFor i)) (settle i inputs now) := by
  have hobs := aggregateTopology_observed (recordSites i (siteStatusFor i)) now
  rw [settle]
  split
  · exact (hobs.setPhase.setCondition (by decide)).trans (setAppliedInstanceReady_observed ..)
  · exact hobs.setPhase.setCondition (by decide)

theorem signedPlans_mem {build : SiteRegistration → PostgresSiteSpec → SitePlan} {p : SitePlan}
    (h : p ∈ (signedPlans reads build sites).1) :
    ∃ site ∈ sites, ∃ registration,
      reads.registration? site.siteRegistrationRef = some registration ∧
        p = build registration site ∧ 1 ≤ p.revision := by
  induction sites with
  | nil => simp [signedPlans] at h
  | cons site rest ih =>
    rw [signedPlans] at h
    split at h
    · simp at h
    rename_i registration hreg
    split at h
    · simp at h
    rename_i hsign
    obtain ⟨rfl, hpos⟩ := SitePlan.sign_ok hsign
    rcases mem_cons.mp h with rfl | hrest
    · exact ⟨site, mem_cons_self, registration, hreg, rfl, hpos⟩
    · obtain ⟨found, hmem, hfound⟩ := ih hrest
      exact ⟨found, mem_cons_of_mem _ hmem, hfound⟩

theorem signedPlans_complete {build : SiteRegistration → PostgresSiteSpec → SitePlan}
    (h : (signedPlans reads build sites).2 = true) {site : PostgresSiteSpec}
    (hsite : site ∈ sites) :
    ∃ registration, reads.registration? site.siteRegistrationRef = some registration ∧
      build registration site ∈ (signedPlans reads build sites).1 := by
  induction sites with
  | nil => cases hsite
  | cons first rest ih =>
    rw [signedPlans] at h ⊢
    split at h
    · cases h
    rename_i registration hreg
    split at h
    · cases h
    rename_i hsign
    obtain ⟨rfl, -⟩ := SitePlan.sign_ok hsign
    rcases mem_cons.mp hsite with rfl | hrest
    · exact ⟨registration, hreg, mem_cons_self⟩
    · obtain ⟨found, hfound, hmem⟩ := ih h hrest
      exact ⟨found, hfound, mem_cons_of_mem _ hmem⟩

/-! ## The whole reconcile -/

structure KeepsPlans (i d : MultiSitePostgresStatus) : Prop where
  activeRevision : d.activeRevision = i.activeRevision
  planFingerprint : d.planFingerprint = i.planFingerprint
  sites : d.sites = i.sites
  conditions : ∀ c ∈ d.conditions, c.type ∈ hubConditions ∨ c ∈ i.conditions

structure RecordsPlans (revised : MultiSitePostgres) (fingerprint : PlanFingerprint)
    (d : MultiSitePostgresStatus) : Prop where
  activeRevision : d.activeRevision = revised.status.activeRevision
  planFingerprint : d.planFingerprint = fingerprint
  sites : ∃ phases : PostgresSiteSpec → String, d.sites = revised.spec.sites.map fun site =>
    { siteStatusFor revised site with phase := phases site }
  conditions : ∀ c ∈ d.conditions, c.type ∈ hubConditions ∨ c ∈ revised.status.conditions

theorem RecordsPlans.names {revised : MultiSitePostgres} {fingerprint : PlanFingerprint}
    {d : MultiSitePostgresStatus} (h : RecordsPlans revised fingerprint d) :
    d.sites.map (·.name) = revised.spec.sites.map (·.name) := by
  obtain ⟨phases, hsites⟩ := h.sites
  rw [hsites, map_map]
  rfl

theorem Observed.keepsPlans {j : MultiSitePostgres} (h : Observed i j) :
    KeepsPlans i.status j.status where
  activeRevision := activeRevision_of_core h.core
  planFingerprint := planFingerprint_of_core h.core
  sites := sites_of_core h.core
  conditions := h.conditions

/-- What an outcome on `view` can be. -/
inductive OutcomeCase (reads : HubReads) (now : Time) (view : MultiSitePostgres)
    (o : Outcome) : Prop where
  /-- No plan is written. -/
  | quiet (plans : o.plans = []) (status : ∀ d, o.status = some d → KeepsPlans view.status d)
      (deletePlans : o.deletePlans = true → view.deleting = true)
  /-- Plans of the specification. -/
  | issued (prepared : MultiSitePostgres) (inputs : PlanInputs) (n : Nat)
      (deleting : view.deleting = false) (prepare : prepare reads view = .ok (prepared, inputs))
      (observed : Observed view prepared) (planInputs : planInputs reads prepared n = .ok inputs)
      (plans : o.plans = (signedPlans reads (sitePlan (withRevision prepared inputs) inputs now)
        view.spec.sites).1)
      (status : ∀ d, o.status = some d →
        (signedPlans reads (sitePlan (withRevision prepared inputs) inputs now)
          view.spec.sites).2 = true ∧
        RecordsPlans (withRevision prepared inputs)
          (.sum (planFingerprint prepared inputs.addresses inputs.rotation)) d)
      (deletePlans : o.deletePlans = false)
  /-- Deletion plans. -/
  | deletion (deleting : view.deleting = true) (revised : MultiSitePostgres)
      (hrevised : revised = { view with status := { view.status with
        activeRevision := nextRevision view.status.activeRevision } })
      (plans : o.plans = (signedPlans reads (deletionPlan revised now) view.spec.sites).1)
      (status : ∀ d, o.status = some d →
        (signedPlans reads (deletionPlan revised now) view.spec.sites).2 = true ∧
        RecordsPlans revised .deleting d)
      (deletePlans : o.deletePlans = false)

theorem nextRevision_eq {revision : Int} (h : 0 ≤ revision) :
    nextRevision revision = revision + 1 := by
  rw [nextRevision, if_neg (by omega)]

section Revision

variable (i : MultiSitePostgres) (inputs : PlanInputs)

theorem withRevision_eq : withRevision i inputs = { i with status := { i.status with
    activeRevision := (withRevision i inputs).status.activeRevision
    planFingerprint := .sum (planFingerprint i inputs.addresses inputs.rotation) } } := by
  unfold withRevision
  dsimp only
  split
  · rfl
  · rename_i h
    rw [← not_not.mp h]

@[simp] theorem withRevision_spec : (withRevision i inputs).spec = i.spec := by
  rw [withRevision_eq]

@[simp] theorem withRevision_sites : (withRevision i inputs).status.sites = i.status.sites := by
  rw [withRevision_eq]

@[simp] theorem withRevision_conditions :
    (withRevision i inputs).status.conditions = i.status.conditions := by
  rw [withRevision_eq]

@[simp] theorem withRevision_planFingerprint : (withRevision i inputs).status.planFingerprint =
      .sum (planFingerprint i inputs.addresses inputs.rotation) := by
  rw [withRevision_eq]

theorem withRevision_activeRevision : (withRevision i inputs).status.activeRevision =
      if i.status.planFingerprint = .sum (planFingerprint i inputs.addresses inputs.rotation) then
        i.status.activeRevision
      else nextRevision i.status.activeRevision := by
  unfold withRevision
  by_cases h : i.status.planFingerprint = .sum (planFingerprint i inputs.addresses inputs.rotation)
  · rw [if_neg (not_not.mpr h), if_pos h]
  · rw [if_pos h, if_neg h]

end Revision

theorem settle_recordsPlans (i : MultiSitePostgres) (inputs : PlanInputs) (now : Time) :
    RecordsPlans i i.status.planFingerprint (settle i inputs now).status := by
  have h := (settle_observed i inputs now).keepsPlans
  refine ⟨h.activeRevision, h.planFingerprint, ⟨fun site => (siteStatusFor i site).phase, ?_⟩,
    h.conditions⟩
  exact h.sites

/-- A reconcile that records its plans leaves the rest of the instance as it was read. -/
theorem settled_core {prepared : MultiSitePostgres} (hobs : Observed view prepared)
    (inputs : PlanInputs) (now : Time) :
    let settled := settle (withRevision prepared inputs) inputs now
    settled.core = { view.core with status := { view.core.status with
      activeRevision := settled.status.activeRevision
      planFingerprint := settled.status.planFingerprint
      sites := settled.status.sites } } := by
  have hsettled := (settle_observed (withRevision prepared inputs) inputs now).core
  intro settled
  rw [activeRevision_of_core hsettled, planFingerprint_of_core hsettled, sites_of_core hsettled,
    hsettled, ← hobs.core, withRevision_eq]
  rfl

/-- What a reconcile that got past validation hands to its writes. -/
theorem issue_spec (config : BackupConfig) (reads : HubReads) (directives : List DirectiveMap)
    (fails : String → Bool) (now : Time) {prepared : MultiSitePostgres} (inputs : PlanInputs)
    (hobs : Observed view prepared) :
    let o := issue config reads directives fails now prepared inputs
    let signed := signedPlans reads (sitePlan (withRevision prepared inputs) inputs now)
      view.spec.sites
    o.plans = signed.1 ∧ o.deletePlans = false ∧ ∀ d, o.status = some d →
      signed.2 = true ∧ RecordsPlans (withRevision prepared inputs)
        (.sum (planFingerprint prepared inputs.addresses inputs.rotation)) d := by
  have hsettled := settle_recordsPlans (withRevision prepared inputs) inputs now
  rw [withRevision_planFingerprint] at hsettled
  have hspec : (withRevision prepared inputs).spec = view.spec := by
    rw [withRevision_spec, spec_of_core hobs.core]
  rw [issue]
  dsimp only
  rw [hspec]
  split
  · exact ⟨rfl, rfl, fun d hd => by cases hd⟩
  rename_i hcomplete
  have hcomplete := Bool.not_eq_false _ ▸ hcomplete
  split
  · exact ⟨rfl, rfl, fun d hd => by cases hd⟩
  · refine ⟨rfl, rfl, fun d hd => ?_⟩
    rw [← Option.some.inj hd]
    refine ⟨hcomplete, hsettled.activeRevision, hsettled.planFingerprint, hsettled.sites,
      fun c hc => ?_⟩
    exact (mem_setCondition (by decide) hc).elim .inl (hsettled.conditions c)
  · refine ⟨rfl, rfl, fun d hd => ?_⟩
    rw [← Option.some.inj hd]
    exact ⟨hcomplete, hsettled.activeRevision, hsettled.planFingerprint, hsettled.sites,
      hsettled.conditions⟩

/-! ## The exits of a reconcile -/

/-- What is stored while the deletion of the instance waits. -/
structure Waits (i d : MultiSitePostgresStatus) : Prop where
  activeRevision : d.activeRevision = i.activeRevision
  planFingerprint : d.planFingerprint = i.planFingerprint
  sites : d.sites = i.sites
  backupSchedules : d.backupSchedules = i.backupSchedules
  condition : ∃ c : Condition, c.type = "DeletionBlocked" ∧
    d.conditions = Condition.set i.conditions c

theorem Waits.keepsPlans {i d : MultiSitePostgresStatus} (h : Waits i d) : KeepsPlans i d where
  activeRevision := h.activeRevision
  planFingerprint := h.planFingerprint
  sites := h.sites
  conditions c hc := by
    obtain ⟨blocked, htype, hset⟩ := h.condition
    rw [hset] at hc
    exact (Condition.mem_set hc).imp_left fun heq => by rw [heq, htype]; decide

/-- The instance with the plans of its deletion recorded. -/
def deletionRecorded (revised : MultiSitePostgres) : MultiSitePostgresStatus :=
  { revised.status with
    sites := revised.spec.sites.map fun site =>
      { siteStatusFor revised site with phase := "DeletionPlanIssued" }
    planFingerprint := .deleting }

section Exits

variable (config : BackupConfig) (reads : HubReads) (directives : List DirectiveMap)
  (fails : String → Bool) (now : Time)

/-- The exits of `Reconcile`, with what each returns. -/
inductive Exit (view : MultiSitePostgres) : Outcome → Prop where
  | ignored (deleting : view.deleting = true) : Exit view { directives }
  | released (deleting : view.deleting = true) :
      Exit view { directives, deletePlans := true, removeFinalizer := true }
  | blocked (deleting : view.deleting = true) {d : MultiSitePostgresStatus}
      (waits : Waits view.status d) : Exit view { directives, status := some d }
  | deletion (deleting : view.deleting = true) {revised : MultiSitePostgres}
      (hrevised : revised = { view with status := { view.status with
        activeRevision := nextRevision view.status.activeRevision } })
      {status : Option MultiSitePostgresStatus}
      (waits : ∀ d, status = some d →
        (signedPlans reads (deletionPlan revised now) view.spec.sites).2 = true ∧
          Waits (deletionRecorded revised) d) :
      Exit view { plans := (signedPlans reads (deletionPlan revised now) view.spec.sites).1
                  directives, status }
  | adopted (deleting : view.deleting = false) : Exit view { directives, addFinalizer := true }
  | rejected (deleting : view.deleting = false) (finalizer : view.finalizer = true)
      {e : MultiSitePostgres} (prepare : prepare reads view = .error e)
      (withdrawn : Withdrawn view e) : Exit view { directives, status := some e.status }
  | issued (deleting : view.deleting = false) (finalizer : view.finalizer = true)
      {prepared : MultiSitePostgres} {inputs : PlanInputs} {n : Nat}
      (prepare : prepare reads view = .ok (prepared, inputs)) (observed : Observed view prepared)
      (planInputs : planInputs reads prepared n = .ok inputs) :
      Exit view (issue config reads directives fails now prepared inputs)

theorem finalize_exit (hdel : view.deleting = true) :
    Exit config reads directives fails now view (finalize reads directives now view) := by
  rw [finalize]
  dsimp only
  split
  · exact .ignored hdel
  split
  · exact .released hdel
  split
  · exact .blocked hdel ⟨rfl, rfl, rfl, rfl, _, rfl, rfl⟩
  split
  · split
    · exact .blocked hdel ⟨rfl, rfl, rfl, rfl, _, rfl, rfl⟩
    rw [issueDeletionPlans]
    dsimp only
    split
    · exact .deletion hdel rfl fun d hd => by cases hd
    · rename_i hcomplete
      refine .deletion hdel rfl fun d hd => ⟨Bool.not_eq_false _ ▸ hcomplete, ?_⟩
      rw [← Option.some.inj hd]
      exact ⟨rfl, rfl, rfl, rfl, _, rfl, rfl⟩
  split
  · exact .blocked hdel ⟨rfl, rfl, rfl, rfl, _, rfl, rfl⟩
  · exact .released hdel

theorem reconcile_exit (view : MultiSitePostgres) :
    Exit config reads directives fails now view
      (reconcile config reads directives fails now view) := by
  rw [reconcile]
  split
  · exact finalize_exit config reads directives fails now ‹_›
  rename_i hdel
  rw [Bool.not_eq_true] at hdel
  split
  · exact .adopted hdel
  rename_i hfin
  rw [Bool.not_eq_false] at hfin
  have hspec := prepare_spec reads view
  rcases hprepare : prepare reads view with e | ⟨prepared, inputs⟩ <;> rw [hprepare] at hspec
  · exact .rejected hdel hfin hprepare hspec
  · obtain ⟨hobs, n, hinputs⟩ := hspec
    exact .issued hdel hfin hprepare hobs hinputs

/-- Everything a reconcile can do to plans and to the plan part of the status. -/
theorem reconcile_case (view : MultiSitePostgres) :
    OutcomeCase reads now view (reconcile config reads directives fails now view) := by
  have h := reconcile_exit config reads directives fails now view
  generalize reconcile config reads directives fails now view = o at h
  cases h with
  | ignored deleting => exact .quiet rfl (fun d hd => by cases hd) fun _ => deleting
  | released deleting => exact .quiet rfl (fun d hd => by cases hd) fun _ => deleting
  | blocked deleting waits =>
    exact .quiet rfl (fun d hd => Option.some.inj hd ▸ waits.keepsPlans) fun _ => deleting
  | deletion deleting hrevised waits =>
    refine .deletion deleting _ hrevised rfl (fun d hd => ?_) rfl
    have h := (waits d hd).2.keepsPlans
    exact ⟨(waits d hd).1, h.activeRevision, h.planFingerprint,
      ⟨fun _ => "DeletionPlanIssued", h.sites⟩, h.conditions⟩
  | adopted => exact .quiet rfl (fun d hd => by cases hd) nofun
  | rejected _ _ _ withdrawn =>
    exact .quiet rfl (fun d hd => Option.some.inj hd ▸ withdrawn.toObserved.keepsPlans) nofun
  | issued deleting _ prepare observed planInputs =>
    obtain ⟨hplans, hdelete, hstatus⟩ := issue_spec config reads directives fails now _ observed
    exact .issued _ _ _ deleting prepare observed planInputs hplans hstatus hdelete

end Exits

/-- Every condition of a status a reconcile writes is its own or was there before. -/
theorem OutcomeCase.conditions {now : Time} {o : Outcome} (h : OutcomeCase reads now view o)
    {d : MultiSitePostgresStatus} (hd : o.status = some d) :
    ∀ c ∈ d.conditions, c.type ∈ hubConditions ∨ c ∈ view.status.conditions := by
  cases h with
  | quiet _ status _ => exact (status d hd).conditions
  | issued prepared inputs n _ _ observed _ _ status _ =>
    intro c hc
    have hrevised := (status d hd).2.conditions c hc
    rw [withRevision_conditions] at hrevised
    exact hrevised.elim .inl (observed.conditions c)
  | deletion _ revised hrevised _ status _ =>
    subst hrevised
    exact (status d hd).2.conditions

theorem le_mergeReconciledStatus (current desired : MultiSitePostgresStatus) :
    current.activeRevision ≤ (mergeReconciledStatus current desired).activeRevision ∧
      desired.activeRevision ≤ (mergeReconciledStatus current desired).activeRevision := by
  unfold mergeReconciledStatus
  dsimp only
  split <;> omega

theorem mergeReconciledStatus_activeRevision {current desired : MultiSitePostgresStatus}
    (h : current.activeRevision ≤ desired.activeRevision) :
    (mergeReconciledStatus current desired).activeRevision = desired.activeRevision := by
  unfold mergeReconciledStatus
  dsimp only
  split <;> omega

end Mspsql
