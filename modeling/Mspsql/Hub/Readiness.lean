import Mspsql.Hub.Ownership

/-!
# When an instance becomes ready

`settle` marks an instance ready from instance-level conditions.  Two of them,
`EtcdTLSReady` and `BackupTLSReady`, would have to be derived from what the sites report;
`aggregateInstanceConditions` does that, but only its tests call it.  So `EtcdTLSReady` is
never true in a run of the hub, and no instance ever becomes ready.
-/

namespace Mspsql

open Sample

variable {i : MultiSitePostgres}

/-- The condition types agents put into directive results. -/
def directiveConditions : List String :=
  ["BackupSet", "BackupCompletedAt", "RecoveryWindowStart", "WALArchive",
    "OrphanedDeclarations", "CredentialVersion", "Succeeded", "ObservedSize", "TDEVerified"]

def trustMessage (statuses : List SiteRevisionStatus) (type : String) (site : PostgresSiteSpec) :
    Option String :=
  ((Condition.find? (previousSiteStatus statuses site.name).conditions type).filter
    (·.status = .true)).map (·.message)

/-- Every site in the list reports a condition of this type as true, and any two of them
with the same message. -/
def CommonTrust (statuses : List SiteRevisionStatus) (type : String)
    (sites : List PostgresSiteSpec) : Prop :=
  ∀ site ∈ sites, (trustMessage statuses type site).isSome ∧
    ∀ other ∈ sites, trustMessage statuses type other = trustMessage statuses type site
deriving Decidable

/-- What a ready instance is meant to be.  `i` is the instance the plans are built from,
with the active revision they carry. -/
@[mk_iff] structure Healthy (i : MultiSitePostgres) (inputs : PlanInputs) (now : Time) : Prop where
  applied : ∀ site ∈ i.spec.sites,
    (previousSiteStatus i.status.sites site.name).appliedRevision = i.status.activeRevision
  restore : ∀ r ∈ inputs.restore, r.phase = .verify
  major : ∀ m ∈ inputs.major, writeServiceUnavailable m.phase = false
  etcdTrust : CommonTrust i.status.sites "EtcdTLSReady" i.spec.sites
  backupTrust : i.spec.backup.isSome →
    CommonTrust i.status.sites "BackupTLSReady" (i.spec.sites.filter (·.role = .data))
  topology : conditionTrue
    (aggregateTopology (recordSites i (siteStatusFor i)) now).status.conditions
    "TopologyReady" = true
  synchronousReplication : i.spec.postgres.synchronousStandbyCount > 0 → conditionTrue
    (aggregateTopology (recordSites i (siteStatusFor i)) now).status.conditions
    "SynchronousReplicationReady" = true

instance (i : MultiSitePostgres) (inputs : PlanInputs) (now : Time) :
    Decidable (Healthy i inputs now) :=
  decidable_of_iff _ (healthy_iff i inputs now).symm

/-! ## One reconcile -/

def Untrusted (conditions : List Condition) : Prop :=
  Condition.Never "EtcdTLSReady" conditions

theorem setAppliedInstanceReady_not_ready (h : Untrusted i.status.conditions)
    (restore : Option RestorePlan) (major : Option MajorUpgradePlan) :
    conditionTrue (setAppliedInstanceReady i restore major).status.conditions "Ready" = false := by
  have hready : ∀ phase reason message, conditionTrue
      ((i.setPhase phase).setCondition "Ready" .false reason message).status.conditions "Ready" =
        false := fun _ _ _ => conditionTrue_setCondition ..
  unfold setAppliedInstanceReady
  rw [show conditionTrue i.status.conditions "EtcdTLSReady" = false from h.isTrue]
  -- the fourth test never fails, so the last branch is never reached
  repeat' split
  all_goals first | exact hready .. | contradiction

theorem settle_not_ready (h : Untrusted i.status.conditions) (inputs : PlanInputs) (now : Time) :
    conditionTrue (settle i inputs now).status.conditions "Ready" = false := by
  have hobs := aggregateTopology_observed (recordSites i (siteStatusFor i)) now
  rw [settle]
  split
  · refine setAppliedInstanceReady_not_ready ?_ ..
    exact (h.of_mem (by decide) hobs.conditions).set fun _ h => by cases h
  · exact conditionTrue_setCondition ..

theorem issue_ended {config : BackupConfig} {reads : HubReads} {directives : List DirectiveMap}
    {fails : String → Bool} {now : Time} {prepared : MultiSitePostgres} {inputs : PlanInputs}
    (h : (issue config reads directives fails now prepared inputs).ended = true) :
    ∃ schedules, (issue config reads directives fails now prepared inputs).status =
      some { (settle (withRevision prepared inputs) inputs now).status with
        backupSchedules := schedules } := by
  revert h
  unfold issue
  dsimp only
  split
  · intro h
    cases h
  split
  · intro h
    cases h
  · intro h
    cases h
  · rename_i schedules _
    exact fun _ => ⟨schedules, rfl⟩

theorem reconcile_ended {config : BackupConfig} {reads : HubReads}
    {directives : List DirectiveMap} {fails : String → Bool} {now : Time}
    {view : MultiSitePostgres}
    (h : (reconcile config reads directives fails now view).ended = true) :
    ∃ prepared inputs schedules, prepare reads view = .ok (prepared, inputs) ∧
      Observed view prepared ∧ (reconcile config reads directives fails now view).status =
        some { (settle (withRevision prepared inputs) inputs now).status with
          backupSchedules := schedules } := by
  have hexit := reconcile_exit config reads directives fails now view
  generalize reconcile config reads directives fails now view = o at h hexit
  cases hexit with
  | issued _ _ prepare observed _ =>
    obtain ⟨schedules, hschedules⟩ := issue_ended h
    exact ⟨_, _, schedules, prepare, observed, hschedules⟩
  | _ => cases h

/-! ## Whole runs -/

/-- Agents put only their own conditions into directive results. -/
def realDirectives (_ : HubState) : HubEvent → Prop
  | .backupResult _ _ result => ∀ c ∈ result.conditions, c.type ∈ directiveConditions
  | _ => True

instance (s : HubState) (e : HubEvent) : Decidable (realDirectives s e) := by
  cases_type HubEvent <;> unfold realDirectives <;> infer_instance

theorem Untrusted.records {j : MultiSitePostgres} {reported : List Condition}
    (h : Untrusted i.status.conditions) (hrecords : RecordsResult i j reported)
    (hreported : ∀ c ∈ reported, c.type ∈ directiveConditions) :
    Untrusted j.status.conditions := by
  refine h.of_mem ?_ hrecords.conditions
  rw [List.mem_append, not_or, List.mem_map]
  refine ⟨by decide, ?_⟩
  rintro ⟨c, hc, htype⟩
  exact absurd (htype ▸ hreported c hc) (by decide)

theorem neverTrusted_step {config : HubConfig} {s t : HubState} {e : HubEvent}
    (h : s.NeverTrue "EtcdTLSReady") (hok : realDirectives s e)
    (hst : s.step config e = some t) : t.NeverTrue "EtcdTLSReady" := by
  refine h.step (by decide) hst fun he => ?_
  cases HubState.step_case hst with
  | backupResult hrecords => exact Untrusted.records h.throughout.stored hrecords hok
  | upgradeBackupSucceeded hrecords =>
    exact Untrusted.records h.throughout.stored hrecords (by simp)
  | upgradeBackupFailed => exact h.throughout.stored
  | _ => cases he

structure Created (config : HubConfig) (s : HubState) : Prop extends HubState.Initial config s where
  conditions : s.stored.status.conditions = []

theorem neverTrusted_of_reach {config : HubConfig} {s : HubState}
    (h : Machine.Reach (HubState.step config) (Created config) realDirectives s) :
    s.NeverTrue "EtcdTLSReady" := by
  refine h.invariant (fun s hinit => .initial hinit.toInitial ?_)
    fun _ _ _ hinv hok hst => neverTrusted_step hinv hok hst
  rw [hinit.conditions]
  exact nofun

/-- In a run of the hub, a reconcile that runs to its end marks an instance ready exactly
when it is healthy only where the instance is not healthy: no instance ever becomes
ready. -/
theorem ready_iff_healthy_iff_not_healthy {config : HubConfig} {s : HubState}
    (h : Machine.Reach (HubState.step config) (Created config) realDirectives s)
    {view : MultiSitePostgres} (hview : view ∈ s.versions) {reads : HubReads}
    {fails : String → Bool} {now : Time} {prepared : MultiSitePostgres} {inputs : PlanInputs}
    (hprepare : prepare (s.readsOf reads) view = .ok (prepared, inputs))
    (hended : (s.outcome config view reads fails now).ended = true) :
    ((s.outcome config view reads fails now).status.any
        (fun d => conditionTrue d.conditions "Ready") = true ↔
      Healthy (withRevision prepared inputs) inputs now) ↔
      ¬ Healthy (withRevision prepared inputs) inputs now := by
  obtain ⟨prepared', inputs', schedules, hok, hobs, hstatus⟩ := reconcile_ended hended
  obtain ⟨rfl, rfl⟩ : prepared = prepared' ∧ inputs = inputs' := by
    rw [hprepare] at hok
    exact ⟨congrArg Prod.fst (Except.ok.inj hok), congrArg Prod.snd (Except.ok.inj hok)⟩
  have htrust : Untrusted (withRevision prepared inputs).status.conditions := by
    rw [withRevision_conditions]
    exact ((neverTrusted_of_reach h).throughout.versions view hview).of_mem (by decide)
      hobs.conditions
  have hready : (s.outcome config view reads fails now).status.any
      (fun d => conditionTrue d.conditions "Ready") = false := by
    rw [HubState.outcome, hstatus]
    exact settle_not_ready htrust inputs now
  rw [hready]
  constructor
  · intro hiff hhealthy
    exact absurd (hiff.mpr hhealthy) (by decide)
  · intro hnot
    exact ⟨fun hfalse => absurd hfalse (by decide), fun hhealthy => absurd hhealthy hnot⟩

/-! ## A healthy instance that is not ready -/

def rolledOut : HubState := after ledger realDirectives (rollOut reads)

/-- Every site of `ledger` meets every requirement, and the reconcile that observes it
runs to its end without marking the instance ready. -/
def HealthyNotReady (s : HubState) : Prop :=
  s.stored ∈ s.versions ∧
    match prepare (s.readsOf reads) s.stored with
    | .ok (prepared, inputs) =>
      (s.outcome hub s.stored reads (fun _ => false) 0).ended = true ∧
      (s.outcome hub s.stored reads (fun _ => false) 0).status.any
        (fun d => conditionTrue d.conditions "Ready") = false ∧
      Healthy (withRevision prepared inputs) inputs 0
    | .error _ => False

instance : DecidablePred HealthyNotReady := fun s => by
  unfold HealthyNotReady
  split <;> infer_instance

theorem rolledOut_healthyNotReady :
    Machine.Reach (HubState.step hub) (Created hub) realDirectives rolledOut ∧
      HealthyNotReady rolledOut :=
  after_reach ⟨ledger_initial, rfl⟩ (by decide +kernel)

theorem healthy_ledger_not_ready : ∃ prepared inputs,
    Machine.Reach (HubState.step hub) (Created hub) realDirectives rolledOut ∧
    prepare (rolledOut.readsOf reads) rolledOut.stored = .ok (prepared, inputs) ∧
    rolledOut.stored ∈ rolledOut.versions ∧
    (rolledOut.outcome hub rolledOut.stored reads (fun _ => false) 0).ended = true ∧
    ¬ ((rolledOut.outcome hub rolledOut.stored reads
        (fun _ => false) 0).status.any (fun d => conditionTrue d.conditions "Ready") = true ↔
      Healthy (withRevision prepared inputs) inputs 0) := by
  obtain ⟨hreach, hview, hrun⟩ := rolledOut_healthyNotReady
  split at hrun
  · rename_i prepared inputs hprepare
    obtain ⟨hended, hready, hhealthy⟩ := hrun
    refine ⟨prepared, inputs, hreach, hprepare, hview, hended, fun h => ?_⟩
    exact absurd (h.mpr hhealthy) (by rw [hready]; decide)
  · exact hrun.elim

theorem ledger_ready_iff_healthy_iff_not_healthy : ∃ prepared inputs,
    prepare (rolledOut.readsOf reads) rolledOut.stored = .ok (prepared, inputs) ∧
    (((rolledOut.outcome hub rolledOut.stored reads
        (fun _ => false) 0).status.any (fun d => conditionTrue d.conditions "Ready") = true ↔
      Healthy (withRevision prepared inputs) inputs 0) ↔
      ¬ Healthy (withRevision prepared inputs) inputs 0) := by
  obtain ⟨hreach, hview, hrun⟩ := rolledOut_healthyNotReady
  split at hrun
  · rename_i prepared inputs hprepare
    exact ⟨prepared, inputs, hprepare,
      ready_iff_healthy_iff_not_healthy hreach hview hprepare hrun.1⟩
  · exact hrun.elim

end Mspsql
