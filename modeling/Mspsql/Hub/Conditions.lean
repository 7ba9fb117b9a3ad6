import Mspsql.Hub.LostUpdates

/-!
# The conditions a restore waits for

`Ready` and `TopologyReady` of an instance are set to true in one place, at the end of a
reconcile that has issued plans.  Every other path through the instance controller, and every
result of a directive that does not report them, keeps them or sets them to false.  So a true
value says what `settle` has seen.
-/

namespace Mspsql

open MultiSitePostgres

variable {reads : HubReads}

theorem Waits.lowers {i d : MultiSitePostgresStatus} (h : Waits i d) :
    ∀ type ∈ acceptanceConditions, Condition.Lowered type i.conditions d.conditions := by
  obtain ⟨c, hc, hset⟩ := h.condition
  intro type htype
  rw [hset]
  refine (Condition.Lowered.refl ..).set fun hsame => ?_
  rw [← hsame, hc] at htype
  exact absurd htype (by decide)

/-! ## The end of a reconcile -/

theorem find?_setCondition_of_ne {type other : String} (h : type ≠ other)
    (i : MultiSitePostgres) (status : ConditionStatus) (reason message : String) :
    Condition.find? (i.setCondition type status reason message).status.conditions other =
      Condition.find? i.status.conditions other :=
  (Condition.find?_set ..).trans (if_neg h)

theorem find?_setCondition (type : String) (i : MultiSitePostgres) (status : ConditionStatus)
    (reason message : String) :
    ∃ c, Condition.find? (i.setCondition type status reason message).status.conditions type =
      some c ∧ c.status = status :=
  ⟨_, (Condition.find?_set ..).trans (if_pos rfl), rfl⟩

theorem withTopology_topologyReady (i : MultiSitePostgres) (primary : String)
    (standbys : List String) (status : ConditionStatus) (reason message : String) :
    ∃ c, Condition.find? (withTopology i primary standbys status reason message).status.conditions
      "TopologyReady" = some c ∧ c.status = status := by
  have hset : ∀ (j : MultiSitePostgres) (other : ConditionStatus) (reason' message' : String),
      (∃ c, Condition.find? j.status.conditions "TopologyReady" = some c ∧ c.status = status) →
      ∃ c, Condition.find? (j.setCondition "SynchronousReplicationReady" other reason'
        message').status.conditions "TopologyReady" = some c ∧ c.status = status := by
    rintro j other reason' message' ⟨c, hc, hstatus⟩
    exact ⟨c, (find?_setCondition_of_ne (by decide) ..).trans hc, hstatus⟩
  unfold withTopology setSynchronousReplicationCondition
  dsimp only
  split <;> exact hset _ _ _ _ (find?_setCondition ..)

theorem aggregateTopology_topologyReady (i : MultiSitePostgres) (now : Time) :
    ∃ c, Condition.find? (aggregateTopology i now).status.conditions "TopologyReady" = some c ∧
      (c.status = .true → (currentObservations i now).length = requiredObservations i) := by
  have hfalse : ∀ primary standbys reason message, ∃ c,
      Condition.find? (withTopology i primary standbys .false reason message).status.conditions
        "TopologyReady" = some c ∧
      (c.status = .true → (currentObservations i now).length = requiredObservations i) := by
    intro primary standbys reason message
    obtain ⟨c, hc, hstatus⟩ := withTopology_topologyReady i primary standbys .false reason message
    refine ⟨c, hc, fun htrue => ?_⟩
    rw [hstatus] at htrue
    cases htrue
  unfold aggregateTopology
  split
  · exact hfalse ..
  dsimp only
  split
  · exact hfalse ..
  rename_i hcount
  split
  · obtain ⟨c, hc, -⟩ := withTopology_topologyReady i ..
    exact ⟨c, hc, fun _ => not_not.mp hcount⟩
  · exact hfalse ..

theorem setAppliedInstanceReady_find (i : MultiSitePostgres) (restore : Option RestorePlan)
    (major : Option MajorUpgradePlan) :
    (∃ c, Condition.find? (setAppliedInstanceReady i restore major).status.conditions "Ready" =
        some c ∧ (c.status = .true → ∀ r ∈ restore, r.phase = .verify)) ∧
      Condition.find? (setAppliedInstanceReady i restore major).status.conditions
        "TopologyReady" = Condition.find? i.status.conditions "TopologyReady" := by
  have hother : ∀ phase status reason message, Condition.find?
      ((i.setPhase phase).setCondition "Ready" status reason message).status.conditions
        "TopologyReady" = Condition.find? i.status.conditions "TopologyReady" :=
    fun _ _ _ _ => find?_setCondition_of_ne (by decide) ..
  have hfalse : ∀ phase reason message, ∃ c, Condition.find?
      ((i.setPhase phase).setCondition "Ready" .false reason message).status.conditions "Ready" =
        some c ∧ (c.status = .true → ∀ r ∈ restore, r.phase = .verify) := by
    intro phase reason message
    obtain ⟨c, hc, hstatus⟩ :=
      find?_setCondition "Ready" (i.setPhase phase) .false reason message
    exact ⟨c, hc, fun htrue => nomatch hstatus.symm.trans htrue⟩
  unfold setAppliedInstanceReady
  split
  · exact ⟨hfalse .., hother ..⟩
  rename_i hrestore
  have hverify : ∀ r ∈ restore, r.phase = .verify := by
    intro r hr
    by_contra hne
    exact hrestore (Option.any_eq_true _ _ |>.mpr ⟨r, hr, decide_eq_true hne⟩)
  repeat' split
  all_goals refine ⟨?_, hother ..⟩
  all_goals first
    | exact hfalse ..
    | (obtain ⟨c, hc, -⟩ := find?_setCondition "Ready" (i.setPhase "Ready") .true
        "AllSitesReady" "All sites applied the active revision"
       exact ⟨c, hc, fun _ => hverify⟩)

theorem settle_find (i : MultiSitePostgres) (inputs : PlanInputs) (now : Time) :
    (∃ c, Condition.find? (settle i inputs now).status.conditions "Ready" = some c ∧
        (c.status = .true → (∀ r ∈ inputs.restore, r.phase = .verify) ∧
          allSitesApplied (i.spec.sites.map (siteStatusFor i)) i.status.activeRevision = true)) ∧
      ∃ c, Condition.find? (settle i inputs now).status.conditions "TopologyReady" = some c ∧
        (c.status = .true → (currentObservations (recordSites i (siteStatusFor i)) now).length =
            requiredObservations (recordSites i (siteStatusFor i))) := by
  have htopology := aggregateTopology_topologyReady (recordSites i (siteStatusFor i)) now
  have hcore := (aggregateTopology_observed (recordSites i (siteStatusFor i)) now).core
  have hsites := sites_of_core hcore
  have hrev := activeRevision_of_core hcore
  have hwaiting : ∀ reason message, Condition.find? (((aggregateTopology
      (recordSites i (siteStatusFor i)) now).setPhase "Reconciling").setCondition "Ready" .false
        reason message).status.conditions "TopologyReady" = Condition.find?
          (aggregateTopology (recordSites i (siteStatusFor i)) now).status.conditions
            "TopologyReady" :=
    fun _ _ => find?_setCondition_of_ne (by decide) ..
  rw [settle]
  split
  · rename_i happlied
    obtain ⟨⟨c, hc, hverify⟩, hsame⟩ := setAppliedInstanceReady_find
      (((aggregateTopology (recordSites i (siteStatusFor i)) now).setPhase
        "Reconciling").setCondition "Ready" .false "PlansIssued"
        "Waiting for all sites to apply the active revision") inputs.restore inputs.major
    refine ⟨⟨c, hc, fun htrue => ⟨hverify htrue, ?_⟩⟩, ?_⟩
    · have hentries : allSitesApplied (recordSites i (siteStatusFor i)).status.sites
          (recordSites i (siteStatusFor i)).status.activeRevision = true := by
        rw [← hrev, ← hsites]
        exact happlied
      exact hentries
    · obtain ⟨c', hc', hcount⟩ := htopology
      exact ⟨c', hsame.trans ((hwaiting ..).trans hc'), hcount⟩
  · obtain ⟨c', hc', hcount⟩ := htopology
    obtain ⟨c, hc, hstatus⟩ := find?_setCondition "Ready" ((aggregateTopology
      (recordSites i (siteStatusFor i)) now).setPhase "Reconciling") .false "PlansIssued"
      "Waiting for all sites to apply the active revision"
    exact ⟨⟨c, hc, fun htrue => by cases hstatus.symm.trans htrue⟩,
      c', (hwaiting ..).trans hc', hcount⟩

/-- The two conditions after a reconcile: an early exit withdraws them, and otherwise they are
what `settle` computes for the plans just issued. -/
inductive ConditionsCase (reads : HubReads) (now : Time) (view : MultiSitePostgres)
    (d : MultiSitePostgresStatus) : Prop where
  | lowered (conditions : ∀ type ∈ acceptanceConditions,
        Condition.Lowered type view.status.conditions d.conditions)
      (plans : KeepsPlans view.status d ∨ d.planFingerprint = .deleting)
  | settled {prepared : MultiSitePostgres} {inputs : PlanInputs} {n : Nat}
      (deleting : view.deleting = false) (finalizer : view.finalizer = true)
      (prepare : prepare reads view = .ok (prepared, inputs))
      (observed : Observed view prepared) (planInputs : planInputs reads prepared n = .ok inputs)
      (records : RecordsPlans (withRevision prepared inputs)
        (.sum (planFingerprint prepared inputs.addresses inputs.rotation)) d)
      (conditions : ∀ type ∈ acceptanceConditions, Condition.find? d.conditions type =
        Condition.find? (settle (withRevision prepared inputs) inputs now).status.conditions type)

theorem reconcile_conditionsCase {config : BackupConfig} {directives : List DirectiveMap}
    {fails : String → Bool} {now : Time} {view : MultiSitePostgres} {d : MultiSitePostgresStatus}
    (h : (reconcile config reads directives fails now view).status = some d) :
    ConditionsCase reads now view d := by
  have hexit := reconcile_exit config reads directives fails now view
  generalize reconcile config reads directives fails now view = o at h hexit
  cases hexit with
  | ignored | released | adopted => cases h
  | blocked _ waits =>
    rw [← Option.some.inj h]
    exact .lowered waits.lowers (.inl waits.keepsPlans)
  | deletion _ hrevised waits =>
    subst hrevised
    exact .lowered (waits d h).2.lowers (.inr (waits d h).2.planFingerprint)
  | rejected _ _ _ withdrawn =>
    rw [← Option.some.inj h]
    exact .lowered withdrawn.lowers (.inl withdrawn.keepsPlans)
  | issued deleting finalizer prepare observed planInputs =>
    obtain ⟨-, -, hstatus⟩ := issue_spec config reads directives fails now _ observed
    refine .settled deleting finalizer prepare observed planInputs (hstatus d h).2
      fun type htype => ?_
    have hbackup : "BackupReady" ≠ type := by
      rintro rfl
      exact absurd htype (by decide)
    unfold issue at h
    dsimp only at h
    split at h
    · cases h
    split at h
    · cases h
    · rw [← Option.some.inj h]
      exact (Condition.find?_set ..).trans (if_neg hbackup)
    · rw [← Option.some.inj h]

/-! ## Directive results -/

theorem recordInstanceDirectiveResult_conditions (parseTime : String → Option Time)
    (site : String) (result : PlanResult) (i : MultiSitePostgres) :
    ∃ updates : List Condition,
      (recordInstanceDirectiveResult parseTime site result i).status.conditions =
        updates.foldl Condition.set i.status.conditions ∧
      ∀ c ∈ updates, c.type ∈ serverConditions ∨ c.type ∈ result.conditions.map (·.type) := by
  have hcopied : (copyConditions i result.conditions).status.conditions =
      (result.conditions.map fun c => { c with observedGeneration := i.generation }).foldl
        Condition.set i.status.conditions := by
    rw [List.foldl_map]
    rfl
  have hreported : ∀ c ∈ result.conditions.map fun c =>
      { c with observedGeneration := i.generation },
      c.type ∈ serverConditions ∨ c.type ∈ result.conditions.map (·.type) := by
    intro c hc
    obtain ⟨d, hd, rfl⟩ := List.mem_map.mp hc
    exact .inr (List.mem_map.mpr ⟨d, hd, rfl⟩)
  have hset : ∀ (j : MultiSitePostgres) (type : String) (status : ConditionStatus)
      (reason message : String), type ∈ serverConditions →
      (∃ updates : List Condition, j.status.conditions =
        updates.foldl Condition.set i.status.conditions ∧ ∀ c ∈ updates,
          c.type ∈ serverConditions ∨ c.type ∈ result.conditions.map (·.type)) →
      ∃ updates : List Condition, (j.setCondition type status reason message).status.conditions =
        updates.foldl Condition.set i.status.conditions ∧ ∀ c ∈ updates,
          c.type ∈ serverConditions ∨ c.type ∈ result.conditions.map (·.type) := by
    rintro j type status reason message htype ⟨updates, hupdates, htypes⟩
    refine ⟨updates ++ [⟨type, status, j.generation, reason, message⟩], ?_, fun c hc => ?_⟩
    · rw [List.foldl_append, ← hupdates]
      rfl
    rcases List.mem_append.mp hc with hc | hc
    · exact htypes c hc
    · rw [List.mem_singleton.mp hc]
      exact .inl htype
  have hevidence : (updateBackupEvidence parseTime (copyConditions i result.conditions).status
      result.conditions).conditions = (copyConditions i result.conditions).status.conditions := by
    rw [updateBackupEvidence_eq]
  unfold recordInstanceDirectiveResult
  dsimp only
  split
  · unfold setRecoveryWindowCondition
    split
    · exact hset _ _ _ _ _ (by decide) ⟨_, hevidence.trans hcopied, hreported⟩
    · split <;> exact hset _ _ _ _ _ (by decide)
        (hset _ _ _ _ _ (by decide) ⟨_, hevidence.trans hcopied, hreported⟩)
  · exact hset _ _ _ _ _ (by decide) ⟨_, hcopied, hreported⟩

end Mspsql
