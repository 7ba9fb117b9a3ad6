import Mspsql.Hub.Replanning

/-!
# Stability of the planner

An instance at rest stays at rest, and one whose members are reported under new addresses
comes to rest again (`planner_stable`).  The planner has no memory but the stored plan and the
fingerprint, so `Progress` tells from these how far the rounds have come.
-/

namespace Mspsql

open MultiSitePostgres List

namespace HubState

/-! ## No report of a revision not issued -/

structure NothingAhead (status : MultiSitePostgresStatus) : Prop where
  nonneg : 0 ≤ status.activeRevision
  entries : ∀ e ∈ status.sites, e.appliedRevision ≤ status.activeRevision ∧
    e.desiredRevision ≤ status.activeRevision

theorem NothingAhead.previous {status : MultiSitePostgresStatus} (h : NothingAhead status)
    (name : String) :
    (previousSiteStatus status.sites name).appliedRevision ≤ status.activeRevision := by
  rcases previousSiteStatus_cases status.sites name with ⟨hnone, -⟩ | ⟨hmem, -⟩
  · rw [hnone]
    exact h.nonneg
  · exact (h.entries _ hmem).1

theorem NothingAhead.recorded {i : MultiSitePostgres} {fingerprint : PlanFingerprint}
    {d : MultiSitePostgresStatus} (hrecords : RecordsPlans i fingerprint d)
    {status : MultiSitePostgresStatus} (h : NothingAhead status)
    (hsites : i.status.sites = status.sites)
    (hrev : status.activeRevision ≤ i.status.activeRevision) : NothingAhead d := by
  refine ⟨hrecords.activeRevision ▸ h.nonneg.trans hrev, fun e he => ?_⟩
  obtain ⟨phases, hentries⟩ := hrecords.sites
  rw [hentries] at he
  obtain ⟨site, -, rfl⟩ := mem_map.mp he
  rw [hrecords.activeRevision]
  refine ⟨?_, le_refl _⟩
  show (previousSiteStatus i.status.sites site.name).appliedRevision ≤ _
  rw [hsites]
  exact (h.previous site.name).trans hrev

variable {reads : HubReads} {config : HubConfig} {s t u : HubState} {inputs : PlanInputs}
  {n : Nat}

theorem OutcomeCase.nothingAhead {now : Time} {view : MultiSitePostgres} {o : Outcome}
    {d : MultiSitePostgresStatus} (hcase : OutcomeCase reads now view o) (hd : o.status = some d)
    (h : NothingAhead view.status) : NothingAhead d := by
  cases hcase with
  | quiet _ status _ =>
    have hkeeps := status d hd
    refine ⟨hkeeps.activeRevision ▸ h.nonneg, ?_⟩
    rw [hkeeps.sites, hkeeps.activeRevision]
    exact h.entries
  | issued prepared inputs n _ _ observed _ _ status _ =>
    refine h.recorded (status d hd).2 ?_ ?_
    · rw [withRevision_sites, sites_of_core observed.core]
    rw [withRevision_activeRevision, activeRevision_of_core observed.core]
    split
    · exact le_refl _
    · exact le_nextRevision _
  | deletion _ revised hrevised _ status _ =>
    refine h.recorded (status d hd).2 ?_ ?_
    · rw [hrevised]
    · rw [hrevised]
      exact le_nextRevision _

theorem NothingAhead.merged {current desired : MultiSitePostgresStatus}
    (hcur : NothingAhead current) (hdesired : NothingAhead desired) :
    NothingAhead (mergeReconciledStatus current desired) := by
  have hmax := le_mergeReconciledStatus current desired
  refine ⟨hcur.nonneg.trans hmax.1, fun e he => ?_⟩
  obtain ⟨wanted, hwanted, -, hrev, hreports⟩ := mergeReconciledSites_mem he
  rw [hrev]
  refine ⟨?_, (hdesired.entries wanted hwanted).2.trans hmax.2⟩
  rcases hreports with ⟨hsame, -⟩ | ⟨-, x, hx, -, hsame⟩
  · rw [hsame.appliedRevision]
    exact (hdesired.entries wanted hwanted).1.trans hmax.2
  · rw [hsame.appliedRevision]
    exact (hcur.entries x hx).1.trans hmax.1

theorem NothingAhead.message {status : MultiSitePostgresStatus} (h : NothingAhead status)
    (message : PlanMessage) (now : Time) (entry generation : Nat) :
    NothingAhead { status with
      sites := status.sites.modify entry fun site =>
        stampGeneration generation (message.update now site) } := by
  refine ⟨h.nonneg, fun x hx => ?_⟩
  rcases Lists.mem_modify hx with hold | ⟨site, hsite, rfl⟩
  · exact h.entries x hold
  have hmem := h.entries site (mem_of_getElem? hsite)
  have hupdate := message.update_spec now site
  refine ⟨?_, hupdate.desiredRevision.le.trans hmem.2⟩
  show (message.update now site).appliedRevision ≤ status.activeRevision
  rcases hupdate.appliedRevision with hsame | ⟨result, -, happlied, hrev⟩
  · rw [hsame]
    exact hmem.1
  · rw [happlied, hrev]
    exact hmem.2

structure Timely (s : HubState) : Prop where
  names : (s.stored.spec.sites.map (·.name)).Nodup
  ahead : Everywhere NothingAhead s

theorem Timely.step {e : HubEvent} (h : Timely s) (hst : s.step config e = some t) : Timely t := by
  have hstored := h.ahead.throughout.stored
  refine ⟨(step_case hst).names h.names, h.ahead.step hst
    (fun _ _ _ _ _ _ hview hd => OutcomeCase.nothingAhead (reconcile_case ..) hd hview)
    (fun _ _ => .merged) (fun _ _ _ _ _ _ => hstored.message ..) fun he => ?_⟩
  cases step_case hst with
  | backupResult hrecords | upgradeBackupSucceeded hrecords =>
    rw [hrecords.eq]
    exact ⟨hstored.nonneg, hstored.entries⟩
  | upgradeBackupFailed => exact hstored
  | _ => cases he

open Machine

theorem timely_of_reach (h : Reach (step config) (Initial config) anyStep s) : Timely s := by
  refine h.invariant (fun s hinit => ?_) fun _ _ _ hinv _ hst => hinv.step hst
  refine ⟨hinit.admitted.names_nodup, .initial hinit ⟨hinit.activeRevision.ge, ?_⟩⟩
  rw [hinit.sites]
  exact nofun

/-! ## Two reconciles in a row -/

theorem lt_nextRevision (revision : Int) : revision < nextRevision revision := by
  unfold nextRevision
  split <;> omega

theorem addressPlan_of_waiting (reads : HubReads) (hmig : s.migration.isSome = true)
    (happlied : s.allApplied = false) :
    addressPlan (s.readsOf reads) s.stored = ⟨s.assigned, s.observed, s.migration⟩ := by
  exact if_pos ⟨hmig, happlied⟩

/-- After a reconcile the sites have not applied its plans yet, unless it issued none and
they had before. -/
theorem Replanned.unapplied (h : Replanned reads s t inputs)
    (hahead : NothingAhead s.stored.status) (hsites : s.stored.status.sites ≠ [])
    (hnew : t.stored.status.planFingerprint ≠ s.stored.status.planFingerprint ∨
      s.allApplied = false) : t.allApplied = false := by
  have hcongr : t.allApplied =
      allSitesApplied s.stored.status.sites t.stored.status.activeRevision :=
    allSitesApplied_congr (h.entries.imp fun _ _ hsame => hsame.appliedRevision) _
  rw [hcongr]
  by_cases hsame : s.stored.status.planFingerprint = t.stored.status.planFingerprint
  · rw [h.activeRevision, if_pos hsame]
    exact hnew.resolve_left fun hne => hne hsame.symm
  rw [h.activeRevision, if_neg hsame]
  by_contra happlied
  obtain ⟨e, rest, hcons⟩ := exists_cons_of_ne_nil hsites
  have hmem : e ∈ s.stored.status.sites := hcons ▸ mem_cons_self
  have happlied := allSitesApplied_mem (Bool.not_eq_false _ ▸ happlied) hmem
  have hle := (hahead.entries e hmem).1
  have hlt := lt_nextRevision s.stored.status.activeRevision
  omega

theorem Quiescent.entries_ne_nil (h : Quiescent s) : s.stored.status.sites ≠ [] := by
  intro hnil
  have hnames := h.names
  rw [hnil] at hnames
  exact sites_ne_nil_of_complete h.complete (map_eq_nil_iff.mp hnames.symm)

theorem pendingMembers_congr (hassigned : t.assigned = s.assigned)
    (hobs : t.observed = s.observed) (hdemanded : t.demanded = s.demanded) :
    t.pendingMembers = s.pendingMembers := by
  rw [pendingMembers, pendingMembers, hassigned, hobs, hdemanded]

theorem Quiescent.replanned (hquiet : Quiescent s) (hahead : NothingAhead s.stored.status)
    (h : Replanned reads s t inputs) :
    addressPlan (t.readsOf reads) t.stored = inputs.addresses := by
  have hsites := sites_ne_nil_of_complete hquiet.complete
  have hassigned := h.assigned_eq hsites
  have hmig := h.migration_eq hsites
  have hmove := nextMove reads hquiet.complete (.inl hquiet.migration)
  rw [← h.addresses] at hmove
  generalize hplan : inputs.addresses = plan at hmove
  rw [hplan] at hassigned hmig
  cases hmove with
  | settled none_pending =>
    have hpend := pendingMembers_congr hassigned h.observed_eq h.demanded_eq
    have hcomplete : addressesComplete t.assigned t.demanded = true := by
      rw [hassigned, h.demanded_eq]
      exact hquiet.complete
    have hnext := nextMove reads hcomplete (.inl hmig)
    generalize addressPlan (t.readsOf reads) t.stored = next at hnext
    cases hnext with
    | settled => rw [hassigned, h.observed_eq]
    | moves pending =>
      rw [hpend, none_pending] at pending
      cases pending
  | moves =>
    -- the first plans with a migration are new
    have hnew : t.stored.status.planFingerprint ≠ s.stored.status.planFingerprint := by
      intro hsame
      have hnone := hquiet.recorded
      rw [← hsame, h.planFingerprint, hplan] at hnone
      cases hnone
    rw [addressPlan_of_waiting reads (by rw [hmig]; rfl)
      (h.unapplied hahead hquiet.entries_ne_nil (.inl hnew)), hassigned, hmig,
      h.observed_eq]

theorem Quiescent.rerotated (hquiet : Quiescent s) (hahead : NothingAhead s.stored.status)
    (h : Replanned reads s t inputs) : t.carriedRotation = inputs.rotation := by
  have hsites := sites_ne_nil_of_complete hquiet.complete
  have hrotation := h.rotation_eq hsites
  have hcarried := h.rotation hquiet.staged
  by_cases hcarries : s.rotation.isSome = true ∧ s.allApplied = false
  · have hunapplied := h.unapplied hahead hquiet.entries_ne_nil (.inr hcarries.2)
    rw [carriedRotation, if_pos hcarries] at hcarried
    rw [carriedRotation, hrotation, if_pos ⟨hcarried ▸ hcarries.1, hunapplied⟩]
  · rw [carriedRotation, if_neg hcarries] at hcarried
    rw [carriedRotation, hrotation, hcarried]
    exact if_neg fun hnone => by cases hnone.1

theorem Quiescent.reconciled_twice (hquiet : Quiescent s) (htimely : Timely s)
    (h : Reconciled config reads s t) (h' : Reconciled config reads t u) : SamePlans t u := by
  have second : Beside s t → ReconcileCase reads t u := fun hbeside =>
    h'.case (hbeside.request.deleting.trans hquiet.deleting) (hbeside.names hquiet.names)
      (hbeside.request.spec ▸ htimely.names)
  cases h.case hquiet.deleting hquiet.names htimely.names with
  | rejected beside same refused =>
    cases second beside with
    | rejected _ same' _ => exact same'
    | planned inputs' planned' =>
      exact absurd ((Accepts.of_rests beside.upgrades beside.request).mp planned'.accepts)
        (refused _)
  | planned inputs planned =>
    cases second planned.toBeside with
    | rejected _ same' _ => exact same'
    | planned inputs' planned' =>
      refine planned.stable ⟨⟨rfl, rfl, rfl⟩, rfl, ⟨_, _, rfl⟩⟩ planned' ?_ ?_
      · rw [planned'.addresses]
        exact hquiet.replanned htimely.ahead.throughout.stored planned
      · rw [planned'.rotation (planned.staged hquiet.staged)]
        exact hquiet.rerotated htimely.ahead.throughout.stored planned

/-! ## Reconciles that alternate with the sites -/

/-- Every site has applied the active revision and reports it; addresses are reported as
before, and no credential is staged. -/
structure SitesApplied (s t : HubState) : Prop where
  planMaps : t.planMaps = s.planMaps
  upgrades : t.upgrades = s.upgrades
  stored : t.stored = { s.stored with status := { s.stored.status with
    sites := t.stored.status.sites } }
  entries : List.Forall₂ (fun x y => y.name = x.name ∧ y.addresses = x.addresses ∧
    y.appliedRevision = s.stored.status.activeRevision) s.stored.status.sites
    t.stored.status.sites
  staged : commonStagedCredentialVersion t.stored = none

/-- `n` times a reconcile after which all sites apply what it issued. -/
inductive Rounds (config : HubConfig) (reads : HubReads) (s : HubState) : Nat → HubState → Prop
    where
  | start : Rounds config reads s 0 s
  | round {n : Nat} {s' t u : HubState} : Rounds config reads s n s' →
      Reconciled config reads s' t → SitesApplied t u → Rounds config reads s (n + 1) u

/-- A reconcile issues a new revision, whose plans all carry this migration. -/
structure Issues (s t : HubState) (migration : Option AddressMigrationPlan) : Prop where
  activeRevision : t.stored.status.activeRevision =
    nextRevision s.stored.status.activeRevision
  plans : ∀ site ∈ s.stored.spec.sites, ∃ p ∈ t.planMaps.get? site.name,
    p.revision = t.stored.status.activeRevision ∧ p.addressMigration = migration

namespace SitesApplied

variable {s t : HubState}

theorem rests (h : SitesApplied s t) : Rests s t := by
  have hstored := h.stored
  refine ⟨⟨?_, ?_, h.planMaps⟩, h.upgrades, ⟨_, _, hstored⟩⟩
  · rw [hstored]
  · rw [hstored]

theorem observed_eq (h : SitesApplied s t) : t.observed = s.observed :=
  observedAddresses_congr (h.entries.imp fun _ _ hsame => hsame.2.1)

theorem names_eq (h : SitesApplied s t) :
    t.stored.status.sites.map (·.name) = s.stored.status.sites.map (·.name) :=
  (Lists.map_eq_of_forall₂ (h.entries.imp fun _ _ hsame => hsame.1.symm)).symm

theorem allApplied (h : SitesApplied s t) (hne : t.stored.status.sites ≠ []) :
    t.allApplied = true := by
  have hactive := h.rests.activeRevision
  have hall : ∀ {l l' : List SiteRevisionStatus}, List.Forall₂ (fun x y =>
      y.name = x.name ∧ y.addresses = x.addresses ∧
        y.appliedRevision = s.stored.status.activeRevision) l l' →
      ∀ e ∈ l', e.appliedRevision = s.stored.status.activeRevision := by
    intro l l' hl
    induction hl with
    | nil => exact nofun
    | cons hab _ ih =>
      intro e he
      rcases mem_cons.mp he with rfl | he
      · exact hab.2.2
      · exact ih e he
  rw [HubState.allApplied, allSitesApplied, hactive]
  simp only [Bool.and_eq_true, Bool.not_eq_true', isEmpty_eq_false_iff, all_eq_true,
    decide_eq_true_eq]
  exact ⟨hne, hall h.entries⟩

end SitesApplied

theorem Rests.activePlan (h : Rests s t) : t.activePlan = s.activePlan := by
  unfold HubState.activePlan activeSitePlan
  rw [h.request.spec, h.planMaps]

theorem Rests.assigned (h : Rests s t) : t.assigned = s.assigned :=
  congrArg (fun p => (p.map (·.memberAddresses)).getD ∅) h.activePlan

theorem Rests.migration (h : Rests s t) : t.migration = s.migration :=
  congrArg (fun p => p.bind (·.addressMigration)) h.activePlan

theorem Rests.demanded (h : Rests s t) : t.demanded = s.demanded := by
  rw [HubState.demanded, h.request.spec]
  rfl

/-- Between two rounds. -/
structure Resting (s : HubState) : Prop where
  deleting : s.stored.deleting = false
  names : s.stored.status.sites.map (·.name) = s.stored.spec.sites.map (·.name)
  distinct : (s.stored.spec.sites.map (·.name)).Nodup
  staged : commonStagedCredentialVersion s.stored = none
  complete : addressesComplete s.assigned s.demanded = true
  done : s.migration = none ∨ s.allApplied = true
  recorded : ∀ f, s.stored.status.planFingerprint = .sum f → f.addressMigration = s.migration ∧
    (s.migration ≠ none → f.addresses = s.assigned)

namespace Resting

variable {reads : HubReads} {s t u : HubState} {inputs : PlanInputs}

theorem of_quiescent (h : Quiescent s) (hdistinct : (s.stored.spec.sites.map (·.name)).Nodup) :
    Resting s where
  deleting := h.deleting
  names := h.names
  distinct := hdistinct
  staged := h.staged
  complete := h.complete
  done := .inl h.migration
  recorded f hf := by
    have hnone := h.recorded
    rw [hf] at hnone
    exact ⟨hnone.trans h.migration.symm, fun hne => absurd h.migration hne⟩

theorem move (h : Resting s) (hplanned : Replanned reads s t inputs) :
    NextMove s inputs.addresses := by
  rw [hplanned.addresses]
  exact nextMove reads h.complete h.done

theorem complete_next (h : Resting s) {plan : AddressPlan} (hmove : NextMove s plan) :
    addressesComplete plan.memberAddresses s.demanded = true := by
  cases hmove with
  | settled => exact h.complete
  | @moves member rest pending =>
    obtain ⟨hne, hall⟩ := addressesComplete_iff.mp h.complete
    refine addressesComplete_iff.mpr ⟨hne, fun other hother => ?_⟩
    rw [addressIn_insert]
    split
    · have hchanged := (mem_pendingMembers.mp (pending ▸ mem_cons_self)).2
      exact (of_decide_eq_true hchanged).1
    · exact hall other hother

theorem round (h : Resting s) (hplanned : Replanned reads s t inputs)
    (happlied : SitesApplied t u) :
    Resting u ∧ u.allApplied = true ∧ u.observed = s.observed ∧
      u.assigned = inputs.addresses.memberAddresses ∧
      u.migration = inputs.addresses.addressMigration := by
  have hsites := sites_ne_nil_of_complete h.complete
  have hrests := happlied.rests
  have hassigned := hrests.assigned.trans (hplanned.assigned_eq hsites)
  have hmig := hrests.migration.trans (hplanned.migration_eq hsites)
  have hrequest := hplanned.request.trans hrests.request
  have hnames : u.stored.status.sites.map (·.name) = u.stored.spec.sites.map (·.name) := by
    rw [happlied.names_eq, hrests.request.spec]
    exact hplanned.names h.names
  have hall : u.allApplied = true := by
    refine happlied.allApplied fun hnil => ?_
    rw [hnil, hrequest.spec] at hnames
    exact hsites (map_eq_nil_iff.mp hnames.symm)
  refine ⟨⟨hrequest.deleting.trans h.deleting, hnames, hrequest.spec ▸ h.distinct,
    happlied.staged, ?_, .inr hall, fun f hf => ?_⟩, hall,
    happlied.observed_eq.trans hplanned.observed_eq, hassigned, hmig⟩
  · rw [hassigned, hrests.demanded, hplanned.demanded_eq]
    exact h.complete_next (h.move hplanned)
  rw [hrests.planFingerprint, hplanned.planFingerprint, PlanFingerprint.sum.injEq] at hf
  rw [hmig, hassigned, ← hf]
  exact ⟨rfl, fun _ => rfl⟩

theorem fingerprint_ne_of_moves (h : Resting s) (hplanned : Replanned reads s t inputs)
    {member : String} {rest : List String} (hpend : s.pendingMembers = member :: rest)
    (haddr : inputs.addresses = ⟨s.assigned.insert member (addressIn s.observed member),
      s.observed, some (migrationOf s.stored.uid s.assigned s.observed member)⟩) :
    s.stored.status.planFingerprint ≠ t.stored.status.planFingerprint := by
  intro hsame
  rw [hplanned.planFingerprint, haddr] at hsame
  obtain ⟨hmig, hassigned⟩ := h.recorded _ hsame
  have hinserted : s.assigned.insert member (addressIn s.observed member) = s.assigned :=
    hassigned (by rw [← hmig]; exact Option.some_ne_none _)
  have hmoved := addressIn_insert s.assigned member member (addressIn s.observed member)
  rw [hinserted, if_pos rfl] at hmoved
  have hchanged := (mem_pendingMembers.mp (hpend ▸ mem_cons_self)).2
  exact (of_decide_eq_true hchanged).2 hmoved.symm

end Resting

theorem Replanned.issues (h : Replanned reads s t inputs)
    (hnew : s.stored.status.planFingerprint ≠ t.stored.status.planFingerprint) :
    Issues s t inputs.addresses.addressMigration where
  activeRevision := by rw [h.activeRevision, if_neg hnew]
  plans site hsite := by
    obtain ⟨r, p, -, hp, hsame⟩ := h.plans site hsite
    have hplan : { p with generatedAt := 0 } = sitePlan t.stored inputs 0 r site := hsame 0
    exact ⟨p, hp, congrArg SitePlan.revision hplan, congrArg SitePlan.addressMigration hplan⟩

/-! ## Progress -/

theorem pendingMembers_of_moved {member : String} {rest : List String}
    (hpend : s.pendingMembers = member :: rest)
    (hassigned : u.assigned = s.assigned.insert member (addressIn s.observed member))
    (hobs : u.observed = s.observed) (hdemanded : u.demanded = s.demanded) :
    u.pendingMembers = rest := by
  have hchanged : ∀ other, addressChanged u.assigned u.observed other =
      (decide (other ≠ member) && addressChanged s.assigned s.observed other) := by
    intro other
    unfold addressChanged
    rw [hassigned, hobs, addressIn_insert]
    by_cases heq : member = other
    · simp [heq]
    · simp [heq, Ne.symm heq]
  have hfilter : u.pendingMembers = s.pendingMembers.filter (· ≠ member) := by
    rw [pendingMembers, pendingMembers, hdemanded, filter_filter]
    exact filter_congr fun other _ => hchanged other
  have hascending := s.pendingMembers_ascending
  rw [hpend, pairwise_cons] at hascending
  rw [hfilter, hpend, filter_cons_of_neg (by simp)]
  exact filter_eq_self.mpr fun other hother =>
    decide_eq_true (ne_of_gt (hascending.1 other hother))

/-- Where the rounds from `s` have got to after `n` of them. -/
structure Progress (reads : HubReads) (s : HubState) (n : Nat) (u : HubState) : Prop where
  resting : Resting u
  request : SameRequest s.stored u.stored
  upgrades : u.upgrades = s.upgrades
  observed : u.observed = s.observed
  pending : u.pendingMembers = s.pendingMembers.drop n
  assigned : ∀ member, addressIn u.assigned member =
    if member ∈ s.pendingMembers.take n then addressIn s.observed member
    else addressIn s.assigned member
  applied : 0 < n → u.allApplied = true
  moving : 0 < n → n ≤ s.pendingMembers.length → u.migration ≠ none
  /-- Once everything has moved, the plans are those of the last reconcile. -/
  still : s.pendingMembers.length < n → ∃ s₀ t₀ inputs, Replanned reads s₀ t₀ inputs ∧
    Rests t₀ u ∧ inputs.addresses = ⟨u.assigned, u.observed, none⟩ ∧ inputs.rotation = none

theorem Progress.start (h : Resting s) : Progress reads s 0 s where
  resting := h
  request := ⟨_, _, rfl⟩
  upgrades := rfl
  observed := rfl
  pending := rfl
  assigned member := by rw [take_zero, if_neg not_mem_nil]
  applied hn := absurd hn (lt_irrefl 0)
  moving hn := absurd hn (lt_irrefl 0)
  still hn := absurd hn (Nat.not_lt_zero _)

theorem Progress.round {s' : HubState} (h : Progress reads s n s')
    (hpos : 0 < s.pendingMembers.length) (hplanned : Replanned reads s' t inputs)
    (happlied : SitesApplied t u) :
    Progress reads s (n + 1) u := by
  obtain ⟨hresting, hall, hobs, hassigned, hmig⟩ := h.resting.round hplanned happlied
  have hrests := happlied.rests
  have hrequest := h.request.trans (hplanned.request.trans hrests.request)
  have hupgrades := hrests.upgrades.trans (hplanned.upgrades.trans h.upgrades)
  have hdemanded : u.demanded = s'.demanded := hrests.demanded.trans hplanned.demanded_eq
  have hmove := h.resting.move hplanned
  have hnext := h.pending
  generalize hplan : inputs.addresses = plan at hmove hassigned hmig
  cases hmove with
  | settled none_pending =>
    rw [none_pending] at hnext
    have hlength : s.pendingMembers.length ≤ n := drop_eq_nil_iff.mp hnext.symm
    refine ⟨hresting, hrequest, hupgrades, hobs.trans h.observed, ?_, fun member => ?_,
      fun _ => hall, fun _ hle => by omega, fun _ => ?_⟩
    · rw [pendingMembers_congr hassigned hobs hdemanded, none_pending, drop_eq_nil_of_le (by omega)]
    · rw [hassigned, h.assigned member, take_of_length_le hlength, take_of_length_le (by omega)]
    refine ⟨s', t, inputs, hplanned, hrests, ?_, ?_⟩
    · rw [hplan, hassigned, hobs]
    rw [hplanned.rotation h.resting.staged, carriedRotation, if_neg]
    rw [h.applied (by omega)]
    exact fun hfalse => by cases hfalse.2
  | @moves member rest pending =>
    rw [pending] at hnext
    obtain ⟨hlength, hmember, hrest, htake⟩ := Lists.of_drop_eq_cons hnext.symm
    refine ⟨hresting, hrequest, hupgrades, hobs.trans h.observed, ?_, fun other => ?_,
      fun _ => hall, fun _ _ => ?_, fun hlt => by omega⟩
    · rw [pendingMembers_of_moved pending hassigned hobs hdemanded, hrest]
    · rw [hassigned, addressIn_insert, h.assigned other, h.observed, htake]
      by_cases heq : member = other
      · rw [if_pos heq, if_pos (by rw [heq]; exact mem_append_right _ (mem_singleton_self _)), heq]
      have hiff : other ∈ s.pendingMembers.take n ++ [member] ↔
          other ∈ s.pendingMembers.take n := by
        rw [mem_append, mem_singleton]
        exact or_iff_left (Ne.symm heq)
      rw [if_neg heq]
      simp only [hiff]
    · rw [hmig]
      exact Option.some_ne_none _

theorem Progress.planned {s' : HubState} {r : MultiSitePostgres × PlanInputs}
    (h : Progress reads s n s') (hok : prepare (s.readsOf reads) s.stored = .ok r)
    (hreconciled : Reconciled config reads s' t) :
    ∃ inputs, Replanned reads s' t inputs := by
  cases hreconciled.case h.resting.deleting h.resting.names h.resting.distinct with
  | rejected _ _ refused =>
    have haccepts := (prepare_ok hok).2.1
    exact absurd ((Accepts.of_rests h.upgrades h.request).mpr haccepts) (refused _)
  | planned inputs planned => exact ⟨inputs, planned⟩

theorem Rounds.progress {r : MultiSitePostgres × PlanInputs} (h : Rounds config reads s n u)
    (hresting : Resting s) (hok : prepare (s.readsOf reads) s.stored = .ok r)
    (hpos : 0 < s.pendingMembers.length) :
    Progress reads s n u := by
  induction h with
  | start => exact .start hresting
  | round _ hreconciled happlied ih =>
    obtain ⟨inputs, hplanned⟩ := ih.planned hok hreconciled
    exact ih.round hpos hplanned happlied

/-- What the reconcile after `n` rounds from `s` does, which leads from `u` to `t`. -/
structure RoundOutcome (s : HubState) (n : Nat) (u t : HubState) : Prop where
  moves : ∀ member, s.pendingMembers[n]? = some member →
    Issues u t (some (migrationOf s.stored.uid s.assigned s.observed member))
  last : n = s.pendingMembers.length → Issues u t none
  still : s.pendingMembers.length < n → SamePlans u t
  final : s.pendingMembers.length ≤ n → ∀ site ∈ s.stored.spec.sites,
    ∃ p ∈ t.planMaps.get? site.name, ∀ member ∈ s.pendingMembers,
      addressIn p.memberAddresses member = addressIn s.observed member

theorem Progress.outcome (h : Progress reads s n u) (hpos : 0 < s.pendingMembers.length)
    (hplanned : Replanned reads u t inputs) : RoundOutcome s n u t := by
  have huid : u.stored.uid = s.stored.uid := by
    obtain ⟨status, finalizer, heq⟩ := h.request
    rw [heq]
  have hmove := h.resting.move hplanned
  have hnext := h.pending
  generalize hplan : inputs.addresses = plan at hmove
  cases hmove with
  | settled none_pending =>
    rw [none_pending] at hnext
    have hlength : s.pendingMembers.length ≤ n := drop_eq_nil_iff.mp hnext.symm
    refine ⟨fun member hmember => ?_, fun hn => ?_, fun hlt => ?_, fun _ site hsite => ?_⟩
    · rw [getElem?_eq_none hlength] at hmember
      cases hmember
    · have hissues := hplanned.issues fun hsame => ?_
      · rw [hplan] at hissues
        exact hissues
      · rw [hplanned.planFingerprint, hplan] at hsame
        exact h.moving (by omega) hn.le (h.resting.recorded _ hsame).1.symm
    · obtain ⟨s₀, t₀, inputs₀, hplanned₀, hrests, haddr, hrotation⟩ := h.still hlt
      refine hplanned₀.stable hrests hplanned (by rw [hplan, haddr]) ?_
      rw [hrotation, hplanned.rotation h.resting.staged, carriedRotation, if_neg]
      rw [h.applied (by omega)]
      exact fun hfalse => by cases hfalse.2
    · rw [← h.request.spec] at hsite
      obtain ⟨r, p, -, hp, hsame⟩ := hplanned.plans site hsite
      have hcontent : { p with generatedAt := 0 } = sitePlan t.stored inputs 0 r site := hsame 0
      have haddr : p.memberAddresses = inputs.addresses.memberAddresses :=
        congrArg SitePlan.memberAddresses hcontent
      refine ⟨p, hp, fun member hmember => ?_⟩
      rw [haddr, hplan, h.assigned member, take_of_length_le hlength, if_pos hmember]
  | @moves member rest pending =>
    rw [pending] at hnext
    obtain ⟨hlength, hmember, hrest, htake⟩ := Lists.of_drop_eq_cons hnext.symm
    refine ⟨fun other hother => ?_, fun hn => by omega, fun hlt => by omega, fun hle => by omega⟩
    obtain rfl : member = other := Option.some.inj (hmember.symm.trans hother)
    have hissues := hplanned.issues (h.resting.fingerprint_ne_of_moves hplanned pending hplan)
    -- the member still has the address it had at the start
    have hnot : member ∉ s.pendingMembers.take n := by
      intro hin
      have hascending := s.pendingMembers_ascending
      rw [← take_append_drop n s.pendingMembers, ← hnext, pairwise_append] at hascending
      exact lt_irrefl _ (hascending.2.2 member hin member mem_cons_self)
    have hold : addressIn u.assigned member = addressIn s.assigned member := by
      rw [h.assigned member, if_neg hnot]
    rw [hplan] at hissues
    unfold migrationOf at hissues
    rw [huid, h.observed, hold] at hissues
    exact hissues

/-- Two reconciles in a row leave the plans as they are.  When reconciles alternate with the
sites applying their plans, each member that is reported under another address moves in a
revision of its own, in ascending order, one more revision drops the last migration, and
then the plans stay as they are, with the reported addresses assigned. -/
theorem planner_stable {config : HubConfig} {s : HubState}
    (hreach : Reach (step config) (Initial config) anyStep s)
    (hquiet : Quiescent s) (reads : HubReads) :
    (∀ t u, Reconciled config reads s t → Reconciled config reads t u → SamePlans t u) ∧
      s.pendingMembers.Pairwise (· < ·) ∧
      ∀ r, prepare (s.readsOf reads) s.stored = .ok r → 0 < s.pendingMembers.length →
        ∀ n u t, Rounds config reads s n u → Reconciled config reads u t →
          RoundOutcome s n u t := by
  have htimely := timely_of_reach hreach
  refine ⟨fun t u h h' => hquiet.reconciled_twice htimely h h', s.pendingMembers_ascending,
    fun r hok hpos n u t hrounds hreconciled => ?_⟩
  have hprogress := hrounds.progress (.of_quiescent hquiet htimely.names) hok hpos
  obtain ⟨inputs, hplanned⟩ := hprogress.planned hok hreconciled
  exact hprogress.outcome hpos hplanned

open Sample

def readdressed : HubState := after solo anyStep Sample.readdressed

def replanned (s : HubState) : Option HubState :=
  (s.step hub (.issue s.stored Sample.reads (fun _ => false) 0 3)).bind (·.step hub .commit)

def TwoToMove (s : HubState) : Prop :=
  Quiescent s ∧ s.pendingMembers = [nsw0, vic0] ∧
    (prepare (s.readsOf Sample.reads) s.stored).toOption.isSome = true ∧
    (s.outcome hub s.stored Sample.reads (fun _ => false) 0).plans.length ≤ 3 ∧
    (replanned s).isSome = true
deriving Decidable

theorem readdressed_reach : Reach (step hub) (Initial hub) anyStep readdressed ∧
      TwoToMove readdressed :=
  after_reach (P := TwoToMove) solo_initial (by decide +kernel)

theorem readdressed_moves : readdressed.pendingMembers = [nsw0, vic0] ∧
      ∃ t, Reconciled hub Sample.reads readdressed t ∧
        Issues readdressed t (some (migrationOf readdressed.stored.uid readdressed.assigned
          readdressed.observed nsw0)) := by
  obtain ⟨hreach, hquiet, hpend, hok, hplans, hsome⟩ := readdressed_reach
  obtain ⟨t, ht⟩ := Option.isSome_iff_exists.mp hsome
  obtain ⟨u, hissue, hcommit⟩ := Option.bind_eq_some_iff.mp ht
  have hreconciled : Reconciled hub Sample.reads readdressed t :=
    ⟨_, _, _, u, hplans, hissue, hcommit⟩
  obtain ⟨r, hr⟩ := Option.isSome_iff_exists.mp hok
  have hr : prepare (readdressed.readsOf Sample.reads) readdressed.stored = .ok r := by
    revert hr
    cases prepare (readdressed.readsOf Sample.reads) readdressed.stored with
    | error e => exact nofun
    | ok r' => exact fun h => congrArg Except.ok (Option.some.inj h)
  have houtcome := (planner_stable hreach hquiet Sample.reads).2.2 r hr
    (by rw [hpend]; decide) 0 readdressed t .start hreconciled
  exact ⟨hpend, t, hreconciled, houtcome.moves _ (by rw [hpend]; rfl)⟩

end HubState

end Mspsql
