import Mspsql.Hub.Acceptance

/-!
# Reconciles that run through

What a reconcile of the stored instance leaves behind when it is not interrupted: it is
turned away by validation and changes no plan, or it plans with the inputs `Replanned` names.
Planning again with the same addresses and rotation changes nothing (`Replanned.stable`), and
`nextMove` says which addresses come next once no migration waits for its sites.
-/

namespace Mspsql

open MultiSitePostgres List

/-! ## Entries a status write keeps -/

structure SameEntry (x y : SiteRevisionStatus) : Prop extends SameReports x y where
  name : y.name = x.name

theorem sameEntries_refl (l : List SiteRevisionStatus) : List.Forall₂ SameEntry l l :=
  forall₂_same.mpr fun x _ => ⟨SameReports.refl x, rfl⟩

theorem merged_sameEntries {current desired : List SiteRevisionStatus}
    (hnodup : (current.map (·.name)).Nodup) (h : List.Forall₂ SameEntry current desired) :
    List.Forall₂ SameEntry current (mergeReconciledSites current desired) := by
  rw [mergeReconciledSites, forall₂_map_right_iff]
  refine Lists.forall₂_imp_of_mem h fun x hx wanted hwanted => ?_
  rw [hwanted.name, previousSiteStatus_of_mem hnodup hx]
  split
  · exact ⟨⟨hwanted.acknowledgedRevision, hwanted.appliedRevision, hwanted.addresses,
      hwanted.conditions, hwanted.primary, hwanted.synchronousStandbys,
      hwanted.topologyObservedAt⟩, rfl⟩
  · exact ⟨⟨rfl, rfl, rfl, rfl, rfl, rfl, rfl⟩, rfl⟩

variable {i j : MultiSitePostgres} {l l' : List SiteRevisionStatus} {reads : HubReads}

theorem recorded_sameEntries (hnames : i.status.sites.map (·.name) = i.spec.sites.map (·.name))
    (hnodup : (i.spec.sites.map (·.name)).Nodup) (phases : PostgresSiteSpec → String) :
    List.Forall₂ SameEntry i.status.sites
      (i.spec.sites.map fun site => { siteStatusFor i site with phase := phases site }) := by
  rw [forall₂_map_right_iff]
  refine Lists.forall₂_imp_of_mem (Lists.forall₂_of_map_eq hnames) fun x hx site hname => ?_
  have hprevious : previousSiteStatus i.status.sites site.name = x := by
    rw [← hname]
    exact previousSiteStatus_of_mem (hnames ▸ hnodup) hx
  refine ⟨⟨?_, ?_, ?_, ?_, ?_, ?_, ?_⟩, hname.symm⟩ <;>
    simp only [siteStatusFor, hprevious]

theorem observedAddresses_congr (h : List.Forall₂ (fun x y => y.addresses = x.addresses) l l') :
    observedAddresses l' = observedAddresses l := by
  have hfold : ∀ acc : StringMap, l'.foldl (fun acc s => acc.copyFrom s.addresses) acc =
        l.foldl (fun acc s => acc.copyFrom s.addresses) acc := by
    induction h with
    | nil => exact fun _ => rfl
    | cons hab _ ih =>
      intro acc
      rw [foldl_cons, foldl_cons, hab, ih]
  exact hfold ∅

theorem allSitesApplied_congr
    (h : List.Forall₂ (fun x y => y.appliedRevision = x.appliedRevision) l l') (revision : Int) :
    allSitesApplied l' revision = allSitesApplied l revision := by
  have hall : l'.all (fun s => s.appliedRevision = revision) =
      l.all (fun s => s.appliedRevision = revision) := by
    induction h with
    | nil => rfl
    | cons hab _ ih => rw [all_cons, all_cons, hab, ih]
  have hempty : l'.isEmpty = l.isEmpty := by cases h <;> rfl
  rw [allSitesApplied, allSitesApplied, hall, hempty]

theorem siteRoleForName_congr (h : j.spec = i.spec) (name : String) :
    siteRoleForName j name = siteRoleForName i name := by
  rw [siteRoleForName, siteRoleForName, h]

theorem commonVersion_congr (hspec : j.spec = i.spec) (type : String)
    (h : List.Forall₂ (fun x y => y.name = x.name ∧ y.conditions = x.conditions) l l')
    (version : Int) : commonVersion j type l' version = commonVersion i type l version := by
  induction h generalizing version with
  | nil => rfl
  | cons hab _ ih =>
    rw [commonVersion, commonVersion, siteRoleForName_congr hspec, credentialVersionIn,
      credentialVersionIn, hab.1, hab.2]
    simp only [ih]

theorem commonStagedCredentialVersion_congr (hspec : j.spec = i.spec)
    (h : List.Forall₂ (fun x y => y.name = x.name ∧ y.conditions = x.conditions)
      i.status.sites j.status.sites) :
    commonStagedCredentialVersion j = commonStagedCredentialVersion i := by
  have hany : ∀ {l l' : List SiteRevisionStatus},
      List.Forall₂ (fun x y => y.name = x.name ∧ y.conditions = x.conditions) l l' →
      l'.any (fun s => siteRoleForName j s.name ≠ some .witness) =
        l.any (fun s => siteRoleForName i s.name ≠ some .witness) := by
    intro l l' h
    induction h with
    | nil => rfl
    | cons hab _ ih => rw [any_cons, any_cons, ih, siteRoleForName_congr hspec, hab.1]
  rw [commonStagedCredentialVersion, commonStagedCredentialVersion, hany h,
    commonVersion_congr hspec _ h]

/-! ## Plans written -/

namespace HubState

variable {s : HubState} {plans : List SitePlan}

theorem planMaps_writePlan (s : HubState) (plan : SitePlan) (name : String) :
    (s.writePlan plan).planMaps.get? name =
      if plan.site.name = name ∧ planStored s.planMaps plan = false then some plan
      else s.planMaps.get? name := by
  unfold writePlan reconcilePlan
  by_cases hstored : planStored s.planMaps plan = true
  · simp [hstored]
  · by_cases hname : plan.site.name = name <;> simp [hstored, SortedMap.get?_insert]

theorem planMaps_writePlans_of_ne {name : String} (h : ∀ p ∈ plans, p.site.name ≠ name) :
    (s.writePlans plans).planMaps.get? name = s.planMaps.get? name := by
  induction plans generalizing s with
  | nil => rfl
  | cons plan rest ih =>
    have hrest := ih (s := s.writePlan plan) fun p hp => h p (mem_cons_of_mem _ hp)
    exact hrest.trans ((planMaps_writePlan ..).trans
      (if_neg fun hplan => h plan mem_cons_self hplan.1))

theorem stored_of_writePlans (hnodup : (plans.map (·.site.name)).Nodup) {p : SitePlan}
    (hp : p ∈ plans) :
    ∃ q, (s.writePlans plans).planMaps.get? p.site.name = some q ∧ q.sameContent p := by
  induction plans generalizing s with
  | nil => cases hp
  | cons plan rest ih =>
    obtain ⟨hnot, hrest⟩ := nodup_cons.mp hnodup
    rcases mem_cons.mp hp with rfl | hp
    · have hkept : (s.writePlans (p :: rest)).planMaps.get? p.site.name =
          (s.writePlan p).planMaps.get? p.site.name :=
        planMaps_writePlans_of_ne fun q hq heq => hnot (mem_map.mpr ⟨q, hq, heq⟩)
      rw [hkept, planMaps_writePlan]
      by_cases hstored : planStored s.planMaps p = true
      · rw [if_neg fun h => by rw [hstored] at h; exact absurd h.2 (by decide)]
        unfold planStored at hstored
        split at hstored
        · rename_i q hq
          exact ⟨q, hq, of_decide_eq_true hstored⟩
        · cases hstored
      · rw [if_pos ⟨rfl, Bool.not_eq_true _ ▸ hstored⟩]
        exact ⟨p, rfl, rfl⟩
    · exact ih hrest hp

theorem writePlans_of_stored (h : ∀ p ∈ plans, planStored s.planMaps p = true) : s.writePlans plans
    = s := by
  induction plans with
  | nil => rfl
  | cons plan rest ih =>
    have hplan : s.writePlan plan = s := if_pos (h plan mem_cons_self)
    show (s.writePlan plan).writePlans rest = s
    rw [hplan]
    exact ih fun p hp => h p (mem_cons_of_mem _ hp)

theorem applyOutcome_planMaps (s : HubState) (view : MultiSitePostgres) {o : Outcome}
    {writes : Nat} (h : o.plans.length ≤ writes) (hdelete : o.deletePlans = false) :
    (s.applyOutcome view o writes).planMaps = (s.writePlans o.plans).planMaps := by
  rw [applyOutcome_planMaps_eq, take_of_length_le h, if_neg (by omega), hdelete]
  rfl

end HubState

theorem signedPlans_sites {build : SiteRegistration → PostgresSiteSpec → SitePlan}
    (hbuild : ∀ r site, (build r site).site = site) {sites : List PostgresSiteSpec}
    (h : (signedPlans reads build sites).2 = true) :
    (signedPlans reads build sites).1.map (·.site) = sites := by
  induction sites with
  | nil => rfl
  | cons site rest ih =>
    rw [signedPlans] at h ⊢
    split at h
    · cases h
    split at h
    · cases h
    rename_i hsign
    obtain ⟨rfl, -⟩ := SitePlan.sign_ok hsign
    rw [map_cons, hbuild, ih h]

/-! ## What the planner works from -/

theorem addressPlan_of_core (h : j.core = i.core) : addressPlan reads j = addressPlan reads i := by
  unfold addressPlan activeSitePlan
  rw [sites_of_core h, activeRevision_of_core h, spec_of_core h, uid_of_core h]

theorem credentialRotationPlan_of_unstaged (h : commonStagedCredentialVersion i = none)
    (operationPending : Bool) :
    credentialRotationPlan reads i operationPending =
      if ((activeSitePlan reads i).bind (·.credentialRotation)).isSome ∧
          allSitesApplied i.status.sites i.status.activeRevision = false then
        (activeSitePlan reads i).bind (·.credentialRotation)
      else none := by
  unfold credentialRotationPlan
  dsimp only
  split
  · rfl
  · rw [h]
    split <;> rfl

theorem sitePlan_congr (h : SameRequest i j)
    (hrev : j.status.activeRevision = i.status.activeRevision) (inputs : PlanInputs)
    (now : Time) (registration : SiteRegistration) (site : PostgresSiteSpec) :
    sitePlan j inputs now registration site = sitePlan i inputs now registration site := by
  obtain ⟨status, finalizer, rfl⟩ := h
  unfold sitePlan
  rw [hrev]

theorem sitePlan_sameContent {inputs : PlanInputs} {now : Time} {registration : SiteRegistration}
    {site : PostgresSiteSpec} {p : SitePlan}
    (h : p.sameContent (sitePlan i inputs now registration site)) (now' : Time) :
    p.sameContent (sitePlan i inputs now' registration site) := by
  have hplan : { p with generatedAt := now } = sitePlan i inputs now registration site := h
  exact congrArg (fun q : SitePlan => { q with generatedAt := now' }) hplan

namespace HubState

def activePlan (s : HubState) : Option SitePlan :=
  activeSitePlan { planMaps := s.planMaps } s.stored

def assigned (s : HubState) : StringMap :=
  assignedAddresses { planMaps := s.planMaps } s.stored

def observed (s : HubState) : StringMap := observedAddresses s.stored.status.sites

def migration (s : HubState) : Option AddressMigrationPlan :=
  activeMigration { planMaps := s.planMaps } s.stored

def demanded (s : HubState) : List String := expectedAddressMembers s.stored.spec.sites

def allApplied (s : HubState) : Bool :=
  allSitesApplied s.stored.status.sites s.stored.status.activeRevision

def rotation (s : HubState) : Option CredentialRotationPlan :=
  s.activePlan.bind (·.credentialRotation)

def carriedRotation (s : HubState) : Option CredentialRotationPlan :=
  if s.rotation.isSome ∧ s.allApplied = false then s.rotation else none

/-! ## Complete reconciles -/

def Reconciled (config : HubConfig) (reads : HubReads) (s t : HubState) : Prop :=
  ∃ fails now writes u, (s.outcome config s.stored reads fails now).plans.length ≤ writes ∧
    s.step config (.issue s.stored reads fails now writes) = some u ∧
    u.step config .commit = some t

structure SamePlans (s t : HubState) : Prop where
  activeRevision : t.stored.status.activeRevision = s.stored.status.activeRevision
  planFingerprint : t.stored.status.planFingerprint = s.stored.status.planFingerprint
  planMaps : t.planMaps = s.planMaps

/-- What a reconcile leaves alone. -/
structure Beside (s t : HubState) : Prop where
  upgrades : t.upgrades = s.upgrades
  request : SameRequest s.stored t.stored
  entries : List.Forall₂ SameEntry s.stored.status.sites t.stored.status.sites

variable {s t : HubState} {reads : HubReads}

theorem Beside.names (h : Beside s t)
    (hnames : s.stored.status.sites.map (·.name) = s.stored.spec.sites.map (·.name)) :
    t.stored.status.sites.map (·.name) = t.stored.spec.sites.map (·.name) := by
  rw [h.request.spec, ← hnames]
  exact (Lists.map_eq_of_forall₂ (h.entries.imp fun _ _ hsame => hsame.name.symm)).symm

theorem Beside.staged (h : Beside s t) (hstaged : commonStagedCredentialVersion s.stored = none) :
    commonStagedCredentialVersion t.stored = none := by
  rw [← hstaged]
  exact commonStagedCredentialVersion_congr h.request.spec
    (h.entries.imp fun _ _ hsame => ⟨hsame.name, hsame.conditions⟩)

/-- The second state is the hub after a complete reconcile that planned with `inputs`. -/
structure Replanned (reads : HubReads) (s t : HubState) (inputs : PlanInputs) : Prop
    extends Beside s t where
  accepts : Accepts (s.readsOf reads) s.stored (inputs.restore, inputs.upgrade, inputs.major)
  addresses : inputs.addresses = addressPlan (s.readsOf reads) s.stored
  rotation : commonStagedCredentialVersion s.stored = none → inputs.rotation = s.carriedRotation
  planFingerprint : t.stored.status.planFingerprint =
    .sum (planFingerprint s.stored inputs.addresses inputs.rotation)
  activeRevision : t.stored.status.activeRevision =
    if s.stored.status.planFingerprint = t.stored.status.planFingerprint then
      s.stored.status.activeRevision
    else nextRevision s.stored.status.activeRevision
  plans : ∀ site ∈ s.stored.spec.sites, ∃ r p,
    reads.registration? site.siteRegistrationRef = some r ∧
      t.planMaps.get? site.name = some p ∧
      ∀ now, p.sameContent (sitePlan t.stored inputs now r site)
  kept : (∀ site ∈ s.stored.spec.sites, ∀ r, reads.registration? site.siteRegistrationRef = some r →
    ∃ p, s.planMaps.get? site.name = some p ∧
      ∀ now, p.sameContent (sitePlan t.stored inputs now r site)) → t.planMaps = s.planMaps

/-- How a complete reconcile of an instance that is not being deleted can go. -/
inductive ReconcileCase (reads : HubReads) (s t : HubState) : Prop where
  | rejected (beside : Beside s t) (same : SamePlans s t)
      (refused : ∀ c, ¬ Accepts (s.readsOf reads) s.stored c)
  | planned (inputs : PlanInputs) (planned : Replanned reads s t inputs)

theorem le_nextRevision (revision : Int) : revision ≤ nextRevision revision := by
  unfold nextRevision
  split <;> omega

theorem Reconciled.stored {config : HubConfig} (h : Reconciled config reads s t) :
    ∃ fails now d f, (s.outcome config s.stored reads fails now).status = some d ∧
      t.upgrades = s.upgrades ∧
      t.stored = { s.stored with
        status := mergeReconciledStatus s.stored.status d, finalizer := f } ∧
      ((s.outcome config s.stored reads fails now).deletePlans = false →
        t.planMaps =
          (s.writePlans (s.outcome config s.stored reads fails now).plans).planMaps) := by
  obtain ⟨fails, now, writes, u, hwrites, hissue, hcommit⟩ := h
  cases step_case hissue with
  | issue view_mem pending =>
    obtain ⟨⟨f, hstored⟩, hpend, -⟩ := s.applyOutcome_complete s.stored hwrites
    cases step_case hcommit with
    | @commit d hd =>
      refine ⟨fails, now, d, f, hpend.symm.trans hd, ?_, ?_, fun hdelete => ?_⟩
      · rw [applyOutcome_eq]
        rfl
      · unfold storeStatus store
        rw [hstored]
      · exact s.applyOutcome_planMaps s.stored hwrites hdelete

theorem rejected_case {e : MultiSitePostgres} (hupgrades : t.upgrades = s.upgrades) {f : Bool}
    (hstored : t.stored = { s.stored with
      status := mergeReconciledStatus s.stored.status e.status, finalizer := f })
    (hplanMaps : t.planMaps = s.planMaps) (hobs : Observed s.stored e)
    (hnodup : (s.stored.status.sites.map (·.name)).Nodup)
    (hrefused : ∀ c, ¬ Accepts (s.readsOf reads) s.stored c) : ReconcileCase reads s t := by
  have hkeeps := hobs.keepsPlans
  refine .rejected ⟨hupgrades, ⟨_, _, hstored⟩, ?_⟩ ⟨?_, ?_, hplanMaps⟩ hrefused
  · rw [hstored]
    refine merged_sameEntries hnodup ?_
    rw [hkeeps.sites]
    exact sameEntries_refl _
  · rw [hstored]
    exact (mergeReconciledStatus_activeRevision hkeeps.activeRevision.ge).trans
      hkeeps.activeRevision
  · rw [hstored]
    exact hkeeps.planFingerprint

theorem planned_case {now : Time} {prepared : MultiSitePostgres} {inputs : PlanInputs}
    {d : MultiSitePostgresStatus} {f : Bool}
    (hprepare : prepare (s.readsOf reads) s.stored = .ok (prepared, inputs))
    (hupgrades : t.upgrades = s.upgrades) (hstored : t.stored = { s.stored with
      status := mergeReconciledStatus s.stored.status d, finalizer := f })
    (hcomplete : (signedPlans (s.readsOf reads) (sitePlan (withRevision prepared inputs) inputs now)
      s.stored.spec.sites).2 = true) (hrecords : RecordsPlans (withRevision prepared inputs)
      (.sum (planFingerprint prepared inputs.addresses inputs.rotation)) d)
    (hplanMaps : t.planMaps = (s.writePlans (signedPlans (s.readsOf reads)
      (sitePlan (withRevision prepared inputs) inputs now) s.stored.spec.sites).1).planMaps)
    (hnames : s.stored.status.sites.map (·.name) = s.stored.spec.sites.map (·.name))
    (hnodup : (s.stored.spec.sites.map (·.name)).Nodup) : Replanned reads s t inputs := by
  obtain ⟨hobs, haccepts, haddr, hrotation⟩ := prepare_ok hprepare
  have hkeeps := hobs.keepsPlans
  have hmoves := withRevision_activeRevision prepared inputs
  rw [hkeeps.activeRevision, hkeeps.planFingerprint, planFingerprint_of_observed hobs,
    ← hrecords.activeRevision] at hmoves
  have hprint : t.stored.status.planFingerprint =
      .sum (planFingerprint s.stored inputs.addresses inputs.rotation) := by
    rw [hstored]
    exact hrecords.planFingerprint.trans (by rw [planFingerprint_of_observed hobs])
  have hactive : t.stored.status.activeRevision = d.activeRevision := by
    rw [hstored]
    refine mergeReconciledStatus_activeRevision ?_
    rw [hmoves]
    split
    · exact le_refl _
    · exact le_nextRevision _
  -- the plans are built from the instance that is about to be stored
  have hbuild : ∀ registration site, sitePlan (withRevision prepared inputs) inputs now
      registration site = sitePlan t.stored inputs now registration site := by
    intro registration site
    have hrequest : SameRequest (withRevision prepared inputs) t.stored := by
      obtain ⟨status, finalizer, hp⟩ := hobs.sameRequest
      rw [withRevision_eq, hp, hstored]
      exact ⟨_, _, rfl⟩
    exact (sitePlan_congr hrequest (hactive.trans hrecords.activeRevision) ..).symm
  have hsites := signedPlans_sites (fun _ _ => rfl) hcomplete
  refine ⟨⟨hupgrades, ⟨_, _, hstored⟩, ?_⟩, haccepts,
    haddr.trans (addressPlan_of_core hobs.core), fun hstaged => ?_, hprint, ?_, ?_,
    ?_⟩
  · obtain ⟨phases, hentries⟩ := hrecords.sites
    have hsame : (withRevision prepared inputs).status.sites = s.stored.status.sites := by
      rw [withRevision_sites, hkeeps.sites]
    have hspec : (withRevision prepared inputs).spec = s.stored.spec := by
      rw [withRevision_spec, spec_of_core hobs.core]
    have hwritten := recorded_sameEntries
      (by rw [hsame, hspec]; exact hnames) (by rw [hspec]; exact hnodup) phases
    rw [← hentries, hsame] at hwritten
    rw [hstored]
    exact merged_sameEntries (hnames ▸ hnodup) hwritten
  · have hunstaged : commonStagedCredentialVersion prepared = none := by
      rw [← hstaged]
      refine commonStagedCredentialVersion_congr (spec_of_core hobs.core) ?_
      rw [hkeeps.sites]
      exact forall₂_same.mpr fun _ _ => ⟨rfl, rfl⟩
    rw [hrotation, rotationFor, credentialRotationPlan_of_unstaged hunstaged, hkeeps.sites,
      hkeeps.activeRevision]
    have hactivePlan : activeSitePlan (s.readsOf reads) prepared = s.activePlan := by
      unfold activeSitePlan
      rw [spec_of_core hobs.core]
      rfl
    rw [hactivePlan]
    rfl
  · rw [hactive, hprint]
    exact hmoves
  · intro site hsite
    obtain ⟨registration, hreg, hplan⟩ := signedPlans_complete hcomplete hsite
    have hplans :
    ((signedPlans (s.readsOf reads) (sitePlan (withRevision prepared inputs) inputs now)
        s.stored.spec.sites).1.map (·.site.name)).Nodup := by
      have hmap := congrArg (List.map (·.name)) hsites
      rw [map_map] at hmap
      exact hmap.symm ▸ hnodup
    obtain ⟨p, hp, hsame⟩ := stored_of_writePlans hplans hplan
    refine ⟨registration, p, hreg, hplanMaps ▸ hp, fun now' => ?_⟩
    rw [hbuild] at hsame
    exact sitePlan_sameContent hsame now'
  · intro hkept
    rw [hplanMaps, writePlans_of_stored]
    intro p hp
    obtain ⟨site, hsite, registration, hreg, rfl, -⟩ := signedPlans_mem hp
    obtain ⟨q, hq, hsame⟩ := hkept site hsite registration hreg
    unfold planStored
    have hq' : s.planMaps.get? (sitePlan (withRevision prepared inputs) inputs now registration
        site).site.name = some q := hq
    rw [hq']
    rw [hbuild]
    exact decide_eq_true (hsame now)

/-- A complete reconcile of an instance whose entries are those of its sites. -/
theorem Reconciled.case {config : HubConfig} (h : Reconciled config reads s t)
    (hdel : s.stored.deleting = false)
    (hnames : s.stored.status.sites.map (·.name) = s.stored.spec.sites.map (·.name))
    (hnodup : (s.stored.spec.sites.map (·.name)).Nodup) : ReconcileCase reads s t := by
  obtain ⟨fails, now, d, f, hstatus, hupgrades, hstored, hplanMaps⟩ := h.stored
  have hexit := reconcile_exit config.backups (s.readsOf reads) s.directives fails now s.stored
  unfold outcome at hstatus hplanMaps
  generalize reconcile config.backups (s.readsOf reads) s.directives fails now s.stored = o at *
  cases hexit with
  | ignored deleting | released deleting | blocked deleting | deletion deleting =>
    rw [hdel] at deleting
    cases deleting
  | adopted => cases hstatus
  | rejected _ _ hprepare withdrawn =>
    obtain rfl := Option.some.inj hstatus
    refine rejected_case hupgrades hstored (hplanMaps rfl) withdrawn.toObserved
      (hnames ▸ hnodup) fun c hc => ?_
    obtain ⟨r, hr⟩ := prepare_of_accepts hc
    rw [hprepare] at hr
    cases hr
  | issued _ _ hprepare observed =>
    obtain ⟨hplans, hdelete, hrecords⟩ := issue_spec config.backups (s.readsOf reads)
      s.directives fails now _ observed
    obtain ⟨hcomplete, hrecords⟩ := hrecords d hstatus
    exact .planned _ (planned_case hprepare hupgrades hstored hcomplete hrecords
      ((hplanMaps hdelete).trans (by rw [hplans])) hnames hnodup)

/-! ## Nothing new to plan -/

theorem readsOf_eq (h : t.upgrades = s.upgrades) :
    t.readsOf reads = { s.readsOf reads with planMaps := t.planMaps } := by
  unfold readsOf
  rw [h]

theorem planFingerprint_congr (h : SameRequest i j) (addresses : AddressPlan)
    (rotation : Option CredentialRotationPlan) :
    planFingerprint j addresses rotation = planFingerprint i addresses rotation := by
  obtain ⟨status, finalizer, rfl⟩ := h
  rfl

/-- Between two reconciles neither the request nor the plans change. -/
structure Rests (s t : HubState) : Prop extends SamePlans s t where
  upgrades : t.upgrades = s.upgrades
  request : SameRequest s.stored t.stored

theorem Accepts.of_rests (hupgrades : t.upgrades = s.upgrades)
    (hrequest : SameRequest s.stored t.stored)
    {c : Option RestorePlan × Option UpgradePlan × Option MajorUpgradePlan} :
    Accepts (t.readsOf reads) t.stored c ↔ Accepts (s.readsOf reads) s.stored c := by
  rw [readsOf_eq hupgrades]
  exact Accepts.congr hrequest _

namespace Replanned

variable {reads : HubReads} {s t t' u : HubState} {inputs inputs' : PlanInputs}

/-- A reconcile that plans with the addresses and the rotation of the last one changes
nothing. -/
theorem stable (h : Replanned reads s t inputs) (hrests : Rests t t')
    (h' : Replanned reads t' u inputs') (haddr : inputs'.addresses = inputs.addresses)
    (hrotation : inputs'.rotation = inputs.rotation) : SamePlans t' u := by
  have hrequest : SameRequest s.stored t'.stored := h.request.trans hrests.request
  have hcontracts := ((Accepts.of_rests (hrests.upgrades.trans h.upgrades) hrequest).mp
    h'.accepts).unique h.accepts
  have hinputs : inputs' = inputs := by
    cases inputs'
    simp_all
  subst hinputs
  have hprint : u.stored.status.planFingerprint = t'.stored.status.planFingerprint := by
    rw [h'.planFingerprint, planFingerprint_congr hrequest, ← h.planFingerprint,
      hrests.planFingerprint]
  have hactive : u.stored.status.activeRevision = t'.stored.status.activeRevision := by
    rw [h'.activeRevision, if_pos hprint.symm]
  refine ⟨hactive, hprint, h'.kept fun site hsite r hr => ?_⟩
  obtain ⟨r', p, hr', hp, hsame⟩ := h.plans site (hrequest.spec ▸ hsite)
  obtain rfl : r' = r := Option.some.inj (hr'.symm.trans hr)
  refine ⟨p, hrests.planMaps ▸ hp, fun now => ?_⟩
  rw [sitePlan_congr (hrests.request.trans h'.request) (hactive.trans hrests.activeRevision)]
  exact hsame now

theorem activePlan_eq (h : Replanned reads s t inputs) (hsites : s.stored.spec.sites ≠ []) :
    ∃ p, t.activePlan = some p ∧ p.memberAddresses = inputs.addresses.memberAddresses ∧
      p.addressMigration = inputs.addresses.addressMigration ∧
      p.credentialRotation = inputs.rotation := by
  obtain ⟨site, rest, hcons⟩ := exists_cons_of_ne_nil hsites
  obtain ⟨r, p, -, hp, hsame⟩ := h.plans site (by rw [hcons]; exact mem_cons_self)
  have hplan : { p with generatedAt := 0 } = sitePlan t.stored inputs 0 r site := hsame 0
  refine ⟨p, ?_, congrArg SitePlan.memberAddresses hplan,
    congrArg SitePlan.addressMigration hplan, congrArg SitePlan.credentialRotation hplan⟩
  unfold HubState.activePlan activeSitePlan
  rw [h.request.spec, hcons]
  exact hp

theorem assigned_eq (h : Replanned reads s t inputs) (hsites : s.stored.spec.sites ≠ []) :
    t.assigned = inputs.addresses.memberAddresses := by
  obtain ⟨p, hp, haddr, -, -⟩ := h.activePlan_eq hsites
  have hp : activeSitePlan { planMaps := t.planMaps } t.stored = some p := hp
  rw [assigned, assignedAddresses, hp]
  exact haddr

theorem migration_eq (h : Replanned reads s t inputs) (hsites : s.stored.spec.sites ≠ []) :
    t.migration = inputs.addresses.addressMigration := by
  obtain ⟨p, hp, -, hmig, -⟩ := h.activePlan_eq hsites
  have hp : activeSitePlan { planMaps := t.planMaps } t.stored = some p := hp
  rw [migration, activeMigration, hp]
  exact hmig

theorem rotation_eq (h : Replanned reads s t inputs) (hsites : s.stored.spec.sites ≠ []) :
    t.rotation = inputs.rotation := by
  obtain ⟨p, hp, -, -, hrotation⟩ := h.activePlan_eq hsites
  rw [HubState.rotation, hp]
  exact hrotation

theorem observed_eq (h : Replanned reads s t inputs) : t.observed = s.observed :=
  observedAddresses_congr (h.entries.imp fun _ _ hsame => hsame.addresses)

theorem demanded_eq (h : Replanned reads s t inputs) : t.demanded = s.demanded := by
  rw [demanded, h.request.spec]
  rfl

end Replanned

/-! ## What may be planned next -/

theorem sites_ne_nil_of_complete (h : addressesComplete s.assigned s.demanded = true) :
    s.stored.spec.sites ≠ [] := by
  intro hnil
  refine (addressesComplete_iff.mp h).1 ?_
  rw [demanded, hnil]
  rfl

def coveredMigration : PlanFingerprint → Option AddressMigrationPlan
  | .sum f => f.addressMigration
  | _ => none

/-- Nothing is under way at an instance whose members all have an address. -/
@[mk_iff] structure Quiescent (s : HubState) : Prop where
  deleting : s.stored.deleting = false
  names : s.stored.status.sites.map (·.name) = s.stored.spec.sites.map (·.name)
  staged : commonStagedCredentialVersion s.stored = none
  complete : addressesComplete s.assigned s.demanded = true
  migration : s.migration = none
  /-- Nor does the recorded fingerprint cover a migration. -/
  recorded : coveredMigration s.stored.status.planFingerprint = none

instance (s : HubState) : Decidable (Quiescent s) := decidable_of_iff _ (quiescent_iff s).symm

/-- The members to move, in ascending order. -/
def pendingMembers (s : HubState) : List String :=
  s.demanded.dedup.filter (addressChanged s.assigned s.observed)

theorem mem_pendingMembers {member : String} : member ∈ s.pendingMembers ↔
      member ∈ s.demanded ∧ addressChanged s.assigned s.observed member = true := by
  rw [pendingMembers, mem_filter, mem_dedup]

theorem pendingMembers_ascending (s : HubState) : s.pendingMembers.Pairwise (· < ·) := by
  have hsorted : s.demanded.dedup.Pairwise (· ≤ ·) :=
    (Text.sorted_sortText _).sublist (dedup_sublist _)
  have hstrict : s.demanded.dedup.Pairwise (· < ·) :=
    (hsorted.and (nodup_dedup _)).imp fun h => lt_of_le_of_ne h.1 h.2
  exact hstrict.sublist filter_sublist

/-- What the planner returns when no migration waits for its sites. -/
inductive NextMove (s : HubState) : AddressPlan → Prop where
  | settled (none_pending : s.pendingMembers = []) : NextMove s ⟨s.assigned, s.observed, none⟩
  | moves {member : String} {rest : List String} (pending : s.pendingMembers = member :: rest) :
      NextMove s ⟨s.assigned.insert member (addressIn s.observed member), s.observed,
        some (migrationOf s.stored.uid s.assigned s.observed member)⟩

theorem nextMove (reads : HubReads) (hcomplete : addressesComplete s.assigned s.demanded = true)
    (hdone : s.migration = none ∨ s.allApplied = true) :
    NextMove s (addressPlan (s.readsOf reads) s.stored) := by
  have hcase := addressPlan_case (s.readsOf reads) s.stored
  generalize addressPlan (s.readsOf reads) s.stored = plan at hcase
  cases hcase with
  | waiting migration unapplied =>
    rcases hdone with hnone | happlied
    · have hsome : s.migration.isSome = true := migration
      rw [hnone] at hsome
      cases hsome
    · exact absurd (happlied.symm.trans unapplied) (by decide)
  | gathering _ incomplete => exact absurd (hcomplete.symm.trans incomplete) (by decide)
  | settled _ _ unchanged =>
    refine .settled (eq_nil_iff_forall_not_mem.mpr fun member hmember => ?_)
    obtain ⟨hdemanded, hchanged⟩ := mem_pendingMembers.mp hmember
    exact absurd (hchanged.symm.trans (unchanged member hdemanded)) (by decide)
  | @moves _ _ member demanded changed least =>
    have hmem : member ∈ s.pendingMembers := mem_pendingMembers.mpr ⟨demanded, changed⟩
    have hascending := s.pendingMembers_ascending
    rcases hpend : s.pendingMembers with _ | ⟨first, rest⟩
    · rw [hpend] at hmem
      cases hmem
    -- the head of an ascending list is below all its members
    obtain ⟨hfirst, hchanged⟩ := mem_pendingMembers.mp (hpend ▸ mem_cons_self)
    rw [hpend] at hmem hascending
    obtain rfl : member = first := by
      rcases mem_cons.mp hmem with heq | hrest
      · exact heq
      · have hlt := (pairwise_cons.mp hascending).1 member hrest
        exact absurd hlt (not_lt.mpr (least first hfirst hchanged))
    exact .moves hpend

end HubState

end Mspsql
