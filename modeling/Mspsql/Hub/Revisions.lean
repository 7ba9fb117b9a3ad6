import Mspsql.Hub.SystemSpec
import Mspsql.Sample

/-!
# Plans and their revisions

A plan revision is the number of the fingerprint it was issued under.  Along sequential runs
the plans of the current revision carry exactly what the current fingerprint covers, and no
plan has a later revision (`Sequenced`).  What the fingerprint does not cover is then the only
way to two different plans of one revision.
-/

namespace Mspsql

open MultiSitePostgres

variable {i j prepared view : MultiSitePostgres} {p q : SitePlan} {reads : HubReads}
  {inputs : PlanInputs} {e : HubEvent}

/-! ## What plans carry -/

/-- The parts of a plan that come straight from the specification. -/
structure CarriesSpec (spec : MultiSitePostgresSpec) (p : SitePlan) : Prop where
  site : p.site ∈ spec.sites
  postgres : p.postgres = spec.postgres
  tde : p.tde = spec.tde
  tdeKeyCreator : p.tdeKeyCreator =
    decide (p.site.name = tdeKeyCreatorName spec.tde.enabled spec.sites)
  backup : p.backup = spec.backup
  credentials : p.credentials = spec.credentials

/-- What a plan owes to the fingerprint it was issued under; the specification only as
long as the generation is still the same. -/
structure Carries (i : MultiSitePostgres) (f : FingerprintInputs) (p : SitePlan) : Prop where
  memberAddresses : p.memberAddresses = f.addresses
  addressCandidates : p.addressCandidates = f.addressCandidates
  addressMigration : p.addressMigration = f.addressMigration
  credentialRotation : p.credentialRotation = f.credentialRotation
  requiredCapabilities : p.requiredCapabilities = requiredPlanCapabilities p.majorUpgrade
  deletion : p.deletion = none
  spec : f.generation = i.generation → CarriesSpec i.spec p

theorem Carries.congr {f : FingerprintInputs} (h : Carries i f p)
    (hgen : f.generation = j.generation → f.generation = i.generation ∧ i.spec = j.spec) :
    Carries j f p where
  memberAddresses := h.memberAddresses
  addressCandidates := h.addressCandidates
  addressMigration := h.addressMigration
  credentialRotation := h.credentialRotation
  requiredCapabilities := h.requiredCapabilities
  deletion := h.deletion
  spec hj := (hgen hj).2 ▸ h.spec (hgen hj).1

theorem sitePlan_carries (i : MultiSitePostgres) (inputs : PlanInputs) (now : Time)
    (registration : SiteRegistration) {site : PostgresSiteSpec} (hsite : site ∈ i.spec.sites) :
    Carries i (planFingerprint i inputs.addresses inputs.rotation)
      (sitePlan i inputs now registration site) :=
  ⟨rfl, rfl, rfl, rfl, rfl, rfl, fun _ => ⟨hsite, rfl, rfl, rfl, rfl, rfl⟩⟩

theorem planFingerprint_of_observed (h : Observed i j) (addresses : AddressPlan)
    (rotation : Option CredentialRotationPlan) :
    planFingerprint j addresses rotation = planFingerprint i addresses rotation := by
  unfold planFingerprint
  rw [generation_of_core h.core, annotations_of_core h.core]

/-- The revision moves with the fingerprint. -/
theorem Observed.revision (h : Observed i j) (inputs : PlanInputs)
    (hnonneg : 0 ≤ i.status.activeRevision) :
    (withRevision j inputs).status.activeRevision =
      if i.status.planFingerprint = .sum (planFingerprint i inputs.addresses inputs.rotation) then
        i.status.activeRevision
      else i.status.activeRevision + 1 := by
  rw [withRevision_activeRevision, h.keepsPlans.activeRevision, h.keepsPlans.planFingerprint,
    planFingerprint_of_observed h, nextRevision_eq hnonneg]

/-- A plan a reconcile of `view` built from these inputs. -/
structure PlannedFrom (reads : HubReads) (view : MultiSitePostgres) (revision : Int)
    (inputs : PlanInputs) (p : SitePlan) : Prop where
  registration : ∃ r, reads.registration? p.site.siteRegistrationRef = some r ∧ p.siteUID = r.uid
  site : p.site ∈ view.spec.sites
  revision : p.revision = revision
  instanceUID : p.instanceUID = view.uid
  hubNamespace : p.hubNamespace = view.namespaceName
  hubName : p.hubName = view.name
  restore : p.restore = inputs.restore
  upgrade : p.upgrade = inputs.upgrade
  majorUpgrade : p.majorUpgrade = inputs.major
  carries : Carries view (planFingerprint view inputs.addresses inputs.rotation) p

theorem plannedFrom_of_mem {now : Time} (hobs : Observed view prepared)
    (h : p ∈ (signedPlans reads (sitePlan (withRevision prepared inputs) inputs now)
      view.spec.sites).1) :
    PlannedFrom reads view (withRevision prepared inputs).status.activeRevision inputs p := by
  obtain ⟨site, hsite, registration, hreg, rfl, -⟩ := signedPlans_mem h
  have hspec := spec_of_core hobs.core
  have hgen := generation_of_core hobs.core
  have huid := uid_of_core hobs.core
  have hname := name_of_core hobs.core
  have hns := namespace_of_core hobs.core
  have hcarries := sitePlan_carries (withRevision prepared inputs) inputs now registration
    (withRevision_spec prepared inputs ▸ hspec ▸ hsite)
  refine ⟨⟨registration, hreg, rfl⟩, hsite, rfl, ?_, ?_, ?_, rfl, rfl, rfl, ?_⟩
  · rw [← huid, sitePlan, withRevision_eq]
  · rw [← hns, sitePlan, withRevision_eq]
  · rw [← hname, sitePlan, withRevision_eq]
  have hprint : planFingerprint (withRevision prepared inputs) inputs.addresses
      inputs.rotation = planFingerprint prepared inputs.addresses inputs.rotation := by
    rw [withRevision_eq]
    rfl
  rw [hprint, planFingerprint_of_observed hobs] at hcarries
  refine hcarries.congr fun _ => ⟨?_, ?_⟩
  · rw [withRevision_eq]
    exact hgen.symm
  · rw [withRevision_spec, hspec]

theorem PlannedFrom.sameContent {revision : Int} (hp : PlannedFrom reads view revision inputs p)
    (hq : PlannedFrom reads view revision inputs q) (hnames : (view.spec.sites.map (·.name)).Nodup)
    (hname : p.site.name = q.site.name) :
    p.sameContent q := by
  have hsite : p.site = q.site := List.inj_on_of_nodup_map hnames hp.site hq.site hname
  have huid : p.siteUID = q.siteUID := by
    obtain ⟨r, hr, hpuid⟩ := hp.registration
    obtain ⟨r', hr', hquid⟩ := hq.registration
    rw [hsite, hr'] at hr
    rw [hpuid, hquid, Option.some.inj hr]
  obtain ⟨-, -, hprev, hpinstance, hpspace, hphub, hprestore, hpupgrade, hpmajor, hpcarries⟩ := hp
  obtain ⟨-, -, hqrev, hqinstance, hqspace, hqhub, hqrestore, hqupgrade, hqmajor, hqcarries⟩ := hq
  have hpspec := hpcarries.spec rfl
  have hqspec := hqcarries.spec rfl
  unfold SitePlan.sameContent
  cases q
  simp only [SitePlan.mk.injEq]
  refine ⟨huid, hpinstance.trans hqinstance.symm, hpspace.trans hqspace.symm,
    hphub.trans hqhub.symm, hprev.trans hqrev.symm, trivial, hsite,
    hpspec.postgres.trans hqspec.postgres.symm, hpspec.tde.trans hqspec.tde.symm, ?_,
    hpspec.backup.trans hqspec.backup.symm, hpspec.credentials.trans hqspec.credentials.symm,
    hpcarries.memberAddresses.trans hqcarries.memberAddresses.symm,
    hpcarries.addressCandidates.trans hqcarries.addressCandidates.symm,
    hpcarries.addressMigration.trans hqcarries.addressMigration.symm,
    hpcarries.credentialRotation.trans hqcarries.credentialRotation.symm, ?_,
    hprestore.trans hqrestore.symm, hpupgrade.trans hqupgrade.symm, hpmajor.trans hqmajor.symm,
    hpcarries.deletion.trans hqcarries.deletion.symm⟩
  · refine hpspec.tdeKeyCreator.trans (Eq.trans ?_ hqspec.tdeKeyCreator.symm)
    rw [hname]
  · refine hpcarries.requiredCapabilities.trans (Eq.trans ?_ hqcarries.requiredCapabilities.symm)
    rw [hpmajor, hqmajor]

/-! ## Updates of the instance that leave its plans standing -/

/-- The second instance is a later state of the first one; a changed specification has a
new generation. -/
structure SpecStands (i j : MultiSitePostgres) : Prop where
  uid : j.uid = i.uid
  name : j.name = i.name
  namespaceName : j.namespaceName = i.namespaceName
  generation : i.generation ≤ j.generation
  spec : j.generation = i.generation → j.spec = i.spec
  deleting : j.deleting = false → i.deleting = false
  names : (i.spec.sites.map (·.name)).Nodup → (j.spec.sites.map (·.name)).Nodup

structure PlansStand (i j : MultiSitePostgres) : Prop extends SpecStands i j where
  activeRevision : j.status.activeRevision = i.status.activeRevision
  planFingerprint : j.status.planFingerprint = i.status.planFingerprint

theorem SpecStands.of_status (i : MultiSitePostgres) (status : MultiSitePostgresStatus)
    (finalizer : Bool) :
    SpecStands i { i with status := status, finalizer := finalizer } :=
  ⟨rfl, rfl, rfl, le_refl _, fun _ => rfl, id, id⟩

theorem SpecStands.trans {k : MultiSitePostgres} (h : SpecStands i j) (h' : SpecStands j k) :
    SpecStands i k where
  uid := h'.uid.trans h.uid
  name := h'.name.trans h.name
  namespaceName := h'.namespaceName.trans h.namespaceName
  generation := h.generation.trans h'.generation
  spec hk := by
    have hj : j.generation = i.generation :=
      le_antisymm (hk ▸ h'.generation) h.generation
    rw [h'.spec (hk.trans hj.symm), h.spec hj]
  deleting hk := h.deleting (h'.deleting hk)
  names hi := h'.names (h.names hi)

namespace PlansStand

variable {i j k : MultiSitePostgres}

theorem refl (i : MultiSitePostgres) : PlansStand i i :=
  ⟨SpecStands.of_status i i.status i.finalizer, rfl, rfl⟩

theorem trans (h : PlansStand i j) (h' : PlansStand j k) : PlansStand i k where
  toSpecStands := h.toSpecStands.trans h'.toSpecStands
  activeRevision := h'.activeRevision.trans h.activeRevision
  planFingerprint := h'.planFingerprint.trans h.planFingerprint

theorem patchInstance (base modified i : MultiSitePostgres) :
    PlansStand i (patchInstance base modified i) where
  uid := rfl
  name := rfl
  namespaceName := rfl
  activeRevision := rfl
  planFingerprint := rfl
  generation := by
    unfold Mspsql.patchInstance
    dsimp only
    split <;> omega
  spec h := by
    unfold Mspsql.patchInstance at h ⊢
    dsimp only at h
    split at h
    · rename_i heq
      rw [heq]
    · omega
  deleting h := h
  names h := h

theorem recordsResult {reported : List Condition} (h : RecordsResult i j reported) :
    PlansStand i j := by
  rw [h.eq]
  exact ⟨.of_status .., rfl, rfl⟩

end PlansStand

namespace HubState

theorem applyUpgradeWrites_plansStand (s : HubState) (name : String) (writes : List UpgradeWrite) :
    PlansStand s.stored (s.applyUpgradeWrites name writes).stored :=
  applyUpgradeWrites_stored (.refl s.stored)
    (fun base modified i h => h.trans (.patchInstance base modified i)) name writes

def isReconcile : HubEvent → Bool
  | .issue .. | .commit | .abandon => true
  | _ => false

variable {config : HubConfig} {s t : HubState} {reads : HubReads} {fails : String → Bool}
  {now : Time} {writes : Nat} {p : SitePlan}

theorem StepCase.plansStand (h : StepCase config s e t) (he : isReconcile e = false) :
    t.pending = s.pending ∧ t.written = s.written ∧ PlansStand s.stored t.stored := by
  cases h with
  | issue | commit | abandon => cases he
  | @upgrade name _ _ _ _ _ _ _ =>
    have hstand := s.applyUpgradeWrites_plansStand name
    rw [applyUpgradeWrites_eq]
    exact ⟨rfl, rfl, hstand _⟩
  | apply | refused | upgradeBackupFailed | createUpgrade | deleteUpgrade =>
    exact ⟨rfl, rfl, .refl _⟩
  | message => exact ⟨rfl, rfl, ⟨.of_status .., rfl, rfl⟩⟩
  | backupResult hrecords | upgradeBackupSucceeded hrecords =>
    exact ⟨rfl, rfl, .recordsResult hrecords⟩
  | edit hadm =>
    refine ⟨rfl, rfl, ⟨⟨rfl, rfl, rfl, Nat.le_succ _, fun h => ?_, id, fun _ => ?_⟩, rfl, rfl⟩⟩
    · exact absurd h (Nat.succ_ne_self _)
    · exact hadm.names_nodup
  | annotate => exact ⟨rfl, rfl, ⟨⟨rfl, rfl, rfl, le_refl _, fun _ => rfl, id, id⟩, rfl, rfl⟩⟩
  | delete =>
    refine ⟨rfl, rfl, ⟨⟨rfl, rfl, rfl, Nat.le_succ _, fun h => ?_, fun h => ?_, id⟩, rfl, rfl⟩⟩
    · exact absurd h (Nat.succ_ne_self _)
    · cases h

/-! ## The current plans -/

/-- The revision of the newest plans: the one about to be recorded, or the one recorded. -/
def currentRevision (s : HubState) : Int :=
  match s.pending with
  | some d => d.activeRevision
  | none => s.stored.status.activeRevision

def currentFingerprint (s : HubState) : PlanFingerprint :=
  match s.pending with
  | some d => d.planFingerprint
  | none => s.stored.status.planFingerprint

theorem currentRevision_of_none (h : s.pending = none) :
    s.currentRevision = s.stored.status.activeRevision := by
  rw [currentRevision, h]

theorem currentFingerprint_of_none (h : s.pending = none) :
    s.currentFingerprint = s.stored.status.planFingerprint := by
  rw [currentFingerprint, h]

theorem currentRevision_of_some {d : MultiSitePostgresStatus} (h : s.pending = some d) :
    s.currentRevision = d.activeRevision := by
  rw [currentRevision, h]

theorem currentFingerprint_of_some {d : MultiSitePostgresStatus} (h : s.pending = some d) :
    s.currentFingerprint = d.planFingerprint := by
  rw [currentFingerprint, h]

theorem current_of_keepsPlans (hnone : s.pending = none)
    (hstored : ∃ f, t.stored = { s.stored with finalizer := f })
    (hpend : ∀ d, t.pending = some d → KeepsPlans s.stored.status d) :
    t.currentRevision = s.currentRevision ∧ t.currentFingerprint = s.currentFingerprint := by
  obtain ⟨finalizer, hstored⟩ := hstored
  rw [currentRevision_of_none hnone, currentFingerprint_of_none hnone]
  rcases ht : t.pending with _ | d
  · rw [currentRevision_of_none ht, currentFingerprint_of_none ht, hstored]
    exact ⟨rfl, rfl⟩
  · rw [currentRevision_of_some ht, currentFingerprint_of_some ht]
    exact ⟨(hpend d ht).activeRevision, (hpend d ht).planFingerprint⟩

/-- An instance reconcile works on the stored instance and is not interrupted between its
first plan write and its status write. -/
def sequential (config : HubConfig) (s : HubState) : HubEvent → Prop
  | .issue view reads fails now writes =>
    view = s.stored ∧ (s.outcome config view reads fails now).plans.length ≤ writes ∧
      ((s.outcome config view reads fails now).plans ≠ [] →
        (s.outcome config view reads fails now).status.isSome = true)
  | .abandon => ∀ d ∈ s.pending, d.activeRevision = s.stored.status.activeRevision
  | _ => True

instance (config : HubConfig) (s : HubState) (e : HubEvent) :
    Decidable (sequential config s e) := by
  cases e <;> unfold sequential <;> infer_instance

/-- A reconcile of the stored instance that is not interrupted. -/
structure IssueSpec (s t : HubState) (reads : HubReads) (now : Time) (o : Outcome) : Prop where
  outcome : OutcomeCase reads now s.stored o
  reads : reads.upgrades = s.upgrades
  silent : o.status = none → o.plans = []
  stored : ∃ finalizer, t.stored = { s.stored with finalizer := finalizer }
  pending : t.pending = o.status
  written : ∀ p ∈ t.written, p ∈ o.plans ∨ p ∈ s.written
  kept : ∀ p ∈ s.written, p ∈ t.written
  applied : t.applied = s.applied
  upgrades : t.upgrades = s.upgrades
  upgradeUIDs : t.upgradeUIDs = s.upgradeUIDs
  advances : t.advances = s.advances

theorem sequential.issueSpec (h : sequential config s (.issue view reads fails now writes)) :
    IssueSpec s (s.applyOutcome view (s.outcome config view reads fails now) writes)
      (s.readsOf reads) now (s.outcome config view reads fails now) := by
  obtain ⟨rfl, hlength, hstatus⟩ := h
  obtain ⟨hstored, hpend, hwritten⟩ := applyOutcome_complete s s.stored hlength
  have hkept := applyOutcome_subset s s.stored (s.outcome config s.stored reads fails now) writes
  refine ⟨reconcile_case .., rfl, fun hnone => ?_, hstored, hpend, hwritten, hkept, ?_, ?_, ?_, ?_⟩
  · by_contra hplans
    have hsome := hstatus hplans
    rw [hnone] at hsome
    cases hsome
  all_goals rw [applyOutcome_eq]

theorem IssueSpec.sites {now : Time} {o : Outcome} (h : IssueSpec s t reads now o) :
    ∀ p ∈ o.plans, p.site ∈ s.stored.spec.sites := by
  intro p hp
  cases h.outcome with
  | quiet plans =>
    rw [plans] at hp
    cases hp
  | issued _ _ _ _ _ observed _ plans => exact (plannedFrom_of_mem observed (plans ▸ hp)).site
  | deletion _ _ _ plans =>
    obtain ⟨site, hsite, _, -, rfl, -⟩ := signedPlans_mem (plans ▸ hp)
    exact hsite

theorem written_sites (h : ∀ p ∈ s.written, p.site ∈ s.stored.spec.sites)
    (hseq : sequential config s e) (hsites : t.stored.spec.sites = s.stored.spec.sites)
    (hcase : StepCase config s e t) : ∀ p ∈ t.written, p.site ∈ t.stored.spec.sites := by
  intro p hp
  rw [hsites]
  by_cases he : isReconcile e = false
  · rw [(hcase.plansStand he).2.1] at hp
    exact h p hp
  cases hcase with
  | issue => exact (hseq.issueSpec.written p hp).elim (hseq.issueSpec.sites p) (h p)
  | commit | abandon => exact h p hp
  | _ => exact absurd rfl he

/-- What a reconcile does to the plans and to the status about to be recorded. -/
inductive PlansCase (reads : HubReads) (s t : HubState) (now : Time) (o : Outcome) : Prop where
  | quiet (plans : o.plans = []) (written : ∀ p ∈ t.written, p ∈ s.written)
      (pending : ∀ d, t.pending = some d → KeepsPlans s.stored.status d)
  | issued {prepared : MultiSitePostgres} {inputs : PlanInputs} {n : Nat}
      {d : MultiSitePostgresStatus} (deleting : s.stored.deleting = false)
      (observed : Observed s.stored prepared)
      (planInputs : planInputs reads prepared n = .ok inputs) (pending : t.pending = some d)
      (revision : d.activeRevision = (withRevision prepared inputs).status.activeRevision)
      (moves : d.activeRevision = if s.stored.status.planFingerprint =
          .sum (planFingerprint s.stored inputs.addresses inputs.rotation) then
          s.stored.status.activeRevision else s.stored.status.activeRevision + 1)
      (fingerprint : d.planFingerprint =
        .sum (planFingerprint s.stored inputs.addresses inputs.rotation))
      (names : d.sites.map (·.name) = s.stored.spec.sites.map (·.name))
      (planned : ∀ p ∈ o.plans, PlannedFrom reads s.stored d.activeRevision inputs p)
  | deletion {d : MultiSitePostgresStatus} (deleting : s.stored.deleting = true)
      (pending : t.pending = some d) (moves : d.activeRevision = s.stored.status.activeRevision + 1)
      (fingerprint : d.planFingerprint = .deleting)
      (names : d.sites.map (·.name) = s.stored.spec.sites.map (·.name))
      (planned : ∀ p ∈ o.plans, ∃ r, ∃ site ∈ s.stored.spec.sites,
        p = deletionPlan { s.stored with status := { s.stored.status with
          activeRevision := d.activeRevision } } now r site)

theorem IssueSpec.plansCase {o : Outcome} (h : IssueSpec s t reads now o)
    (hnonneg : 0 ≤ s.stored.status.activeRevision) : PlansCase reads s t now o := by
  have hquiet : o.plans = [] → (∀ d, o.status = some d → KeepsPlans s.stored.status d) →
      PlansCase reads s t now o := fun hplans hkeeps =>
    .quiet hplans (fun p hp => (h.written p hp).resolve_left (hplans ▸ List.not_mem_nil))
      fun d hd => hkeeps d (h.pending ▸ hd)
  rcases hd : o.status with _ | d
  · exact hquiet (h.silent hd) fun d hd' => by rw [hd] at hd'; cases hd'
  have hpend := h.pending.trans hd
  cases h.outcome with
  | quiet plans status _ => exact hquiet plans status
  | issued prepared inputs n deleting _ observed planInputs plans status _ =>
    have hrecords := (status d hd).2
    refine .issued deleting observed planInputs hpend hrecords.activeRevision
      (hrecords.activeRevision.trans (observed.revision inputs hnonneg)) ?_ ?_ fun p hp => ?_
    · rw [hrecords.planFingerprint, planFingerprint_of_observed observed]
    · rw [hrecords.names, withRevision_spec, spec_of_core observed.core]
    · exact hrecords.activeRevision ▸ plannedFrom_of_mem observed (plans ▸ hp)
  | deletion deleting revised hrevised plans status _ =>
    subst hrevised
    have hrecords := (status d hd).2
    refine .deletion deleting hpend (hrecords.activeRevision.trans (nextRevision_eq hnonneg))
      hrecords.planFingerprint hrecords.names fun p hp => ?_
    obtain ⟨site, hsite, registration, -, rfl, -⟩ := signedPlans_mem (plans ▸ hp)
    exact ⟨registration, site, hsite, by rw [hrecords.activeRevision]⟩

structure Sequenced (s : HubState) : Prop where
  names : (s.stored.spec.sites.map (·.name)).Nodup
  nonneg : 0 ≤ s.stored.status.activeRevision
  pending : ∀ d, s.pending = some d → s.stored.status.activeRevision ≤ d.activeRevision
  /-- A status that records no new revision keeps the fingerprint. -/
  unchanged : ∀ d, s.pending = some d → d.activeRevision = s.stored.status.activeRevision →
    d.planFingerprint = s.stored.status.planFingerprint
  identity : ∀ p ∈ s.written, p.instanceUID = s.stored.uid ∧
    p.hubNamespace = s.stored.namespaceName ∧ p.hubName = s.stored.name
  bounded : ∀ p ∈ s.written, p.revision ≤ s.currentRevision
  generation : ∀ f, s.currentFingerprint = .sum f → f.generation ≤ s.stored.generation
  current : s.stored.deleting = false → ∀ p ∈ s.written, p.revision = s.currentRevision →
    ∃ f, s.currentFingerprint = .sum f ∧ Carries s.stored f p

namespace Sequenced

variable {s t : HubState}

theorem initial (h : Initial config s) : Sequenced s where
  names := h.admitted.names_nodup
  nonneg := by rw [h.activeRevision]
  pending d hd := by rw [h.pending] at hd; cases hd
  unchanged d hd := by rw [h.pending] at hd; cases hd
  identity p hp := by rw [h.written] at hp; cases hp
  bounded p hp := by rw [h.written] at hp; cases hp
  generation f hf := by
    rw [currentFingerprint, h.pending, h.planFingerprint] at hf
    cases hf
  current _ p hp := by rw [h.written] at hp; cases hp

theorem frame (h : Sequenced s) (hstand : SpecStands s.stored t.stored)
    (hnonneg : 0 ≤ t.stored.status.activeRevision)
    (hpend : ∀ d, t.pending = some d → t.stored.status.activeRevision ≤ d.activeRevision)
    (hunchanged : ∀ d, t.pending = some d → d.activeRevision = t.stored.status.activeRevision →
      d.planFingerprint = t.stored.status.planFingerprint)
    (hwritten : ∀ p ∈ t.written, p ∈ s.written) (hrev : t.currentRevision = s.currentRevision)
    (hprint : t.currentFingerprint = s.currentFingerprint) : Sequenced t := by
  refine ⟨hstand.names h.names, hnonneg, hpend, hunchanged, ?_, ?_, ?_, ?_⟩
  · rw [hstand.uid, hstand.namespaceName, hstand.name]
    exact fun p hp => h.identity p (hwritten p hp)
  · rw [hrev]
    exact fun p hp => h.bounded p (hwritten p hp)
  · rw [hprint]
    exact fun f hf => (h.generation f hf).trans hstand.generation
  intro hdel p hp hcur
  rw [hrev] at hcur
  obtain ⟨f, hf, hcarries⟩ := h.current (hstand.deleting hdel) p (hwritten p hp) hcur
  refine ⟨f, hprint.trans hf, hcarries.congr fun hgen => ?_⟩
  -- a later generation would be beyond the one the fingerprint was taken under
  have hsame : t.stored.generation = s.stored.generation :=
    le_antisymm (hgen ▸ h.generation f hf) hstand.generation
  exact ⟨hgen.trans hsame, (hstand.spec hsame).symm⟩

theorem of_plansStand (h : Sequenced s) (hpend : t.pending = s.pending)
    (hwritten : t.written = s.written) (hstand : PlansStand s.stored t.stored) :
    Sequenced t := by
  refine h.frame hstand.toSpecStands ?_ ?_ ?_ (fun p hp => hwritten ▸ hp) ?_ ?_
  · rw [hstand.activeRevision]
    exact h.nonneg
  · rw [hpend, hstand.activeRevision]
    exact h.pending
  · rw [hpend, hstand.activeRevision, hstand.planFingerprint]
    exact h.unchanged
  · rw [currentRevision, currentRevision, hpend, hstand.activeRevision]
  · rw [currentFingerprint, currentFingerprint, hpend, hstand.planFingerprint]

theorem current_of_commit {desired : MultiSitePostgresStatus} (h : Sequenced s)
    (hdesired : s.pending = some desired) :
    let t := { s.storeStatus (mergeReconciledStatus s.stored.status desired) with pending := none }
    t.currentRevision = s.currentRevision ∧ t.currentFingerprint = s.currentFingerprint := by
  rw [currentRevision_of_some hdesired, currentFingerprint_of_some hdesired]
  exact ⟨mergeReconciledStatus_activeRevision (h.pending desired hdesired), rfl⟩

theorem current_of_abandon (h : Sequenced s)
    (hok : ∀ d ∈ s.pending, d.activeRevision = s.stored.status.activeRevision) :
    let t := { s with pending := none }
    t.currentRevision = s.currentRevision ∧ t.currentFingerprint = s.currentFingerprint := by
  rcases hp : s.pending with _ | d
  · exact ⟨(currentRevision_of_none hp).symm, (currentFingerprint_of_none hp).symm⟩
  rw [currentRevision_of_some hp, currentFingerprint_of_some hp]
  exact ⟨(hok d hp).symm, (h.unchanged d hp (hok d hp)).symm⟩

theorem commit {desired : MultiSitePostgresStatus} (h : Sequenced s)
    (hdesired : s.pending = some desired) :
    Sequenced { s.storeStatus (mergeReconciledStatus s.stored.status desired) with
      pending := none } := by
  have hle := h.pending desired hdesired
  have hmerged := mergeReconciledStatus_activeRevision hle
  obtain ⟨hrev, hprint⟩ := h.current_of_commit hdesired
  refine h.frame (.of_status ..) ?_ ?_ ?_ (fun p hp => hp) hrev hprint
  · have := h.nonneg
    show 0 ≤ (mergeReconciledStatus s.stored.status desired).activeRevision
    omega
  · exact fun d hd => by cases hd
  · exact fun d hd => by cases hd

theorem abandon (h : Sequenced s)
    (hok : ∀ d ∈ s.pending, d.activeRevision = s.stored.status.activeRevision) :
    Sequenced { s with pending := none } := by
  obtain ⟨hrev, hprint⟩ := h.current_of_abandon hok
  exact h.frame (.of_status ..) h.nonneg (fun d hd => by cases hd) (fun d hd => by cases hd)
    (fun p hp => hp) hrev hprint

theorem quiet (h : Sequenced s) (hnone : s.pending = none)
    (hstored : ∃ f, t.stored = { s.stored with finalizer := f })
    (hwritten : ∀ p ∈ t.written, p ∈ s.written)
    (hpend : ∀ d, t.pending = some d → KeepsPlans s.stored.status d) : Sequenced t := by
  obtain ⟨hrev, hprint⟩ := current_of_keepsPlans hnone hstored hpend
  obtain ⟨finalizer, hstored⟩ := hstored
  refine h.frame (hstored ▸ .of_status ..) (hstored ▸ h.nonneg) ?_ ?_ hwritten hrev hprint
  · intro d hd
    rw [hstored, (hpend d hd).activeRevision]
  · intro d hd _
    rw [hstored, (hpend d hd).planFingerprint]

theorem issued {d : MultiSitePostgresStatus} (h : Sequenced s) (hnone : s.pending = none)
    (hstored : ∃ f, t.stored = { s.stored with finalizer := f }) (hpend : t.pending = some d)
    (hrevision : s.stored.status.activeRevision ≤ d.activeRevision)
    (hunchanged : d.activeRevision = s.stored.status.activeRevision →
      d.planFingerprint = s.stored.status.planFingerprint)
    (hgen : ∀ f, d.planFingerprint = .sum f → f.generation ≤ s.stored.generation)
    (hnew : ∀ p ∈ t.written, p ∉ s.written → p.revision = d.activeRevision ∧ p.instanceUID =
      s.stored.uid ∧ p.hubNamespace = s.stored.namespaceName ∧ p.hubName = s.stored.name ∧
      (s.stored.deleting = false → ∃ f, d.planFingerprint = .sum f ∧ Carries s.stored f p)) :
    Sequenced t := by
  obtain ⟨finalizer, hstored⟩ := hstored
  have hold := currentRevision_of_none hnone
  have holdFingerprint := currentFingerprint_of_none hnone
  have hcur := currentRevision_of_some hpend
  have hprint := currentFingerprint_of_some hpend
  refine ⟨hstored ▸ h.names, hstored ▸ h.nonneg, ?_, ?_, ?_, ?_, ?_, ?_⟩
  · intro d' hd'
    rw [← Option.some.inj (hpend.symm.trans hd'), hstored]
    exact hrevision
  · intro d' hd'
    rw [← Option.some.inj (hpend.symm.trans hd'), hstored]
    exact hunchanged
  · intro p hp
    rw [hstored]
    by_cases hin : p ∈ s.written
    · exact h.identity p hin
    · exact ⟨(hnew p hp hin).2.1, (hnew p hp hin).2.2.1, (hnew p hp hin).2.2.2.1⟩
  · intro p hp
    rw [hcur]
    by_cases hin : p ∈ s.written
    · exact (h.bounded p hin).trans (hold ▸ hrevision)
    · exact (hnew p hp hin).1.le
  · intro f hf
    rw [hstored]
    exact hgen f (hprint ▸ hf)
  · intro hdel p hp hrev
    rw [hstored] at hdel ⊢
    rw [hcur] at hrev
    rw [hprint]
    have hcarried : ∃ f, d.planFingerprint = .sum f ∧ Carries s.stored f p := by
      by_cases hin : p ∈ s.written
      · -- an old plan can only be current if the revision did not move
        have hsame : d.activeRevision = s.stored.status.activeRevision :=
          le_antisymm (hrev ▸ hold ▸ h.bounded p hin) hrevision
        obtain ⟨f, hf, hcarries⟩ := h.current hdel p hin (hold ▸ hrev.trans hsame)
        exact ⟨f, (hunchanged hsame).trans (holdFingerprint ▸ hf), hcarries⟩
      · exact (hnew p hp hin).2.2.2.2 hdel
    obtain ⟨f, hf, hcarries⟩ := hcarried
    exact ⟨f, hf, hcarries.congr fun hg => ⟨hg, rfl⟩⟩

theorem issue {o : Outcome} (h : Sequenced s) (hnone : s.pending = none)
    (hissue : IssueSpec s t reads now o) : Sequenced t := by
  cases hissue.plansCase h.nonneg with
  | quiet _ written pending => exact h.quiet hnone hissue.stored written pending
  | issued _ _ _ pending _ moves fingerprint _ planned =>
    refine h.issued hnone hissue.stored pending ?_ ?_ ?_ ?_
    · split at moves <;> omega
    · intro hsame
      split at moves
      · exact fingerprint.trans (‹_› : _ = _).symm
      · omega
    · intro f hf
      rw [fingerprint] at hf
      rw [← PlanFingerprint.sum.inj hf]
      exact le_refl s.stored.generation
    · intro p hp hnot
      have hplan := planned p ((hissue.written p hp).resolve_right hnot)
      exact ⟨hplan.revision, hplan.instanceUID, hplan.hubNamespace, hplan.hubName,
        fun _ => ⟨_, fingerprint, hplan.carries⟩⟩
  | deletion deleting pending moves fingerprint _ planned =>
    refine h.issued hnone hissue.stored pending (by omega) (fun _ => by omega) ?_ ?_
    · intro f hf
      rw [fingerprint] at hf
      cases hf
    · intro p hp hnot
      obtain ⟨registration, site, -, rfl⟩ := planned p ((hissue.written p hp).resolve_right hnot)
      refine ⟨rfl, rfl, rfl, rfl, fun hfalse => ?_⟩
      rw [deleting] at hfalse
      cases hfalse

theorem step (h : Sequenced s) (hok : sequential config s e) (hst : s.step config e = some t) :
    Sequenced t := by
  have hcase := step_case hst
  by_cases he : isReconcile e = false
  · obtain ⟨hpend, hwritten, hstand⟩ := hcase.plansStand he
    exact h.of_plansStand hpend hwritten hstand
  cases hcase with
  | issue _ hnone => exact h.issue hnone hok.issueSpec
  | commit hdesired => exact h.commit hdesired
  | abandon => exact h.abandon hok
  | _ => exact absurd rfl he

end Sequenced

/-! ## No equivocation -/

/-- A reconcile under an unchanged fingerprint reads the inputs that the fingerprint leaves
out as they were when the plans of the active revision were written: the restore and the
upgrade contract, and the identity of the site's registration. -/
def uncoveredUnchanged (s : HubState) : HubEvent → Prop
  | .issue view reads _ _ _ =>
    match prepare (s.readsOf reads) view with
    | .ok (_, inputs) =>
      view.status.planFingerprint = .sum (planFingerprint view inputs.addresses inputs.rotation) →
        ∀ p ∈ s.written, p.revision = view.status.activeRevision →
          p.restore = inputs.restore ∧ p.upgrade = inputs.upgrade ∧ p.majorUpgrade = inputs.major ∧
            ∀ r ∈ reads.registration? p.site.siteRegistrationRef, p.siteUID = r.uid
    | .error _ => True
  | _ => True

instance (s : HubState) (e : HubEvent) : Decidable (uncoveredUnchanged s e) := by
  cases e with
  | issue view reads fails now writes =>
    unfold uncoveredUnchanged
    dsimp only
    split <;> infer_instance
  | _ => exact instDecidableTrue

def careful (config : HubConfig) (s : HubState) (e : HubEvent) : Prop :=
  sequential config s e ∧ uncoveredUnchanged s e

instance (config : HubConfig) (s : HubState) (e : HubEvent) : Decidable (careful config s e) :=
  inferInstanceAs (Decidable (_ ∧ _))

/-- Two plans of one site and revision differ at most in their time. -/
def NoEquivocation (s : HubState) : Prop :=
  ∀ p ∈ s.written, ∀ q ∈ s.written, p.site.name = q.site.name → p.revision = q.revision →
    p.sameContent q
deriving Decidable

theorem Sequenced.reissued (h : Sequenced s) (hnone : s.pending = none)
    (hdel : s.stored.deleting = false) (hobs : Observed s.stored prepared)
    (hp : p ∈ s.written)
    (hrev : p.revision = (withRevision prepared inputs).status.activeRevision) :
    s.stored.status.planFingerprint =
        .sum (planFingerprint s.stored inputs.addresses inputs.rotation) ∧
      p.revision = s.stored.status.activeRevision ∧
      Carries s.stored (planFingerprint s.stored inputs.addresses inputs.rotation) p := by
  have hmoves := hobs.revision inputs h.nonneg
  have hbound := h.bounded p hp
  rw [currentRevision_of_none hnone] at hbound
  -- a moved fingerprint takes a revision that no plan has yet
  have hsame : s.stored.status.planFingerprint =
      .sum (planFingerprint s.stored inputs.addresses inputs.rotation) := by
    by_contra hmoved
    rw [if_neg hmoved] at hmoves
    omega
  have hcur : p.revision = s.stored.status.activeRevision := by omega
  obtain ⟨f, hf, hcarries⟩ := h.current hdel p hp (hcur.trans (currentRevision_of_none hnone).symm)
  rw [currentFingerprint_of_none hnone, hsame, PlanFingerprint.sum.injEq] at hf
  exact ⟨hsame, hcur, hf ▸ hcarries⟩

theorem Sequenced.sameContent (h : Sequenced s) (hnone : s.pending = none)
    (hdel : s.stored.deleting = false)
    (hprepare : prepare (s.readsOf reads) s.stored = .ok (prepared, inputs))
    (hobs : Observed s.stored prepared)
    (hok : uncoveredUnchanged s (.issue s.stored reads fails now writes)) (hp : p ∈ s.written)
    (hq : PlannedFrom (s.readsOf reads) s.stored (withRevision prepared
      inputs).status.activeRevision inputs q) (hname : p.site.name = q.site.name)
    (hrev : p.revision = q.revision) :
    p.sameContent q := by
  obtain ⟨hsame, hcur, hcarries⟩ :=
    h.reissued hnone hdel hobs hp (hrev.trans hq.revision)
  simp only [uncoveredUnchanged, hprepare] at hok
  obtain ⟨hrestore, hupgrade, hmajor, huid⟩ := hok hsame p hp hcur
  have hsite : p.site = q.site :=
    List.inj_on_of_nodup_map h.names (hcarries.spec rfl).site hq.site hname
  obtain ⟨r, hr, -⟩ := hq.registration
  obtain ⟨hinstance, hns, hhub⟩ := h.identity p hp
  have hplanned : PlannedFrom (s.readsOf reads) s.stored
      (withRevision prepared inputs).status.activeRevision inputs p :=
    ⟨⟨r, hsite ▸ hr, huid r (hsite ▸ hr)⟩, (hcarries.spec rfl).site, hrev.trans hq.revision,
      hinstance, hns, hhub, hrestore, hupgrade, hmajor, hcarries⟩
  exact hplanned.sameContent hq h.names hname

theorem NoEquivocation.extend {plans : List SitePlan} (h : NoEquivocation s)
    (hwritten : ∀ p ∈ t.written, p ∈ plans ∨ p ∈ s.written)
    (hnew : ∀ p ∈ plans, ∀ q ∈ plans, p.site.name = q.site.name → p.revision = q.revision →
      p.sameContent q) (hmixed : ∀ p ∈ s.written, ∀ q ∈ plans, p.site.name = q.site.name →
      p.revision = q.revision → p.sameContent q) : NoEquivocation t := by
  intro p hp q hq hname hrev
  rcases hwritten p hp with hp | hp <;> rcases hwritten q hq with hq | hq
  · exact hnew p hp q hq hname hrev
  · exact (hmixed q hq p hp hname.symm hrev.symm).symm
  · exact hmixed p hp q hq hname hrev
  · exact h p hp q hq hname hrev

theorem deletionPlan_sameContent {revised : MultiSitePostgres} {sites : List PostgresSiteSpec}
    (hnames : (sites.map (·.name)).Nodup)
    (hp : p ∈ (signedPlans reads (deletionPlan revised now) sites).1)
    (hq : q ∈ (signedPlans reads (deletionPlan revised now) sites).1)
    (hname : p.site.name = q.site.name) : p.sameContent q := by
  obtain ⟨site, hsite, r, hr, rfl, -⟩ := signedPlans_mem hp
  obtain ⟨site', hsite', r', hr', rfl, -⟩ := signedPlans_mem hq
  obtain rfl : site = site' := List.inj_on_of_nodup_map hnames hsite hsite' hname
  rw [hr] at hr'
  rw [Option.some.inj hr']
  rfl

theorem NoEquivocation.issue (hagree : NoEquivocation s) (h : Sequenced s)
    (hnone : s.pending = none) (hok : careful config s (.issue view reads fails now writes)) :
    NoEquivocation (s.applyOutcome view (s.outcome config view reads fails now) writes) := by
  have hwritten := hok.1.issueSpec.written
  obtain ⟨⟨rfl, -, -⟩, huncovered⟩ := hok
  cases reconcile_case config.backups (s.readsOf reads) s.directives fails now s.stored with
  | quiet plans _ _ =>
    refine hagree.extend hwritten ?_ ?_
    · rw [HubState.outcome, plans]
      exact fun p hp => by cases hp
    · rw [HubState.outcome, plans]
      exact fun p _ q hq => by cases hq
  | issued prepared inputs n deleting hprepare observed _ plans _ _ =>
    have hplanned : ∀ p ∈ (s.outcome config s.stored reads fails now).plans,
        PlannedFrom (s.readsOf reads) s.stored
          (withRevision prepared inputs).status.activeRevision inputs p :=
      fun p hp => plannedFrom_of_mem observed (plans ▸ hp)
    refine hagree.extend hwritten ?_ ?_
    · exact fun p hp q hq hname _ => (hplanned p hp).sameContent (hplanned q hq) h.names hname
    · exact fun p hp q hq hname hrev => h.sameContent hnone deleting hprepare observed
        huncovered hp (hplanned q hq) hname hrev
  | deletion _ revised hrevised plans _ _ =>
    refine hagree.extend hwritten ?_ ?_
    · rw [HubState.outcome, plans]
      exact fun p hp q hq hname _ => deletionPlan_sameContent h.names hp hq hname
    -- deletion plans always take a new revision
    rw [HubState.outcome, plans]
    intro p hp q hq _ hrev
    obtain ⟨site, -, registration, -, rfl, -⟩ := signedPlans_mem hq
    have hbound := h.bounded p hp
    have hnext := nextRevision_eq h.nonneg
    subst hrevised
    rw [currentRevision_of_none hnone] at hbound
    simp only [deletionPlan] at hrev
    omega

theorem NoEquivocation.step (hagree : NoEquivocation s) (h : Sequenced s) (hok : careful config s e)
    (hst : s.step config e = some t) : NoEquivocation t := by
  have hcase := step_case hst
  by_cases he : isReconcile e = false
  · unfold NoEquivocation
    rw [(hcase.plansStand he).2.1]
    exact hagree
  · cases hcase with
    | issue _ hnone => exact hagree.issue h hnone hok
    | commit | abandon => exact hagree
    | _ => exact absurd rfl he

open Machine

/-- In every run in which instance reconciles work on the stored instance, are not
interrupted between their plan writes and their status write, and find the inputs outside
the fingerprint unchanged when the fingerprint is, no two plans written for one site under
one revision differ. -/
theorem noEquivocation_of_reach {config : HubConfig} {s : HubState}
    (h : Reach (step config) (Initial config) (careful config) s) :
    NoEquivocation s := by
  refine h.invariant_of (fun s hs => ?_) (fun s hinit => ?_)
    fun s e t hinv hagree hok hst => hagree.step hinv hok hst
  · exact hs.invariant (fun _ => Sequenced.initial) fun _ _ _ hinv hok hst => hinv.step hok.1 hst
  intro p hp
  rw [hinit.written] at hp
  cases hp

/-! ## Runs with equivocation -/

open Sample

/-- The first reconcile stops after one plan; then the specification is edited. -/
def interruptedScript : List (HubState → HubEvent) :=
  [fun s => .issue s.stored Sample.reads (fun _ => false) 0 1,
    fun s => .edit { s.stored.spec with postgres := { s.stored.spec.postgres with
      image := "percona/percona-distribution-postgresql@sha256:0b7a4433" } },
    reconcileWith Sample.reads]

/-- A site is registered anew, under the same name. -/
def reregisteredScript : List (HubState → HubEvent) :=
  [reconcileWith Sample.reads, Sample.commit, reconcileWith { Sample.reads with registrations :=
      { registration "vic" with uid := "vic-uid-2" } :: Sample.reads.registrations }]

def addressFrom (site member address : String) (s : HubState) : HubEvent :=
  .message site 0 (.progress {
    instanceUID := s.stored.uid
    revision := s.stored.status.activeRevision
    phase := "Applying"
    addresses := [(member, address)] })

/-- Two addresses are reported and a plan carries both; then a reconcile works on the
version between the two reports. -/
def staleScript : List (HubState → HubEvent) :=
  [reconcileWith Sample.reads, Sample.commit,
    addressFrom "production-vic" "etcd-production-vic-0" "10.0.0.1",
    addressFrom "production-nsw" "etcd-production-nsw-0" "10.0.1.1",
    reconcileWith Sample.reads, Sample.commit,
    fun s => .issue ((s.versions[2]?).getD s.stored) Sample.reads (fun _ => false) 0 3]

/-- A script leads `ledger` to two different plans of one site and revision. -/
def Equivocates (script : List (HubState → HubEvent)) : Prop :=
  Reach (step hub) (Initial hub) anyStep
    (after ledger anyStep script) ∧ ¬ NoEquivocation (after ledger anyStep script)

theorem equivocates_of_play {script : List (HubState → HubEvent)}
    (h : (play (step hub) anyStep (created ledger)
      script).any (fun s => decide (¬ NoEquivocation s)) = true) : Equivocates script :=
  after_reach (P := fun s => ¬ NoEquivocation s) ledger_initial h

theorem ledger_equivocates :
    Equivocates interruptedScript ∧ Equivocates reregisteredScript ∧ Equivocates staleScript :=
  ⟨equivocates_of_play (by decide +kernel), equivocates_of_play (by decide +kernel),
    equivocates_of_play (by decide +kernel)⟩

/-- `ledger` has applied its plans, and is planned again under its first address. -/
def reissued : HubState :=
  after ledger (careful hub) (rollOut Sample.reads ++ reconciledWith ++
    addressFrom "production-vic" "etcd-production-vic-0" "10.0.0.1" :: reconciledWith ++
    appliedEverywhere ++ reconciledWith)

def PlannedTwice (s : HubState) : Prop := s.written.map (·.revision) = [2, 2, 2, 1, 1, 1]
deriving Decidable

theorem reissued_reach :
    Reach (step hub) (Initial hub) (careful hub) reissued ∧ PlannedTwice reissued :=
  after_reach (P := PlannedTwice) ledger_initial (by decide +kernel)

theorem reissued_noEquivocation : PlannedTwice reissued ∧ NoEquivocation reissued :=
  ⟨reissued_reach.2, noEquivocation_of_reach reissued_reach.1⟩

end HubState

end Mspsql
