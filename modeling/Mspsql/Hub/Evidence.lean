import Mspsql.Hub.Ownership

/-!
# Where the topology conditions come from

`TopologyReady` and `SynchronousReplicationReady` are computed in an instance reconcile from
the observations in the status entries.  An observation says when it was made and not under
which plan, and it counts for two minutes.  `Evidenced` adds what the code does not keep: the
revision each topology was reported under, and the reports behind the two conditions of each
stored version.

`Backing` is the invariant of the runs in which older observations have expired whenever the
instance is reconciled in a phase of an operation: the conditions that go with the plans of
the phase rest on reports made under plans of the phase.
-/

namespace Mspsql

open MultiSitePostgres List

structure OperationStep where
  upgradeUID : String
  upgradePhase : UpgradePhaseValue
  restoreUID : String
  restorePhase : RestorePhaseValue
deriving DecidableEq

def Annotations.operationStep (a : Annotations) : OperationStep :=
  ⟨a.upgradeUID, a.upgradePhase, a.restoreUID, a.restorePhase⟩

def FingerprintInputs.operationStep (f : FingerprintInputs) : OperationStep :=
  ⟨f.upgradeUID, f.upgradePhase, f.restoreUID, f.restorePhase⟩

/-- Reports that conditions were computed from: the site and the revision it reported
under. -/
abbrev Evidence : Type := List (String × Option Int)

/-- What is known of one stored version. -/
structure Provenance where
  /-- Every report of a topology that was recorded, the newest first: the site and the
  revision it reported under. -/
  reports : List (String × Int) := []
  /-- What the two conditions were computed from; `none` when somebody else set them. -/
  evidence : Option Evidence := none

def Provenance.under (p : Provenance) (site : String) : Option Int :=
  (p.reports.find? (·.1 = site)).map (·.2)

structure Evidenced where
  hub : HubState
  /-- The versions of the instance, the newest first. -/
  seen : List (MultiSitePostgres × Provenance)
  /-- What the conditions of the pending status were computed from. -/
  pending : Option Evidence := none

/-- The sites whose observations count in a reconcile of `view`, when it gets as far as
`settle`. -/
def countedSites (reads : HubReads) (view : MultiSitePostgres) (now : Time) :
    Option (List String) :=
  if view.deleting ∨ view.finalizer = false then none
  else match prepare reads view with
  | .error _ => none
  | .ok (prepared, inputs) =>
    let revised := withRevision prepared inputs
    let recorded := { revised with status := { revised.status with
      sites := revised.spec.sites.map (siteStatusFor revised) } }
    some ((currentObservations recorded now).map (·.name))

def topologyReport (stored : MultiSitePostgres) (registration : String) :
    PlanMessage → Option (String × Int)
  | .progress report =>
    match stored.status.sites.find? (·.name = registration) with
    | some site =>
      if report.revision = site.desiredRevision ∧
          (report.primary.isSome ∨ report.synchronousStandbys ≠ []) then
        some (registration, report.revision)
      else none
    | none => none
  | _ => none

def topologyConditions : List String := ["TopologyReady", "SynchronousReplicationReady"]

namespace Evidenced

def provenance (w : Evidenced) (view : MultiSitePostgres) : Provenance :=
  ((w.seen.find? (fun v => v.1 = view)).map (·.2)).getD {}

/-- What the conditions rest on after a reconcile of `view`: an early exit keeps them. -/
def computedFrom (w : Evidenced) (reads : HubReads) (view : MultiSitePostgres) (now : Time) :
    Option Evidence :=
  match countedSites reads view now with
  | some sites => some (sites.map fun site => (site, (w.provenance view).under site))
  | none => (w.provenance view).evidence

def nextProvenance (w : Evidenced) : HubEvent → Provenance
  | .commit => { w.provenance w.hub.stored with evidence := w.pending }
  | .message registration _ message =>
    let before := w.provenance w.hub.stored
    match topologyReport w.hub.stored registration message with
    | some report => { before with reports := report :: before.reports }
    | none => before
  | .backupResult _ _ result =>
    let before := w.provenance w.hub.stored
    if result.conditions.any (·.type ∈ topologyConditions) then { before with evidence := none }
    else before
  | _ => w.provenance w.hub.stored

def nextPending (w : Evidenced) : HubEvent → Option Evidence
  | .issue view reads _ now _ => w.computedFrom (w.hub.readsOf reads) view now
  | _ => w.pending

def step (config : HubConfig) (w : Evidenced) (e : HubEvent) : Option Evidenced :=
  (w.hub.step config e).map fun hub =>
    { hub := hub, seen := (hub.stored, w.nextProvenance e) :: w.seen, pending := w.nextPending e }

def Initial (config : HubConfig) (w : Evidenced) : Prop :=
  HubState.Initial config w.hub ∧ w.seen = [(w.hub.stored, {})]

variable {config : HubConfig} {w v : Evidenced} {e : HubEvent} {reads : HubReads}
  {view : MultiSitePostgres} {now : Time}

theorem step_hub (h : w.step config e = some v) : w.hub.step config e = some v.hub := by
  obtain ⟨hub, hhub, rfl⟩ := Option.map_eq_some_iff.mp h
  exact hhub

theorem step_provenance (h : w.step config e = some v) :
    v.provenance v.hub.stored = w.nextProvenance e := by
  obtain ⟨hub, -, rfl⟩ := Option.map_eq_some_iff.mp h
  simp [provenance]

theorem step_pending (h : w.step config e = some v) : v.pending = w.nextPending e := by
  obtain ⟨hub, -, rfl⟩ := Option.map_eq_some_iff.mp h
  rfl

/-! ## Evidence of a phase -/

/-- The site reported under a revision whose plan for the site is one of `carries`. -/
def ReportedUnder (s : HubState) (carries : SitePlan → Prop) (site : String) (revision : Int) :
    Prop :=
  ∃ p ∈ s.written, p.revision = revision ∧ p.site.name = site ∧ carries p

instance (s : HubState) (carries : SitePlan → Prop) [DecidablePred carries] (site : String)
    (revision : Int) : Decidable (ReportedUnder s carries site revision) :=
  inferInstanceAs (Decidable (∃ p ∈ s.written, _ ∧ _))

/-- The conditions were computed from reports under plans of `carries` alone. -/
def RestsOn (s : HubState) (carries : SitePlan → Prop) (evidence : Option Evidence) : Prop :=
  ∃ e ∈ evidence, ∀ report ∈ e, ∃ revision ∈ report.2, ReportedUnder s carries report.1 revision

instance (s : HubState) (carries : SitePlan → Prop) [DecidablePred carries]
    (evidence : Option Evidence) : Decidable (RestsOn s carries evidence) :=
  inferInstanceAs (Decidable (∃ e ∈ evidence, ∀ report ∈ e, ∃ revision ∈ report.2, _))

theorem RestsOn.mono {s t : HubState} {carries : SitePlan → Prop} {evidence : Option Evidence}
    (h : RestsOn s carries evidence) (hwritten : ∀ p ∈ s.written, p ∈ t.written) :
    RestsOn t carries evidence := by
  obtain ⟨e, he, hreports⟩ := h
  refine ⟨e, he, fun report hreport => ?_⟩
  obtain ⟨revision, hrev, p, hp, hplan⟩ := hreports report hreport
  exact ⟨revision, hrev, p, hwritten p hp, hplan⟩

/-- Every observation that still counts at that time was reported under a plan of
`carries`. -/
def Expired (w : Evidenced) (view : MultiSitePostgres) (now : Time) (carries : SitePlan → Prop) :
    Prop :=
  ∀ site ∈ view.status.sites, site.observes now = true →
    ∃ revision ∈ (w.provenance view).under site.name, ReportedUnder w.hub carries site.name revision

instance (w : Evidenced) (view : MultiSitePostgres) (now : Time) (carries : SitePlan → Prop)
    [DecidablePred carries] : Decidable (w.Expired view now carries) :=
  inferInstanceAs (Decidable (∀ site ∈ view.status.sites, site.observes now = true →
    ∃ revision ∈ (w.provenance view).under site.name, _))

theorem observes_of_counted {sites : List String} (h : countedSites reads view now = some sites)
    {site : String} (hsite : site ∈ sites) :
    ∃ entry ∈ view.status.sites, entry.name = site ∧ entry.observes now = true := by
  unfold countedSites at h
  split at h
  · cases h
  split at h
  · cases h
  rename_i prepared inputs hprepare
  rw [← Option.some.inj h] at hsite
  obtain ⟨entry, hentry, rfl⟩ := mem_map.mp hsite
  obtain ⟨hmem, hobserves⟩ := mem_filter.mp hentry
  obtain ⟨spec, -, rfl⟩ := mem_map.mp hmem
  have hsites : (withRevision prepared inputs).status.sites = view.status.sites := by
    have hspec := prepare_spec reads view
    rw [hprepare] at hspec
    rw [withRevision_sites]
    exact sites_of_core hspec.1.core
  have hobserves : (previousSiteStatus view.status.sites spec.name).observes now = true := by
    rw [← hsites]
    exact (of_decide_eq_true hobserves).2
  unfold previousSiteStatus at hobserves
  rcases hfound : view.status.sites.find? (fun s => s.name = spec.name) with _ | found
  · rw [hfound] at hobserves
    cases hobserves
  rw [hfound] at hobserves
  have hname : found.name = spec.name := by simpa using find?_some hfound
  exact ⟨found, mem_of_find?_eq_some hfound, hname, hobserves⟩

/-- What an uninterrupted reconcile of `view` rests its conditions on, when everything older
has expired. -/
theorem restsOn_of_expired {carries : SitePlan → Prop} {sites : List String}
    (hcounted : countedSites reads view now = some sites) (h : w.Expired view now carries) :
    RestsOn w.hub carries (w.computedFrom reads view now) := by
  rw [computedFrom, hcounted]
  refine ⟨_, rfl, fun report hreport => ?_⟩
  obtain ⟨site, hsite, rfl⟩ := mem_map.mp hreport
  obtain ⟨entry, hentry, rfl, hobserves⟩ := observes_of_counted hcounted hsite
  exact h entry hentry hobserves

/-! ## The invariant -/

/-- A status with a fingerprint either keeps the fingerprint and the conditions of `view`, or
it was computed by `settle` for the step recorded on `view`. -/
theorem fingerprint_of_reconcile {config : BackupConfig} {directives : List DirectiveMap}
    {fails : String → Bool} {d : MultiSitePostgresStatus} {f : FingerprintInputs}
    (hd : (reconcile config reads directives fails now view).status = some d)
    (hf : d.planFingerprint = .sum f) :
    countedSites reads view now = none ∧ view.status.planFingerprint = .sum f ∨
      (∃ sites, countedSites reads view now = some sites) ∧
        f.operationStep = view.annotations.operationStep := by
  have hexit := reconcile_exit config reads directives fails now view
  generalize reconcile config reads directives fails now view = o at hd hexit
  rw [countedSites]
  cases hexit with
  | ignored | released | adopted => cases hd
  | blocked deleting waits =>
    rw [← Option.some.inj hd, waits.planFingerprint] at hf
    exact .inl ⟨if_pos (.inl deleting), hf⟩
  | deletion _ _ waits =>
    rw [(waits d hd).2.planFingerprint] at hf
    cases hf
  | rejected deleting finalizer prepare withdrawn =>
    rw [← Option.some.inj hd, withdrawn.keepsPlans.planFingerprint] at hf
    rw [if_neg (not_or.mpr ⟨deleting ▸ nofun, finalizer ▸ nofun⟩), prepare]
    exact .inl ⟨rfl, hf⟩
  | issued deleting finalizer prepare observed =>
    rw [if_neg (not_or.mpr ⟨deleting ▸ nofun, finalizer ▸ nofun⟩), prepare]
    refine .inr ⟨⟨_, rfl⟩, ?_⟩
    obtain ⟨-, -, hstatus⟩ := issue_spec config reads directives fails now _ observed
    rw [(hstatus d hd).2.planFingerprint, PlanFingerprint.sum.injEq] at hf
    rw [← hf, ← annotations_of_core observed.core]
    rfl

/-- The conditions that go with the plans of a covered step rest on reports under plans that
carry the step. -/
structure Backing (covered : OperationStep → Prop) (carries : OperationStep → SitePlan → Prop)
    (w : Evidenced) : Prop where
  stored : ∀ f, w.hub.stored.status.planFingerprint = .sum f → covered f.operationStep →
    RestsOn w.hub (carries f.operationStep) (w.provenance w.hub.stored).evidence
  pending : ∀ d f, w.hub.pending = some d → d.planFingerprint = .sum f →
    covered f.operationStep → RestsOn w.hub (carries f.operationStep) w.pending

/-- Nobody but the instance controller sets the two conditions, and whenever it works on an
instance in a covered step, older observations have expired. -/
def expiring (covered : OperationStep → Prop) (carries : OperationStep → SitePlan → Prop)
    (w : Evidenced) : HubEvent → Prop
  | .issue view _ _ now _ => covered view.annotations.operationStep →
      w.Expired view now (carries view.annotations.operationStep)
  | .backupResult _ _ result => ∀ c ∈ result.conditions, c.type ∉ topologyConditions
  | _ => True

section Backing

variable {covered : OperationStep → Prop} {carries : OperationStep → SitePlan → Prop}
  {config : HubConfig} {w v : Evidenced} {e : HubEvent}

theorem Backing.initial (h : Initial config w) : Backing covered carries w where
  stored f hf := by
    rw [h.1.planFingerprint] at hf
    cases hf
  pending d f hd := by
    rw [h.1.pending] at hd
    cases hd

theorem evidence_of_bystander (he : HubState.isReconcile e = false)
    (hok : expiring covered carries w e) :
    (w.nextProvenance e).evidence = (w.provenance w.hub.stored).evidence ∧
      w.nextPending e = w.pending := by
  cases e with
  | issue | commit | abandon => cases he
  | message registration now message =>
    refine ⟨?_, rfl⟩
    unfold nextProvenance
    dsimp only
    split <;> rfl
  | backupResult registration parseTime result =>
    refine ⟨?_, rfl⟩
    unfold nextProvenance
    dsimp only
    rw [if_neg]
    intro hany
    obtain ⟨c, hc, htype⟩ := any_eq_true.mp hany
    exact hok c hc (of_decide_eq_true htype)
  | _ => exact ⟨rfl, rfl⟩

theorem Backing.step (h : Backing covered carries w) (hseq : HubState.sequential config w.hub e)
    (hok : expiring covered carries w e) (hst : w.step config e = some v) :
    Backing covered carries v := by
  have hcase := HubState.step_case (step_hub hst)
  have hprovenance := step_provenance hst
  have hpend := step_pending hst
  by_cases he : HubState.isReconcile e = false
  · obtain ⟨hhub, hwritten, hstand⟩ := hcase.plansStand he
    obtain ⟨hevidence, hsame⟩ := evidence_of_bystander he hok
    refine ⟨fun f hf hcovered => ?_, fun d f hd hf hcovered => ?_⟩
    · rw [hprovenance, hevidence]
      exact (h.stored f (hstand.planFingerprint.symm.trans hf) hcovered).mono
        fun p hp => hwritten ▸ hp
    · rw [hpend, hsame]
      exact (h.pending d f (hhub.symm.trans hd) hf hcovered).mono fun p hp => hwritten ▸ hp
  obtain ⟨hub, -, rfl⟩ := Option.map_eq_some_iff.mp hst
  cases hcase with
  | @issue view reads fails now writes hview hnone =>
    have hissue := hseq.issueSpec
    obtain ⟨rfl, -⟩ := hseq
    obtain ⟨finalizer, hstored⟩ := hissue.stored
    refine ⟨fun f hf hcovered => ?_, fun d f hd hf hcovered => ?_⟩
    · rw [hprovenance]
      have hsame : w.hub.stored.status.planFingerprint = .sum f :=
        (congrArg (·.status.planFingerprint) hstored).symm.trans hf
      exact (h.stored f hsame hcovered).mono hissue.kept
    · refine RestsOn.mono ?_ hissue.kept
      rcases fingerprint_of_reconcile (hissue.pending.symm.trans hd) hf with
        ⟨hnone, hsame⟩ | ⟨⟨sites, hsites⟩, hstep⟩
      · have hkept : w.nextPending (.issue w.hub.stored reads fails now writes) =
            (w.provenance w.hub.stored).evidence := by
          rw [nextPending, computedFrom, hnone]
        rw [hkept]
        exact h.stored f hsame hcovered
      · rw [hstep] at hcovered ⊢
        exact restsOn_of_expired hsites (hok hcovered)
  | @commit desired hdesired =>
    refine ⟨fun f hf hcovered => ?_, fun d f hd => nomatch hd⟩
    rw [hprovenance]
    exact h.pending desired f hdesired hf hcovered
  | abandon =>
    refine ⟨fun f hf hcovered => ?_, fun d f hd => nomatch hd⟩
    rw [hprovenance]
    exact h.stored f hf hcovered
  | _ => exact absurd rfl he

end Backing

/-! ## Restoring writes after a major upgrade -/

/-- The step is phase `Replicas` of a major upgrade. -/
def inReplicas (o : OperationStep) : Prop := o.upgradePhase = .major .replicas
deriving Decidable

/-- The plan carries phase `Replicas` of the upgrade. -/
def carriesReplicas (o : OperationStep) (p : SitePlan) : Prop :=
  CarriesStep o.upgradeUID (.major .replicas) "" p
deriving Decidable

/-- When the event records `RestoreWrites`, the conditions on the instance it has read were
computed from reports under plans of phase `Replicas` of the upgrade alone. -/
def RestoresOnEvidence (w : Evidenced) (e : HubEvent) (v : Evidenced) : Prop :=
  ∀ name view reads now writes, e = .upgrade name view reads now writes →
    w.hub.stored.annotations.upgradePhase ≠ .major .restoreWrites →
    v.hub.stored.annotations.upgradePhase = .major .restoreWrites →
    RestsOn w.hub (carriesReplicas v.hub.stored.annotations.operationStep)
      (w.provenance view).evidence

/-- Both controllers work on what is stored, as in `attended`, and the observations made
before phase `Replicas` have expired when the instance is reconciled in it. -/
def unhurried (config : HubConfig) (w : Evidenced) (e : HubEvent) : Prop :=
  HubState.attended config w.hub e ∧ expiring inReplicas carriesReplicas w e

instance (config : HubConfig) (w : Evidenced) : Decidable (unhurried config w e) := by
  unfold unhurried expiring
  cases_type HubEvent <;> infer_instance

open Machine

theorem attended_of_reach (h : Reach (step config) (Initial config) (unhurried config) w) :
    HubState.Attended w.hub ∧ Backing inReplicas carriesReplicas w := by
  refine ⟨h.invariant (I := fun w => w.hub.Attended) (fun _ hinit => .initial hinit.1)
      fun _ _ _ hinv hok hst => hinv.step hok.1 (step_hub hst),
    h.invariant (fun _ => .initial) fun _ _ _ hinv hok hst => hinv.step hok.1.1 hok.2 hst⟩

/-- An upgrade reconcile on the stored instance records `RestoreWrites` only from phase
`Replicas`, once it is applied. -/
theorem replicas_of_moved {s t : HubState} {u : PostgresUpgrade} {name : String}
    (hmoved : HubState.Moved u s.stored name s t)
    (hbefore : s.stored.annotations.upgradePhase ≠ .major .restoreWrites)
    (hafter : t.stored.annotations.upgradePhase = .major .restoreWrites) :
    s.stored.annotations.upgradePhase = .major .replicas ∧
      s.stored.annotations.upgradeUID = u.uid ∧ majorPhaseApplied s.stored = true ∧
      t.stored.annotations.upgradeUID = u.uid := by
  cases hmoved with
  | none stored => exact absurd (stored ▸ hafter) hbefore
  | finish _ _ _ _ stored => exact nomatch (patched stored rfl).phase.symm.trans hafter
  | move hmove stored =>
    have hnew := patched stored rfl
    have hphase := hnew.phase.symm.trans hafter
    cases hmove with
    | @advance phase next _ owned recorded follows applied =>
      cases phase with
      | replicas => exact ⟨recorded, owned, applied, hnew.uid.trans owned⟩
      | _ =>
        cases follows
        try cases hphase
    | nextMember => exact absurd hphase hbefore
    | _ => cases hphase

/-- In every run in which both controllers work on what is stored and older observations
have expired in phase `Replicas`. -/
theorem restoresOnEvidence_of_reach {config : HubConfig} {w v : Evidenced} {e : HubEvent}
    (h : Reach (step config) (Initial config) (unhurried config) w)
    (hok : unhurried config w e) (hst : w.step config e = some v) : RestoresOnEvidence w e v := by
  rintro name view reads now writes rfl hbefore hafter
  obtain ⟨hattended, hbacking⟩ := attended_of_reach h
  obtain ⟨⟨-, rfl, hsettled, hdel, -⟩, -⟩ := hok
  have hcase := HubState.step_case (step_hub hst)
  generalize v.hub = t at hcase hafter
  cases hcase with
  | @upgrade _ _ _ _ _ u hfound =>
    obtain ⟨hphase, howned, happlied, huid⟩ := replicas_of_moved
      HubState.upgrade_moved hbefore hafter
    have hstored : w.hub.currentFingerprint = w.hub.stored.status.planFingerprint := by
      rcases hp : w.hub.pending with _ | d
      · exact HubState.currentFingerprint_of_none hp
      · rw [HubState.currentFingerprint, hp]
        exact hattended.sequenced.unchanged d hp (hsettled d hp)
    have hheld : w.hub.stored.annotations.upgradeUID ≠ "" := by
      rw [howned]
      exact (hattended.tracked.known _ (mem_map_of_mem (mem_of_find?_eq_some hfound))).2.1
    unfold majorPhaseApplied at happlied
    split at happlied
    · rename_i x hx
      rw [decide_eq_true_eq] at happlied
      obtain ⟨-, hcovers⟩ := hattended.tracked.expected hdel hheld x hx
      obtain ⟨f, hf, hfuid, hfphase, -⟩ :=
        hcovers (HubState.currentRevision_of_settled hsettled ▸ happlied.1)
      have hrests := hbacking.stored f (hstored.symm.trans hf) (hfphase.trans hphase)
      have hsame : f.operationStep.upgradeUID = Annotations.upgradeUID _ :=
        hfuid.trans (howned.trans huid.symm)
      unfold carriesReplicas at hrests
      rw [hsame] at hrests
      exact hrests
    · cases happlied

/-! ## Runs -/

open Sample

def fresh : Evidenced where
  hub := Sample.created ledger
  seen := [(ledger, {})]

def after (ok : Evidenced → HubEvent → Prop) [∀ w e, Decidable (ok w e)]
    (script : List (HubState → HubEvent)) : Evidenced :=
  reached (step Sample.hub) ok fresh (script.map fun event w => event w.hub)

def reconciledAt (now : Time) : List (HubState → HubEvent) :=
  [fun s => .issue s.stored Sample.reads (fun _ => false) now s.stored.spec.sites.length,
    Sample.commit]

def phaseAppliedAt (now : Time) : List (HubState → HubEvent) :=
  upgradeStep :: reconciledAt now ++ appliedEverywhere

def topologyFrom (site : String) (now : Time) (s : HubState) : HubEvent :=
  .message site now (.progress {
    instanceUID := s.stored.uid
    revision := s.stored.status.activeRevision
    phase := "Applying"
    primary := Sample.topology.1
    synchronousStandbys := Sample.topology.2 })

/-- The next upgrade reconcile records `RestoreWrites`. -/
def RestoresNext (w : Evidenced) : Prop :=
  w.hub.stored.annotations.upgradePhase ≠ .major .restoreWrites ∧
    (w.step Sample.hub (upgradeStep w.hub)).any (fun v => decide
      (v.hub.stored.annotations.upgradePhase = .major .restoreWrites)) = true
deriving Decidable

/-- All phases up to `Replicas` are applied within two minutes of the last observation of the
old cluster. -/
def hurried : Evidenced :=
  after anyStep (upgradeRequested ++ (List.replicate 8 (phaseAppliedAt 0)).flatten)

/-- `RestoreWrites` comes next, and the conditions do not rest on phase `Replicas`. -/
def Hurried (w : Evidenced) : Prop :=
  RestoresNext w ∧ (w.step Sample.hub (upgradeStep w.hub)).any (fun v => decide
    ¬ RestsOn w.hub (carriesReplicas v.hub.stored.annotations.operationStep)
      (w.provenance w.hub.stored).evidence) = true
deriving Decidable

theorem hurried_reach : Reach (step Sample.hub) (Initial Sample.hub) anyStep hurried ∧
      Hurried hurried := by
  unfold hurried after
  exact played (P := Hurried) ⟨Sample.ledger_initial, rfl⟩ (by decide +kernel)

theorem Hurried.not_restoresOnEvidence (h : Hurried w) :
    ∃ v, w.step Sample.hub (upgradeStep w.hub) = some v ∧
      ¬ RestoresOnEvidence w (upgradeStep w.hub) v := by
  obtain ⟨⟨hbefore, hafter⟩, hrests⟩ := h
  obtain ⟨v, hv, hphase⟩ := (Option.any_eq_true _ _).mp hafter
  obtain ⟨v', hv', hrests⟩ := (Option.any_eq_true _ _).mp hrests
  rw [hv] at hv'
  cases hv'
  exact ⟨v, hv, fun hbacked => of_decide_eq_true hrests
    (hbacked _ _ _ _ _ rfl hbefore (of_decide_eq_true hphase))⟩

/-- Writes are restored on observations of the cluster before the upgrade. -/
theorem hurried_restores : Reach (step Sample.hub) (Initial Sample.hub) anyStep hurried ∧
      ∃ v, hurried.step Sample.hub (upgradeStep hurried.hub) = some v ∧
        ¬ RestoresOnEvidence hurried (upgradeStep hurried.hub) v :=
  ⟨hurried_reach.1, hurried_reach.2.not_restoresOnEvidence⟩

/-- The plans of phase `Replicas` are made when the old observations have expired, and both
data sites report under them. -/
def patient : Evidenced :=
  after (unhurried Sample.hub) (upgradeRequested ++
    (List.replicate 7 (phaseAppliedAt 0)).flatten ++ phaseAppliedAt (3 * minute) ++
    [topologyFrom "production-vic" (3 * minute), topologyFrom "production-nsw" (3 * minute)] ++
    reconciledAt (3 * minute))

/-- `RestoreWrites` comes next, in a step that is not hurried either. -/
def Patient (w : Evidenced) : Prop :=
  RestoresNext w ∧ unhurried Sample.hub w (upgradeStep w.hub)

instance : DecidablePred Patient := fun _ => inferInstanceAs (Decidable (_ ∧ _))

theorem patient_reach :
    Reach (step Sample.hub) (Initial Sample.hub) (unhurried Sample.hub) patient ∧
      Patient patient := by
  unfold patient after
  exact played (P := Patient) ⟨Sample.ledger_initial, rfl⟩ (by decide +kernel)

theorem patient_restoresOnEvidence :
    ∃ v, patient.step Sample.hub (upgradeStep patient.hub) = some v ∧
      v.hub.stored.annotations.upgradePhase = .major .restoreWrites ∧
      RestoresOnEvidence patient (upgradeStep patient.hub) v := by
  obtain ⟨v, hv, hphase⟩ := (Option.any_eq_true _ _).mp patient_reach.2.1.2
  exact ⟨v, hv, of_decide_eq_true hphase,
    restoresOnEvidence_of_reach patient_reach.1 patient_reach.2.2 hv⟩

end Evidenced

end Mspsql
