import Mspsql.Hub.Conditions
import Mspsql.Hub.Evidence
import Mspsql.Hub.Operations
import Mspsql.Hub.Readiness
import Mspsql.Control.Receipts

/-!
# The order in which a restore target is exposed

The restore controller moves the target from phase to phase by conditions that the instance
controller has computed earlier, perhaps for an earlier phase.  Pgpool is first rendered in
phase `Verify`, so `Verify` is to be recorded only when all sites have applied plans of phase
`Replicas` and the data sites have reported a topology under them, and `Completed` only when
all sites have applied plans of phase `Verify`.

A true `Ready` condition is enough for the second: `setAppliedInstanceReady` looks at the phase
of the plans and at the revision every site reports.  A true `TopologyReady` condition is
enough for the first only if it was computed for plans of phase `Replicas` that all sites
report as applied, and from observations made under them.
-/

namespace Mspsql

open MultiSitePostgres List

variable {config : OperationsConfig} {v w : Restoring} {e : HubEvent} {t : HubState}
  {reads : HubReads} {inputs : PlanInputs} {now : Time}

def PlansRestore (uid : String) (phase : RestorePhase) (p : SitePlan) : Prop :=
  ∃ r ∈ p.restore, r.operationUID = uid ∧ r.phase = phase
deriving Decidable

def HubState.AppliedEverywhere (s : HubState) (uid : String) (phase : RestorePhase) : Prop :=
  ∀ site ∈ s.stored.spec.sites, ∃ p ∈ s.applied, p.site.name = site.name ∧ PlansRestore uid phase p
deriving Decidable

def Evidenced.ObservedEverywhere (w : Evidenced) (uid : String) (phase : RestorePhase) : Prop :=
  ∀ site ∈ w.hub.stored.spec.sites, site.role = .data →
    ∃ report ∈ (w.provenance w.hub.stored).reports, report.1 = site.name ∧
      ReportedUnder w.hub (PlansRestore uid phase) report.1 report.2

/-! ## A restore and its target -/

structure Restoring where
  target : Evidenced
  restore : PostgresRestore

inductive RestoringEvent where
  /-- The target instance is reconciled, a site applies a plan or reports, or the user edits
  or deletes the target. -/
  | hub (event : HubEvent)
  /-- A reconcile of the restore, for which the target is `view`, makes its first `writes`
  writes. -/
  | restore (view : MultiSitePostgres) (reads : RestoreReads) (now : Time) (writes : Nat)

/-- Events of an instance that nobody upgrades and whose annotations belong to its restore. -/
def HubEvent.ordinary : HubEvent → Bool
  | .issue .. | .commit | .abandon | .apply _ | .message .. | .backupResult .. | .edit _
  | .delete => true
  | _ => false

def HubEvent.reading (restore : PostgresRestore) : HubEvent → HubEvent
  | .issue view reads fails now writes =>
    .issue view { reads with restores := [restore] } fails now writes
  | e => e

namespace Restoring

def hub (w : Restoring) : HubState := w.target.hub

def phase (w : Restoring) : RestorePhaseValue := w.hub.stored.annotations.restorePhase

def annotate (config : OperationsConfig) (w : Restoring) (annotations : Annotations) : Restoring :=
  { w with target := (w.target.step config.hub (.annotate annotations)).getD w.target }

/-- One write of a restore reconcile.  A reconcile that finds its target creates none, and the
evidence of a drill goes to the source. -/
def applyRestoreWrite (config : OperationsConfig) (w : Restoring) : RestoreWrite → Restoring
  | .addFinalizer => { w with restore := { w.restore with finalizer := true } }
  | .removeFinalizer => { w with restore := { w.restore with finalizer := false } }
  | .setStatus updated => { w with restore := w.restore.withStatusOf updated }
  | .setTargetPhase phase =>
    w.annotate config { w.hub.stored.annotations with restorePhase := phase }
  | .clearTarget => w.annotate config (clearRestoreAnnotations w.hub.stored).annotations
  | .deleteTarget => { w with target := (w.target.step config.hub .delete).getD w.target }
  | .createTarget _ => w
  | .drillEvidence _ _ => w

def step (config : OperationsConfig) (w : Restoring) : RestoringEvent → Option Restoring
  | .hub event =>
    if event.ordinary then
      (w.target.step config.hub (event.reading w.restore)).map fun target =>
        { w with target := target }
    else none
  | .restore view reads now writes =>
    if view ∈ w.hub.versions then
      some (((reconcileRestore config.restores { reads with target := .found view } w.restore
        now).take writes).foldl (applyRestoreWrite config) w)
    else none

structure Initial (config : OperationsConfig) (w : Restoring) : Prop where
  created : Created config.hub w.hub
  seen : w.target.seen = [(w.hub.stored, {})]
  restoreUID : w.hub.stored.annotations.restoreUID = w.restore.uid
  restoreName : w.hub.stored.annotations.restoreName = w.restore.name
  named : w.restore.name ≠ ""
  phase : w.phase = .active .seed
  upgradePhase : w.hub.stored.annotations.upgradePhase = .absent
  deleting : w.restore.deleting = false

/-- `Verify` and `Completed` are recorded in order. -/
def InOrder (w v : Restoring) : Prop :=
  (v.phase = .active .verify → w.phase ≠ .active .verify →
    w.hub.AppliedEverywhere w.restore.uid .replicas ∧
      w.target.ObservedEverywhere w.restore.uid .replicas) ∧
  (v.phase = .completed → w.phase ≠ .completed → w.hub.AppliedEverywhere w.restore.uid .verify)

/-- The plans of the status were made in phase `Replicas`, and all sites report them as
applied. -/
def replicasApplied (status : MultiSitePostgresStatus) : Prop :=
  match status.planFingerprint with
  | .sum f => f.restorePhase = .active .replicas ∧
      allSitesApplied status.sites status.activeRevision = true
  | _ => False

instance : DecidablePred replicasApplied := by
  intro status
  unfold replicasApplied
  cases status.planFingerprint <;> infer_instance

/-- What is asked of an event of the target besides `sequential`: the sites stay the same,
nobody else sets the conditions, and when the target is reconciled in phase `Replicas`, the
observations that still count were made by data sites under plans of that phase. -/
def calm (uid : String) (w : Evidenced) : HubEvent → Prop
  | .issue view _ _ now _ => view.annotations.restorePhase = .active .replicas →
      w.Expired view now fun p => p.site.role = .data ∧ PlansRestore uid .replicas p
  | .backupResult _ _ result => ∀ c ∈ result.conditions, c.type ∉ acceptanceConditions
  | .edit spec => spec.sites = w.hub.stored.spec.sites
  | _ => True

instance (uid : String) (w : Evidenced) : Decidable (calm uid w e) := by
  unfold calm
  cases_type HubEvent <;> infer_instance

/-- The restore controller works on the stored target, and in phase `Replicas` only when the
plans of the phase are applied. -/
def orderly (config : OperationsConfig) (w : Restoring) : RestoringEvent → Prop
  | .hub event => HubState.sequential config.hub w.hub (event.reading w.restore) ∧
      calm w.restore.uid w.target (event.reading w.restore)
  | .restore view _ _ _ => view = w.hub.stored ∧
      (w.phase = .active .replicas → replicasApplied w.hub.stored.status)

instance (config : OperationsConfig) (w : Restoring) (e : RestoringEvent) :
    Decidable (orderly config w e) := by
  unfold orderly
  cases e <;> infer_instance

end Restoring

/-! ## One restore reconcile -/

theorem reconcileRestore_case (library : RestoreLibrary) (reads : RestoreReads)
    {restore : PostgresRestore} {target : MultiSitePostgres} (now : Time)
    (hdel : restore.deleting = false) (htarget : reads.target = .found target) :
    RestoreCase target (reconcileRestore library reads restore now) := by
  have hstatus := writeRestoreStatus_spares restore
  unfold reconcileRestore
  rw [hdel, if_neg Bool.false_ne_true, htarget]
  split
  · split
    · exact .spares fun x hx => mem_singleton.mp hx ▸ rfl
    · exact .spares fun x hx => absurd hx not_mem_nil
  · split
    · exact .spares fun x hx => mem_singleton.mp hx ▸ rfl
    split
    · exact .spares (hstatus _)
    split
    · exact .spares (hstatus _)
    dsimp only
    split
    · exact .spares (hstatus _)
    · exact advanceRestore_case ..

theorem RestoreCase.take {target : MultiSitePostgres} {writes : List RestoreWrite}
    (h : RestoreCase target writes) (n : Nat) : RestoreCase target (writes.take n) := by
  cases h with
  | spares spares => exact .spares fun x hx => spares x (mem_of_mem_take hx)
  | advances advance spares =>
    cases n with
    | zero => exact .spares fun x hx => absurd hx not_mem_nil
    | succ n => exact .advances advance fun x hx => spares x (mem_of_mem_take hx)

namespace Restoring

/-- The restore as far as nothing but its user changes it. -/
def Same (r s : PostgresRestore) : Prop :=
  s.uid = r.uid ∧ s.name = r.name ∧ s.deleting = r.deleting

theorem applyRestoreWrites_of_spares (config : OperationsConfig) {writes : List RestoreWrite}
    (h : ∀ x ∈ writes, x.sparesTarget = true) (w : Restoring) :
    (writes.foldl (applyRestoreWrite config) w).target = w.target ∧
      Same w.restore (writes.foldl (applyRestoreWrite config) w).restore := by
  induction writes generalizing w with
  | nil => exact ⟨rfl, rfl, rfl, rfl⟩
  | cons x rest ih =>
    obtain ⟨htarget, huid, hname, hdel⟩ :=
      ih (fun y hy => h y (mem_cons_of_mem x hy)) (applyRestoreWrite config w x)
    rw [foldl_cons, Same, htarget, huid, hname, hdel]
    have hx := h x mem_cons_self
    cases x with
    | createTarget | setTargetPhase | clearTarget | deleteTarget => cases hx
    | _ => exact ⟨rfl, rfl, rfl, rfl⟩

inductive StepCase (config : OperationsConfig) (w : Restoring) :
    RestoringEvent → Restoring → Prop where
  | hub {event : HubEvent} {target : Evidenced} (ordinary : event.ordinary = true)
      (step : w.target.step config.hub (event.reading w.restore) = some target) :
      StepCase config w (.hub event) { w with target := target }
  | unchanged {view : MultiSitePostgres} {reads : RestoreReads} {now : Time} {writes : Nat}
      {v : Restoring} (target : v.target = w.target) (restore : Same w.restore v.restore) :
      StepCase config w (.restore view reads now writes) v
  | advanced {view : MultiSitePostgres} {reads : RestoreReads} {now : Time} {writes : Nat}
      {v : Restoring} {phase : RestorePhaseValue} (advance : RestoreAdvance view phase)
      (step : w.target.step config.hub
        (.annotate { w.hub.stored.annotations with restorePhase := phase }) = some v.target)
      (restore : Same w.restore v.restore) : StepCase config w (.restore view reads now writes) v

theorem step_case {e : RestoringEvent} (hdel : w.restore.deleting = false)
    (h : w.step config e = some v) :
    StepCase config w e v := by
  cases e with
  | hub event =>
    simp only [step] at h
    split at h
    · rename_i hordinary
      obtain ⟨target, htarget, rfl⟩ := Option.map_eq_some_iff.mp h
      exact .hub hordinary htarget
    · cases h
  | restore view reads now writes =>
    simp only [step] at h
    split at h
    · rw [← Option.some.inj h]
      have hcase := (reconcileRestore_case config.restores { reads with target := .found view } now
        hdel rfl).take writes
      revert hcase
      generalize (reconcileRestore config.restores { reads with target := .found view }
        w.restore now).take writes = made
      intro hcase
      cases hcase with
      | spares spares =>
        obtain ⟨htarget, hrestore⟩ := applyRestoreWrites_of_spares config spares w
        exact .unchanged htarget hrestore
      | @advances phase rest advance spares =>
        obtain ⟨htarget, hrestore⟩ := applyRestoreWrites_of_spares config spares
          (applyRestoreWrite config w (.setTargetPhase phase))
        exact .advanced advance (by rw [foldl_cons, htarget]; rfl) hrestore
    · cases h

end Restoring

/-! ## What the plans of the target carry -/

theorem HubEvent.reading_ordinary (restore : PostgresRestore) (e : HubEvent) :
    (e.reading restore).ordinary = e.ordinary := by
  cases e <;> rfl

theorem HubState.StepCase.annotations {config : HubConfig} {s : HubState}
    (h : HubState.StepCase config s e t) (he : e.ordinary = true) :
    t.stored.annotations = s.stored.annotations := by
  cases h with
  | @issue view reads fails now writes =>
    obtain ⟨f, hstored⟩ := s.applyOutcome_finalizer view _ writes
    rw [hstored]
  | backupResult hrecords => exact hrecords.annotations
  | upgrade | upgradeBackupSucceeded | upgradeBackupFailed | annotate | createUpgrade
  | deleteUpgrade => cases he
  | _ => rfl

theorem restorePlan_phase {i : MultiSitePostgres} {restore : PostgresRestore}
    {plan : Option RestorePlan} {phase : RestorePhase} (h : restorePlan reads i = .ok plan)
    (hname : i.annotations.restoreName = restore.name) (hnamed : restore.name ≠ "")
    (hreads : reads.restores = [restore]) (hphase : i.annotations.restorePhase = .active phase) :
    ∃ r ∈ plan, r.operationUID = restore.uid ∧ r.phase = phase := by
  have hfound : reads.restore? i.annotations.restoreName = some restore := by
    rw [HubReads.restore?, hreads, hname]
    simp
  unfold restorePlan at h
  dsimp only at h
  rw [hphase, if_neg (by simp [hname, hnamed]), hfound] at h
  dsimp only at h
  split at h
  · cases h
  split at h
  · cases h
  split at h
  · cases h
  · rw [← Except.ok.inj h]
    exact ⟨_, rfl, rfl, rfl⟩

namespace Restoring

theorem annotations_of_ordinary {event : HubEvent} {target : Evidenced}
    (hordinary : event.ordinary = true)
    (hst : w.target.step config.hub (event.reading w.restore) = some target) :
    target.hub.stored.annotations = w.hub.stored.annotations :=
  (HubState.step_case (Evidenced.step_hub hst)).annotations
    ((HubEvent.reading_ordinary ..).trans hordinary)

theorem annotations_of_advance {phase : RestorePhaseValue}
    (hst : w.target.step config.hub
      (.annotate { w.hub.stored.annotations with restorePhase := phase }) = some v.target) :
    v.hub.stored.annotations = { w.hub.stored.annotations with restorePhase := phase } := by
  obtain ⟨hub, hhub, htarget⟩ := Option.map_eq_some_iff.mp hst
  obtain rfl := Option.some.inj hhub
  rw [Restoring.hub, ← htarget]
  rfl

structure Marked (w : Restoring) : Prop where
  name : w.hub.stored.annotations.restoreName = w.restore.name
  named : w.restore.name ≠ ""
  phase : w.phase = .completed ∨ ∃ phase, w.phase = .active phase
  upgradePhase : w.hub.stored.annotations.upgradePhase = .absent
  deleting : w.restore.deleting = false

theorem Marked.initial (h : Initial config w) : Marked w :=
  ⟨h.restoreName, h.named, .inr ⟨_, h.phase⟩, h.upgradePhase, h.deleting⟩

theorem Marked.step {e : RestoringEvent} (h : Marked w) (hst : w.step config e = some v) :
    Marked v := by
  cases step_case h.deleting hst with
  | @hub event target ordinary step =>
    have hsame := annotations_of_ordinary ordinary step
    have hphase : Restoring.phase { w with target := target } = w.phase :=
      congrArg (·.restorePhase) hsame
    exact ⟨(congrArg (·.restoreName) hsame).trans h.name, h.named, hphase ▸ h.phase,
      (congrArg (·.upgradePhase) hsame).trans h.upgradePhase, h.deleting⟩
  | unchanged target restore =>
    obtain ⟨-, hname, hdel⟩ := restore
    refine ⟨?_, hname ▸ h.named, ?_, ?_, hdel.trans h.deleting⟩
    · rw [Restoring.hub, target, hname]
      exact h.name
    · rw [Restoring.phase, Restoring.hub, target]
      exact h.phase
    · rw [Restoring.hub, target]
      exact h.upgradePhase
  | @advanced _ _ _ _ _ phase advance step restore =>
    obtain ⟨-, hname, hdel⟩ := restore
    have hstored := annotations_of_advance step
    refine ⟨?_, hname ▸ h.named, ?_, ?_, hdel.trans h.deleting⟩
    · rw [hstored, hname]
      exact h.name
    · rw [Restoring.phase, hstored]
      cases advance with
      | replicas | verify => exact .inr ⟨_, rfl⟩
      | completed => exact .inl rfl
    · rw [hstored]
      exact h.upgradePhase

end Restoring

namespace HubState

structure StagedStatus (s : HubState) (uid : String) (status : MultiSitePostgresStatus) :
    Prop where
  positive : ∀ f, status.planFingerprint = .sum f → 0 < status.activeRevision
  names : ∀ f, status.planFingerprint = .sum f →
    status.sites.map (·.name) = s.stored.spec.sites.map (·.name)
  /-- The plans of a revision carry the phase of its fingerprint. -/
  carried : ∀ f phase, status.planFingerprint = .sum f → f.restorePhase = .active phase →
    ∀ p ∈ s.written, p.revision = status.activeRevision → PlansRestore uid phase p

structure Staged (s : HubState) (uid : String) : Prop where
  sites : ∀ p ∈ s.written, p.site ∈ s.stored.spec.sites
  stored : StagedStatus s uid s.stored.status
  pending : ∀ d, s.pending = some d → StagedStatus s uid d

variable {s t : HubState} {uid : String}

theorem StagedStatus.frame {status status' : MultiSitePostgresStatus}
    (h : StagedStatus s uid status) (hsites : t.stored.spec.sites = s.stored.spec.sites)
    (hwritten : ∀ p ∈ t.written, p.revision = status.activeRevision → p ∈ s.written)
    (hrev : status'.activeRevision = status.activeRevision)
    (hprint : status'.planFingerprint = status.planFingerprint)
    (hnames : status'.sites.map (·.name) = status.sites.map (·.name)) :
    StagedStatus t uid status' where
  positive f hf := by
    rw [hrev]
    exact h.positive f (hprint ▸ hf)
  names f hf := by
    rw [hnames, hsites]
    exact h.names f (hprint ▸ hf)
  carried f phase hf hphase p hp hcur := by
    rw [hrev] at hcur
    exact h.carried f phase (hprint ▸ hf) hphase p (hwritten p hp hcur) hcur

theorem StagedStatus.unplanned {status : MultiSitePostgresStatus}
    (h : ∀ f, status.planFingerprint ≠ .sum f) : StagedStatus s uid status :=
  ⟨fun f hf => absurd hf (h f), fun f hf => absurd hf (h f), fun f _ hf => absurd hf (h f)⟩

theorem Staged.initial {config : HubConfig} (h : Initial config s) : Staged s uid where
  sites p hp := by rw [h.written] at hp; cases hp
  stored := .unplanned fun f hf => by rw [h.planFingerprint] at hf; cases hf
  pending d hd := by rw [h.pending] at hd; cases hd

/-- The plans issued from `s` carry the phase recorded on the instance. -/
def Contracted (s : HubState) (uid : String) (reads : HubReads) : Prop :=
  ∀ prepared inputs n phase, Observed s.stored prepared →
    planInputs reads prepared n = .ok inputs → s.stored.annotations.restorePhase = .active phase →
    ∃ r ∈ inputs.restore, r.operationUID = uid ∧ r.phase = phase

/-- The same for the reads of an event. -/
def ContractedIn (s : HubState) (uid : String) (e : HubEvent) : Prop :=
  ∀ view reads fails now writes, e = .issue view reads fails now writes →
    s.Contracted uid (s.readsOf reads)

theorem Staged.issue {o : Outcome} (h : Staged s uid) (hseq : Sequenced s)
    (hnone : s.pending = none) (hcontract : Contracted s uid reads)
    (hissue : IssueSpec s t reads now o) (hkept : ∀ p ∈ t.written, p.site ∈ t.stored.spec.sites) :
    Staged t uid := by
  obtain ⟨finalizer, hstored⟩ := hissue.stored
  have hsites : t.stored.spec.sites = s.stored.spec.sites := by rw [hstored]
  have hstatus : t.stored.status = s.stored.status := by rw [hstored]
  cases hissue.plansCase hseq.nonneg with
  | quiet _ written pending =>
    refine ⟨hkept, ?_, fun d hd => ?_⟩
    · rw [hstatus]
      exact h.stored.frame hsites (fun p hp _ => written p hp) rfl rfl rfl
    · have hkeeps := pending d hd
      exact h.stored.frame hsites (fun p hp _ => written p hp) hkeeps.activeRevision
        hkeeps.planFingerprint (by rw [hkeeps.sites])
  | issued deleting observed planInputs pending revision moves fingerprint names planned =>
    -- a new plan carries the phase of the fingerprint it is issued under
    have hcarries : ∀ p ∈ o.plans, ∀ phase,
        s.stored.annotations.restorePhase = .active phase → PlansRestore uid phase p := by
      intro p hp phase hphase
      obtain ⟨r, hr, hplan⟩ := hcontract _ _ _ phase observed planInputs hphase
      exact ⟨r, (planned p hp).restore ▸ hr, hplan⟩
    refine ⟨hkept, ⟨?_, ?_, fun f phase hf hphase p hp hcur => ?_⟩, fun d hd => ?_⟩
    · rw [hstatus]
      exact h.stored.positive
    · rw [hsites, hstatus]
      exact h.stored.names
    · rw [hstatus] at hf hcur
      rcases hissue.written p hp with hplan | hin
      · have hrev := (planned p hplan).revision
        refine hcarries p hplan phase ?_
        split at moves
        · rename_i hunmoved
          rw [hunmoved] at hf
          rw [← hphase, ← PlanFingerprint.sum.inj hf]
          rfl
        · omega
      · exact h.stored.carried f phase hf hphase p hin hcur
    · obtain rfl := Option.some.inj (pending.symm.trans hd)
      refine ⟨fun f _ => ?_, fun f _ => names.trans (by rw [hsites]),
        fun f phase hf hphase p hp hcur => ?_⟩
      · rw [moves]
        have := hseq.nonneg
        split
        · rename_i hunmoved
          exact h.stored.positive _ hunmoved
        · omega
      · rw [fingerprint] at hf
        rcases hissue.written p hp with hplan | hin
        · refine hcarries p hplan phase ?_
          rw [← hphase, ← PlanFingerprint.sum.inj hf]
          rfl
        · obtain ⟨hunmoved, hrev, -⟩ := hseq.reissued hnone deleting observed hin
            (hcur.trans revision)
          exact h.stored.carried f phase (hunmoved.trans hf) hphase p hin hrev
  | deletion _ pending moves fingerprint _ planned =>
    refine ⟨hkept, ?_, fun d hd => ?_⟩
    · rw [hstatus]
      refine h.stored.frame hsites (fun p hp hcur => ?_) rfl rfl rfl
      refine (hissue.written p hp).resolve_left fun hplan => ?_
      obtain ⟨registration, site, -, rfl⟩ := planned p hplan
      exact absurd (moves.symm.trans hcur) (by omega)
    · obtain rfl := Option.some.inj (pending.symm.trans hd)
      exact .unplanned fun f hf => by rw [fingerprint] at hf; cases hf

theorem Staged.step {config : HubConfig} (h : Staged s uid) (hseq : Sequenced s)
    (hok : sequential config s e) (hsites : t.stored.spec.sites = s.stored.spec.sites)
    (hcontract : s.ContractedIn uid e) (hst : s.step config e = some t) : Staged t uid := by
  have hcase := step_case hst
  have hkept := written_sites h.sites hok hsites hcase
  by_cases he : isReconcile e = false
  · obtain ⟨hnames, -⟩ := hcase.entries he
    obtain ⟨hpend, hwritten, hstand⟩ := hcase.plansStand he
    refine ⟨hkept, ?_, fun d hd => ?_⟩
    · exact h.stored.frame hsites (fun p hp _ => hwritten ▸ hp) hstand.activeRevision
        hstand.planFingerprint hnames
    · exact (h.pending d (hpend ▸ hd)).frame hsites (fun p hp _ => hwritten ▸ hp) rfl rfl rfl
  · cases hcase with
    | issue _ hnone => exact h.issue hseq hnone (hcontract _ _ _ _ _ rfl) hok.issueSpec hkept
    | @commit desired hdesired =>
      have hmerged := mergeReconciledStatus_activeRevision (hseq.pending desired hdesired)
      exact ⟨h.sites, (h.pending desired hdesired).frame rfl (fun p hp _ => hp) hmerged rfl
        (mergeReconciledSites_names ..), fun d hd => nomatch hd⟩
    | abandon =>
      exact ⟨h.sites, h.stored.frame rfl (fun p hp _ => hp) rfl rfl rfl, fun d hd => nomatch hd⟩
    | _ => exact absurd rfl he

theorem AppliedEverywhere.mono {phase : RestorePhase} (h : s.AppliedEverywhere uid phase)
    (hsites : t.stored.spec.sites = s.stored.spec.sites)
    (happlied : ∀ p ∈ s.applied, p ∈ t.applied) : t.AppliedEverywhere uid phase := by
  intro site hsite
  obtain ⟨p, hp, hplan⟩ := h site (hsites ▸ hsite)
  exact ⟨p, happlied p hp, hplan⟩

theorem appliedEverywhere_of_entries {f : FingerprintInputs} {phase : RestorePhase}
    (hreported : Reported s) (hentered : Entered s) (hstaged : Staged s uid)
    (hf : s.stored.status.planFingerprint = .sum f) (hphase : f.restorePhase = .active phase)
    (happlied : allSitesApplied s.stored.status.sites s.stored.status.activeRevision = true) :
    s.AppliedEverywhere uid phase := by
  intro site hsite
  have hname : site.name ∈ s.stored.status.sites.map (·.name) := by
    rw [hstaged.stored.names f hf]
    exact mem_map_of_mem hsite
  obtain ⟨p, hp, hpname, hrev⟩ := applied_everywhere hreported hentered happlied
    (hstaged.stored.positive f hf).ne' _ hname
  exact ⟨p, hp, hpname, hstaged.stored.carried f phase hf hphase p (hreported.applied p hp) hrev⟩

theorem entries_of_ready {prepared : MultiSitePostgres} (hreported : Reported s)
    (hstaged : Staged s uid) (hseq : Sequenced s) (hnone : s.pending = none)
    (hobs : Observed s.stored prepared)
    (happlied : allSitesApplied ((withRevision prepared inputs).spec.sites.map (siteStatusFor
      (withRevision prepared inputs))) (withRevision prepared inputs).status.activeRevision = true)
    :
    s.stored.status.planFingerprint =
        .sum (planFingerprint s.stored inputs.addresses inputs.rotation) ∧
      allSitesApplied s.stored.status.sites s.stored.status.activeRevision = true := by
  have hmoves := hobs.revision inputs hseq.nonneg
  rw [withRevision_spec, spec_of_core hobs.core] at happlied
  have hentries : ∀ site ∈ s.stored.spec.sites,
      (previousSiteStatus s.stored.status.sites site.name).appliedRevision =
        (withRevision prepared inputs).status.activeRevision := by
    intro site hsite
    have h := allSitesApplied_mem happlied (mem_map_of_mem hsite)
    rw [← h]
    show _ = (previousSiteStatus (withRevision prepared inputs).status.sites
      site.name).appliedRevision
    rw [withRevision_sites, sites_of_core hobs.core]
  obtain ⟨site, hsite⟩ : ∃ site, site ∈ s.stored.spec.sites := by
    refine exists_mem_of_ne_nil _ fun hnil => ?_
    rw [hnil] at happlied
    cases happlied
  -- a site has applied a plan of the revision, so the revision is not a new one
  have hunmoved : s.stored.status.planFingerprint =
      .sum (planFingerprint s.stored inputs.addresses inputs.rotation) := by
    by_contra hmoved
    rw [if_neg hmoved] at hmoves
    have hnonneg := hseq.nonneg
    have hentry := hentries site hsite
    rcases previousSiteStatus_cases s.stored.status.sites site.name with ⟨hdefault, -⟩ | ⟨hmem, -⟩
    · rw [hdefault] at hentry
      change (0 : Int) = _ at hentry
      omega
    · obtain ⟨p, hp, hrev, -⟩ := hreported.stored _ hmem (by omega)
      have hbound := hseq.bounded p (hreported.applied p hp)
      rw [currentRevision_of_none hnone] at hbound
      omega
  rw [if_pos hunmoved] at hmoves
  have hnames := hstaged.stored.names _ hunmoved
  have hnodup : (s.stored.status.sites.map (·.name)).Nodup := hnames ▸ hseq.names
  refine ⟨hunmoved, ?_⟩
  rw [allSitesApplied, Bool.and_eq_true, all_eq_true]
  refine ⟨?_, fun entry hentry => ?_⟩
  · rcases hlist : s.stored.status.sites with _ | ⟨entry, rest⟩
    · have hname := mem_map_of_mem (f := (·.name)) hsite
      rw [← hnames, hlist] at hname
      cases hname
    · rfl
  · have hname : entry.name ∈ s.stored.spec.sites.map (·.name) :=
      hnames ▸ mem_map_of_mem hentry
    obtain ⟨site', hsite', hsame⟩ := mem_map.mp hname
    have hrev := hentries site' hsite'
    rw [hsame, previousSiteStatus_of_mem hnodup hentry, hmoves] at hrev
    exact decide_eq_true hrev

end HubState

/-! ## What a true condition stands for -/

namespace Evidenced

variable {w v : Evidenced} {uid : String} {config : HubConfig}

theorem ObservedEverywhere.mono {phase : RestorePhase} (h : w.ObservedEverywhere uid phase)
    (hsites : v.hub.stored.spec.sites = w.hub.stored.spec.sites)
    (hreports : ∀ report ∈ (w.provenance w.hub.stored).reports,
      report ∈ (v.provenance v.hub.stored).reports)
    (hwritten : ∀ p ∈ w.hub.written, p ∈ v.hub.written) : v.ObservedEverywhere uid phase := by
  intro site hsite hdata
  obtain ⟨report, hreport, hname, p, hp, hplan⟩ := h site (hsites ▸ hsite) hdata
  exact ⟨report, hreports report hreport, hname, p, hwritten p hp, hplan⟩

theorem reports_mono (w : Evidenced) (e : HubEvent) :
    ∀ report ∈ (w.provenance w.hub.stored).reports, report ∈ (w.nextProvenance e).reports := by
  intro report hreport
  cases e with
  | message registration now message =>
    unfold nextProvenance
    dsimp only
    split
    · exact mem_cons_of_mem _ hreport
    · exact hreport
  | backupResult registration parseTime result =>
    unfold nextProvenance
    dsimp only
    split <;> exact hreport
  | _ => exact hreport

structure Grounded (w : Evidenced) (uid : String) (status : MultiSitePostgresStatus) : Prop where
  ready : conditionTrue status.conditions "Ready" = true →
    w.hub.AppliedEverywhere uid .verify
  topology : ∀ f, status.planFingerprint = .sum f → f.restorePhase = .active .replicas →
    conditionTrue status.conditions "TopologyReady" = true → w.ObservedEverywhere uid .replicas
  distinct : (status.conditions.map (·.type)).Nodup

theorem Grounded.mono {status : MultiSitePostgresStatus} (h : w.Grounded uid status)
    (hsites : v.hub.stored.spec.sites = w.hub.stored.spec.sites)
    (happlied : ∀ p ∈ w.hub.applied, p ∈ v.hub.applied)
    (hwritten : ∀ p ∈ w.hub.written, p ∈ v.hub.written)
    (hreports : ∀ report ∈ (w.provenance w.hub.stored).reports,
      report ∈ (v.provenance v.hub.stored).reports) : v.Grounded uid status where
  ready htrue := (h.ready htrue).mono hsites happlied
  topology f hf hphase htrue := (h.topology f hf hphase htrue).mono hsites hreports hwritten
  distinct := h.distinct

theorem Grounded.lower {status status' : MultiSitePostgresStatus} (h : w.Grounded uid status)
    (hprint : ∀ f, status'.planFingerprint = .sum f → status.planFingerprint = .sum f)
    (hlowered : ∀ type ∈ acceptanceConditions,
      Condition.Lowered type status.conditions status'.conditions)
    (hdistinct : (status'.conditions.map (·.type)).Nodup) : w.Grounded uid status' where
  ready htrue := h.ready ((hlowered "Ready" (by decide)).isTrue htrue)
  topology f hf hphase htrue := h.topology f (hprint f hf) hphase
    ((hlowered "TopologyReady" (by decide)).isTrue htrue)
  distinct := hdistinct

theorem mem_reports_of_under {p : Provenance} {site : String} {revision : Int}
    (h : revision ∈ p.under site) : (site, revision) ∈ p.reports := by
  obtain ⟨report, hfound, rfl⟩ := Option.map_eq_some_iff.mp h
  have hname : report.1 = site := by simpa using find?_some hfound
  rw [← hname]
  exact mem_of_find?_eq_some hfound

/-- As many observations as there are data sites, all of them made by data sites under plans
of phase `Replicas`, are one from each data site. -/
theorem observedEverywhere_of_settled {prepared : MultiSitePostgres} (hstaged : w.hub.Staged uid)
    (hnames : (w.hub.stored.spec.sites.map (·.name)).Nodup)
    (hdel : w.hub.stored.deleting = false) (hfin : w.hub.stored.finalizer = true)
    (hprepare : prepare reads w.hub.stored = .ok (prepared, inputs))
    (hobs : Observed w.hub.stored prepared)
    (hphase : w.hub.stored.annotations.restorePhase = .active .replicas)
    (hupgrade : w.hub.stored.annotations.upgradePhase = .absent)
    (hexpired : w.Expired w.hub.stored now fun p => p.site.role = .data ∧
      PlansRestore uid .replicas p)
    (hcount : (currentObservations (recordSites (withRevision prepared inputs) (siteStatusFor
      (withRevision prepared inputs))) now).length =
      requiredObservations (recordSites (withRevision prepared inputs) (siteStatusFor (withRevision
      prepared inputs)))) :
    w.ObservedEverywhere uid .replicas := by
  have hspec : (withRevision prepared inputs).spec = w.hub.stored.spec := by
    rw [withRevision_spec, spec_of_core hobs.core]
  have hann : (withRevision prepared inputs).annotations = w.hub.stored.annotations := by
    rw [withRevision_eq]
    show prepared.annotations = _
    exact annotations_of_core hobs.core
  obtain ⟨recorded, hrecorded⟩ : ∃ recorded, recorded = recordSites (withRevision prepared inputs)
    (siteStatusFor (withRevision prepared inputs)) := ⟨_, rfl⟩
  have hcounted : countedSites reads w.hub.stored now =
      some ((currentObservations recorded now).map (·.name)) := by
    rw [countedSites, if_neg (by simp [hdel, hfin]), hprepare, hrecorded]
    rfl
  rw [← hrecorded] at hcount
  have hrequired : requiredObservations recorded =
      ((w.hub.stored.spec.sites.filter (·.role = .data)).map (·.name)).length := by
    rw [requiredObservations, if_neg, length_map]
    · rw [hrecorded]
      show ((withRevision prepared inputs).spec.sites.filter _).length = _
      rw [hspec]
    · rw [hrecorded]
      show ¬ ((withRevision prepared inputs).annotations.restorePhase = _ ∨
        (withRevision prepared inputs).annotations.upgradePhase = _)
      rw [hann, hphase, hupgrade]
      simp
  have hnodup : ((currentObservations recorded now).map (·.name)).Nodup := by
    have hentries : (recorded.status.sites.map (·.name)).Nodup := by
      rw [hrecorded]
      show (((withRevision prepared inputs).spec.sites.map
        (siteStatusFor (withRevision prepared inputs))).map (·.name)).Nodup
      rw [hspec, map_map]
      exact hnames
    exact (filter_sublist.map _).nodup hentries
  have hreport : ∀ site ∈ (currentObservations recorded now).map (·.name),
      ∃ revision, (site, revision) ∈ (w.provenance w.hub.stored).reports ∧
        ReportedUnder w.hub (fun p => p.site.role = .data ∧ PlansRestore uid .replicas p) site
          revision := by
    intro site hsite
    obtain ⟨entry, hentry, rfl, hobserves⟩ := observes_of_counted hcounted hsite
    obtain ⟨revision, hunder, hreported⟩ := hexpired entry hentry hobserves
    exact ⟨revision, mem_reports_of_under hunder, hreported⟩
  have hsub : (currentObservations recorded now).map (·.name) ⊆
      (w.hub.stored.spec.sites.filter (·.role = .data)).map (·.name) := by
    intro site hsite
    obtain ⟨-, -, p, hp, -, rfl, hdata, -⟩ := hreport site hsite
    exact mem_map_of_mem (mem_filter.mpr ⟨hstaged.sites p hp, decide_eq_true hdata⟩)
  have hlength : ((w.hub.stored.spec.sites.filter (·.role = .data)).map (·.name)).length ≤
      ((currentObservations recorded now).map (·.name)).length := by
    rw [← hrequired, length_map]
    exact hcount.ge
  have hperm := (hnodup.subperm hsub).perm_of_length_le hlength
  intro site hsite hdata
  have hmem : site.name ∈ (currentObservations recorded now).map (·.name) :=
    hperm.mem_iff.mpr (mem_map_of_mem
      (mem_filter.mpr ⟨hsite, decide_eq_true hdata⟩))
  obtain ⟨revision, hin, p, hp, hrev, hname, -, hplan⟩ := hreport _ hmem
  exact ⟨_, hin, rfl, p, hp, hrev, hname, hplan⟩

structure Standing (w : Evidenced) (uid : String) : Prop where
  stored : w.Grounded uid w.hub.stored.status
  pending : ∀ d, w.hub.pending = some d → w.Grounded uid d
  /-- The status write removes no condition. -/
  kept : ∀ d, w.hub.pending = some d → ∀ type ∈ acceptanceConditions,
    Condition.find? d.conditions type = none →
      Condition.find? w.hub.stored.status.conditions type = none

theorem Standing.initial (h : Created config w.hub) : Standing w uid where
  stored := by
    refine ⟨fun htrue => ?_, fun f hf => ?_, ?_⟩
    · rw [h.conditions] at htrue
      cases htrue
    · rw [h.planFingerprint] at hf
      cases hf
    · rw [h.conditions]
      exact nodup_nil
  pending d hd := by rw [h.pending] at hd; cases hd
  kept d hd := by rw [h.pending] at hd; cases hd

/-- The hub with everything that is known of its plans. -/
structure Planned (w : Evidenced) (uid : String) : Prop extends booked : w.hub.Booked where
  staged : w.hub.Staged uid

/-- What is known of the phases of the target and of the restore that its plans carry out. -/
structure Directed (w : Evidenced) (uid : String) : Prop where
  completed : w.hub.stored.annotations.restorePhase = .completed →
    w.hub.AppliedEverywhere uid .verify
  phase : w.hub.stored.annotations.restorePhase = .completed ∨
    ∃ phase, w.hub.stored.annotations.restorePhase = .active phase
  upgradePhase : w.hub.stored.annotations.upgradePhase = .absent

theorem acceptance_of_bystander (he : HubState.isReconcile e = false)
    (hplain : e.ordinary = true ∨ e.annotates = true) (hcalm : Restoring.calm uid w e)
    (hst : w.hub.step config e = some t) :
    ((w.hub.stored.status.conditions.map (·.type)).Nodup →
        (t.stored.status.conditions.map (·.type)).Nodup) ∧
      ∀ type ∈ acceptanceConditions, Condition.find? t.stored.status.conditions type =
        Condition.find? w.hub.stored.status.conditions type := by
  cases HubState.step_case hst with
  | @backupResult registration parseTime result recorded hrecords =>
    rw [← Option.some.inj hst]
    obtain ⟨updates, hupdates, htypes⟩ := recordInstanceDirectiveResult_conditions parseTime
      registration result w.hub.stored
    show (_ → ((recordInstanceDirectiveResult _ _ _ _).status.conditions.map _).Nodup) ∧
      ∀ type ∈ acceptanceConditions,
        Condition.find? (recordInstanceDirectiveResult _ _ _ _).status.conditions type = _
    rw [hupdates]
    refine ⟨Condition.nodup_foldl_set, fun type htype => ?_⟩
    refine Condition.find?_foldl_set_of_ne fun c hc hsame => ?_
    rw [← hsame] at htype
    rcases htypes c hc with hserver | hreported
    · have hother : ∀ type ∈ serverConditions, type ∉ acceptanceConditions := by decide
      exact hother _ hserver htype
    · obtain ⟨c', hc', hc'type⟩ := mem_map.mp hreported
      exact hcalm c' hc' (hc'type ▸ htype)
  | issue | commit | abandon => cases he
  | upgrade | upgradeBackupSucceeded | upgradeBackupFailed | createUpgrade | deleteUpgrade =>
    rcases hplain with hplain | hplain <;> cases hplain
  | _ => exact ⟨id, fun _ _ => rfl⟩

/-- A true condition of the status that an uninterrupted reconcile is about to write. -/
theorem grounded_of_reconcile {config : BackupConfig} {directives : List DirectiveMap}
    {fails : String → Bool} {d : MultiSitePostgresStatus} (h : Standing w uid)
    (hplanned : Planned w uid) (hnone : w.hub.pending = none)
    (hcontract : w.hub.Contracted uid reads) (hdirected : Directed w uid)
    (hexpired : w.hub.stored.annotations.restorePhase = .active .replicas →
      w.Expired w.hub.stored now fun p => p.site.role = .data ∧ PlansRestore uid .replicas p)
    (hd : (reconcile config reads directives fails now w.hub.stored).status = some d) :
    w.Grounded uid d ∧ ∀ type ∈ acceptanceConditions,
      Condition.find? d.conditions type = none →
        Condition.find? w.hub.stored.status.conditions type = none := by
  have hdistinct : (d.conditions.map (·.type)).Nodup := by
    cases reconcile_statusCase hd with
    | early _ conditions | scheduled _ _ _ conditions => exact conditions.distinct h.stored.distinct
    | invalid _ _ distinct => exact distinct h.stored.distinct
  cases reconcile_conditionsCase hd with
  | lowered conditions plans =>
    refine ⟨h.stored.lower (fun f hf => ?_) conditions hdistinct,
      fun type htype => (conditions type htype).absent⟩
    rcases plans with hkeeps | hdel
    · exact hkeeps.planFingerprint.symm.trans hf
    · cases hdel.symm.trans hf
  | @settled prepared inputs n deleting finalizer hprepare observed planInputs records conditions =>
    obtain ⟨⟨ready, hready, hsettled⟩, topology, htopology, hcount⟩ :=
      settle_find (withRevision prepared inputs) inputs now
    have hfoundReady := (conditions "Ready" (by decide)).trans hready
    have hfoundTopology := (conditions "TopologyReady" (by decide)).trans htopology
    refine ⟨⟨fun htrue => ?_, fun f hf hf' htrue => ?_, hdistinct⟩, fun type htype hnot => ?_⟩
    · rw [conditionTrue, Condition.isTrue, hfoundReady] at htrue
      obtain ⟨hverify, happlied⟩ := hsettled (of_decide_eq_true htrue)
      rcases hdirected.phase with hphase | ⟨phase, hphase⟩
      · exact hdirected.completed hphase
      obtain ⟨hunmoved, hentries⟩ := HubState.entries_of_ready hplanned.reported hplanned.staged
        hplanned.sequenced hnone observed happlied
      obtain ⟨r, hr, -, hrphase⟩ := hcontract prepared inputs n phase observed planInputs hphase
      have hverified : phase = .verify := hrphase.symm.trans (hverify r hr)
      exact HubState.appliedEverywhere_of_entries hplanned.reported hplanned.entered
        hplanned.staged hunmoved (hverified ▸ hphase) hentries
    · rw [records.planFingerprint, planFingerprint_of_observed observed] at hf
      have hreplicas : w.hub.stored.annotations.restorePhase = .active .replicas := by
        rw [← hf', ← PlanFingerprint.sum.inj hf]
        rfl
      rw [conditionTrue, Condition.isTrue, hfoundTopology] at htrue
      exact observedEverywhere_of_settled hplanned.staged hplanned.sequenced.names deleting
        finalizer hprepare observed hreplicas hdirected.upgradePhase (hexpired hreplicas)
        (hcount (of_decide_eq_true htrue))
    · rcases mem_cons.mp htype with rfl | htype
      · cases hfoundTopology.symm.trans hnot
      · rw [mem_singleton.mp htype] at hnot
        cases hfoundReady.symm.trans hnot

theorem find?_merged {current desired : MultiSitePostgresStatus} {type : String}
    (hdistinct : (desired.conditions.map (·.type)).Nodup)
    (hkept : Condition.find? desired.conditions type = none →
      Condition.find? current.conditions type = none) :
    Condition.find? (mergeReconciledStatus current desired).conditions type =
      Condition.find? desired.conditions type := by
  show Condition.find? (desired.conditions.foldl Condition.set current.conditions) type = _
  rw [Condition.find?_foldl_set hdistinct]
  rcases hfound : Condition.find? desired.conditions type with _ | c
  · exact hkept hfound
  · rfl

theorem Standing.step (h : Standing w uid) (hplanned : Planned w uid)
    (hseq : HubState.sequential config w.hub e) (hcalm : Restoring.calm uid w e)
    (hplain : e.ordinary = true ∨ e.annotates = true)
    (hsites : v.hub.stored.spec.sites = w.hub.stored.spec.sites)
    (hcontract : w.hub.ContractedIn uid e) (hdirected : Directed w uid)
    (hst : w.step config e = some v) : Standing v uid := by
  have hhub := step_hub hst
  have hcase := HubState.step_case hhub
  have hreports : ∀ report ∈ (w.provenance w.hub.stored).reports,
      report ∈ (v.provenance v.hub.stored).reports := by
    rw [step_provenance hst]
    exact reports_mono w e
  by_cases he : HubState.isReconcile e = false
  · obtain ⟨-, happlied, -⟩ := hcase.entries he
    obtain ⟨hpend, hwritten, hstand⟩ := hcase.plansStand he
    obtain ⟨hdistinct, hfound⟩ := acceptance_of_bystander he hplain hcalm hhub
    have hkept : ∀ {status}, w.Grounded uid status → v.Grounded uid status := fun hg =>
      hg.mono hsites happlied (fun p hp => hwritten ▸ hp) hreports
    refine ⟨hkept ?_, fun d hd => hkept (h.pending d (hpend ▸ hd)), fun d hd type htype hnot => ?_⟩
    · exact h.stored.lower (fun f hf => hstand.planFingerprint.symm.trans hf)
        (fun type htype => .inl (hfound type htype)) (hdistinct h.stored.distinct)
    · rw [hfound type htype]
      exact h.kept d (hpend ▸ hd) type htype hnot
  · obtain ⟨hub, -, rfl⟩ := Option.map_eq_some_iff.mp hst
    cases hcase with
    | @issue view reads fails now writes hview hnone =>
      have hissue := hseq.issueSpec
      obtain ⟨rfl, -⟩ := hseq
      have hstatus := (w.hub.applyOutcome_status w.hub.stored
        (w.hub.outcome config w.hub.stored reads fails now) writes).1
      have hkept : ∀ {status}, w.Grounded uid status → _ := fun hg =>
        hg.mono hsites (fun p hp => hissue.applied ▸ hp) hissue.kept hreports
      have hnew := fun d hd => grounded_of_reconcile h hplanned hnone (hcontract _ _ _ _ _ rfl)
        hdirected hcalm (d := d) (hissue.pending.symm.trans hd)
      refine ⟨hkept (hstatus ▸ h.stored), fun d hd => hkept (hnew d hd).1,
        fun d hd type htype hnot => ?_⟩
      show Condition.find? (w.hub.applyOutcome ..).stored.status.conditions type = none
      rw [hstatus]
      exact (hnew d hd).2 type htype hnot
    | @commit desired hdesired =>
      have hd := h.pending desired hdesired
      have hmerged : w.Grounded uid (mergeReconciledStatus w.hub.stored.status desired) :=
        hd.lower (fun _ => id) (fun type htype =>
          .inl (find?_merged hd.distinct (h.kept desired hdesired type htype)))
          (Condition.nodup_foldl_set h.stored.distinct)
      exact ⟨hmerged.mono rfl (fun _ => id) (fun _ => id) hreports, (fun d hd => nomatch hd),
        (fun d hd => nomatch hd)⟩
    | abandon =>
      exact ⟨h.stored.mono rfl (fun _ => id) (fun _ => id) hreports, (fun d hd => nomatch hd),
        (fun d hd => nomatch hd)⟩
    | _ => exact absurd rfl he

end Evidenced

/-! ## Whole runs -/

namespace Restoring

theorem calm.sites {config : HubConfig} {uid : String} {w : Evidenced} (h : calm uid w e)
    (hst : w.hub.step config e = some t) :
    t.stored.spec.sites = w.hub.stored.spec.sites := by
  have hcase := HubState.step_case hst
  by_cases hedit : ∃ spec, e = .edit spec
  · obtain ⟨spec, rfl⟩ := hedit
    cases hcase with
    | edit => exact h
  · exact hcase.specSites fun spec heq => hedit ⟨spec, heq⟩

/-- An instance reconcile of the target reads the restore that owns it. -/
theorem Marked.contracted (h : Marked w) {event : HubEvent} {view : MultiSitePostgres}
    {fails : String → Bool} {writes : Nat}
    (hevent : event.reading w.restore = .issue view reads fails now writes) :
    w.hub.Contracted w.restore.uid (w.hub.readsOf reads) := by
  have hrestores : reads.restores = [w.restore] := by
    cases event with
    | issue =>
      cases hevent
      rfl
    | _ => cases hevent
  intro prepared inputs n phase hobs hinputs hphase
  have hann := annotations_of_core hobs.core
  exact restorePlan_phase (planInputs_ok hinputs).1 (hann ▸ h.name) h.named hrestores
    (hann ▸ hphase)

structure Guided (w : Restoring) : Prop where
  marked : Marked w
  planned : w.target.Planned w.restore.uid
  standing : w.target.Standing w.restore.uid
  completed : w.phase = .completed → w.hub.AppliedEverywhere w.restore.uid .verify

theorem Guided.initial (h : Initial config w) :
    Guided w where
  marked := .initial h
  planned := ⟨.initial h.created.toInitial, .initial h.created.toInitial⟩
  standing := .initial h.created
  completed hphase := nomatch h.phase.symm.trans hphase

theorem Guided.target {config : HubConfig} {v : Evidenced} (h : Guided w)
    (hseq : HubState.sequential config w.hub e) (hcalm : calm w.restore.uid w.target e)
    (hplain : e.ordinary = true ∨ e.annotates = true)
    (hcontract : w.hub.ContractedIn w.restore.uid e)
    (hst : w.target.step config e = some v) :
    v.Planned w.restore.uid ∧ v.Standing w.restore.uid ∧
      ∀ phase, w.hub.AppliedEverywhere w.restore.uid phase →
        v.hub.AppliedEverywhere w.restore.uid phase := by
  have hhub := Evidenced.step_hub hst
  have hsites := hcalm.sites hhub
  refine ⟨⟨h.planned.booked.step hseq hhub,
    h.planned.staged.step h.planned.sequenced hseq hsites hcontract hhub⟩,
    h.standing.step h.planned hseq hcalm hplain hsites hcontract
      ⟨h.completed, h.marked.phase, h.marked.upgradePhase⟩ hst,
    fun phase happlied => happlied.mono hsites ?_⟩
  have hcase := HubState.step_case hhub
  by_cases he : HubState.isReconcile e = false
  · exact (hcase.entries he).2.1
  generalize v.hub = t at hcase
  cases hcase with
  | issue =>
    exact fun p hp => (congrArg (p ∈ ·) hseq.issueSpec.applied).mpr hp
  | commit | abandon => exact fun _ => id
  | _ => exact absurd rfl he

theorem Guided.step {e : RestoringEvent} (h : Guided w) (hok : orderly config w e)
    (hst : w.step config e = some v) : Guided v := by
  have hmarked := h.marked.step hst
  cases step_case h.marked.deleting hst with
  | @hub event target ordinary step =>
    obtain ⟨hseq, hcalm⟩ := hok
    have hordinary := (HubEvent.reading_ordinary w.restore event).trans ordinary
    obtain ⟨hplanned, hstanding, happlied⟩ := h.target hseq hcalm (.inl hordinary)
      (fun _ _ _ _ _ hevent => h.marked.contracted hevent) step
    have hsame := annotations_of_ordinary ordinary step
    exact ⟨hmarked, hplanned, hstanding, fun hphase => happlied .verify (h.completed
      ((congrArg (·.restorePhase) hsame).symm.trans hphase))⟩
  | unchanged target restore =>
    obtain ⟨huid, -⟩ := restore
    refine ⟨hmarked, ?_, ?_, fun hphase => ?_⟩
    · rw [target, huid]
      exact h.planned
    · rw [target, huid]
      exact h.standing
    rw [Restoring.phase, Restoring.hub, target] at hphase
    rw [Restoring.hub, target, huid]
    exact h.completed hphase
  | @advanced view _ _ _ _ phase advance step restore =>
    obtain ⟨rfl, -⟩ := hok
    obtain ⟨huid, -⟩ := restore
    have hseq : HubState.sequential config.hub w.hub
      (.annotate { w.hub.stored.annotations with restorePhase := phase }) := trivial
    obtain ⟨hplanned, hstanding, happlied⟩ :=
      h.target hseq trivial (.inr rfl) (fun _ _ _ _ _ hevent => nomatch hevent) step
    refine ⟨hmarked, huid ▸ hplanned, huid ▸ hstanding, fun hphase => ?_⟩
    rw [huid]
    refine happlied .verify ?_
    cases advance with
    | completed _ ready => exact h.standing.stored.ready ready
    | replicas | verify =>
      rw [Restoring.phase, annotations_of_advance step] at hphase
      cases hphase

open Machine

theorem InOrder.of_phase (h : v.phase = w.phase) : InOrder w v :=
  ⟨fun hv hw => absurd (h.symm.trans hv) hw, fun hv hw => absurd (h.symm.trans hv) hw⟩

/-- In every run in which the steps are orderly, the target is exposed in order. -/
theorem inOrder_of_reach {config : OperationsConfig} {w v : Restoring} {e : RestoringEvent}
    (h : Reach (step config) (Initial config) (orderly config) w)
    (hok : orderly config w e) (hst : w.step config e = some v) : InOrder w v := by
  have hguided : Guided w := h.invariant (fun _ => .initial) fun _ _ _ hinv hok hst =>
    hinv.step hok hst
  cases step_case hguided.marked.deleting hst with
  | @hub event target ordinary step =>
    exact .of_phase (congrArg (·.restorePhase) (annotations_of_ordinary ordinary step))
  | unchanged target => exact .of_phase (by rw [Restoring.phase, Restoring.hub, target]; rfl)
  | @advanced view _ _ _ _ phase advance step restore =>
    obtain ⟨rfl, happlied⟩ := hok
    have hphase : v.phase = phase := by rw [Restoring.phase, annotations_of_advance step]
    rw [InOrder, hphase]
    cases advance with
    | replicas => exact ⟨nofun, nofun⟩
    | verify recorded topology =>
      refine ⟨fun _ _ => ?_, nofun⟩
      have happlied := happlied recorded
      unfold replicasApplied at happlied
      split at happlied
      · rename_i f hf
        exact ⟨HubState.appliedEverywhere_of_entries hguided.planned.reported
          hguided.planned.entered hguided.planned.staged hf happlied.1 happlied.2,
          hguided.standing.stored.topology f hf happlied.1 topology⟩
      · exact absurd happlied id
    | completed recorded ready =>
      exact ⟨(fun hv => nomatch hv), fun _ _ => hguided.standing.stored.ready ready⟩

/-! ## Runs -/

open Sample

def source : MultiSitePostgres := { orders with
  status := { orders.status with
    recoveryWindowStart := some 0
    restoreDrillLastVerifiedAt := some 0
    conditions := [reported "Ready" "", reported "RecoveryWindowAvailable" ""] } }

def pitr : PostgresRestore where
  name := "ledger-pitr"
  namespaceName := "database-platform"
  uid := "ledger-pitr-uid"
  finalizer := true
  sourceInstanceRef := "orders"
  targetInstanceRef := "ledger"
  targetTime := 0

def ledgerTarget : MultiSitePostgres := { ledger with
  annotations := {
    restoreUID := pitr.uid
    restoreName := pitr.name
    restoreSourceUID := source.uid
    restorePhase := .active .seed }
  spec := { ledger.spec with
    backup := none
    postgres := { ledger.spec.postgres with synchronousStandbyCount := 0 } } }

def seeding : Restoring where
  target := { hub := created ledgerTarget, seen := [(ledgerTarget, {})] }
  restore := pitr

def operations : OperationsConfig where
  hub := Sample.hub
  restores := { labelProblems := fun _ => [], formatTime := fun _ => "" }

theorem seeding_initial : Initial operations seeding where
  created := { Sample.created_initial (by decide +kernel) rfl rfl with conditions := rfl }
  seen := rfl
  restoreUID := rfl
  restoreName := rfl
  named := by decide
  phase := rfl
  upgradePhase := rfl
  deleting := rfl

def after (ok : Restoring → RestoringEvent → Prop) [∀ w e, Decidable (ok w e)]
    (script : List (Restoring → RestoringEvent)) : Restoring :=
  reached (step operations) ok seeding script

def onTarget (script : List (HubState → HubEvent)) : List (Restoring → RestoringEvent) :=
  script.map fun event w => .hub (event w.hub)

def targetReconciledAt (now : Time) : List (HubState → HubEvent) :=
  [fun s => .issue s.stored { Sample.reads with instances := [source] } (fun _ => false) now
      s.stored.spec.sites.length,
    commit]

def primaryFrom (site : String) (now : Time) (s : HubState) : HubEvent :=
  .message site now (.progress {
    instanceUID := s.stored.uid
    revision := s.stored.status.activeRevision
    phase := "Applying"
    primary := topology.1
    synchronousStandbys := [] })

def restored (now : Time) (w : Restoring) : RestoringEvent :=
  .restore w.hub.stored { source := .ok source, target := .notFound } now 3

def seeded : List (Restoring → RestoringEvent) :=
  onTarget (targetReconciledAt 0 ++ appliedEverywhere ++
    [primaryFrom "production-vic" 0] ++ targetReconciledAt 0) ++ [restored 0]

def VerifiesNext (w : Restoring) : Prop :=
  w.phase = .active .replicas ∧ (w.step operations (restored 0 w)).any
    (fun v => decide (v.phase = .active .verify)) = true
deriving Decidable

/-- `Replicas` was just recorded, and no plan of the phase was written. -/
def hasty : Restoring := after anyStep seeded

def Hasty (w : Restoring) : Prop :=
  VerifiesNext w ∧ ¬ w.hub.AppliedEverywhere w.restore.uid .replicas
deriving Decidable

theorem hasty_reach : Reach (step operations) (Initial operations) anyStep hasty ∧ Hasty hasty := by
  unfold hasty after
  exact played (P := Hasty) seeding_initial (by decide +kernel)

theorem Hasty.not_inOrder (h : Hasty w) :
    ∃ v, w.step operations (restored 0 w) = some v ∧ ¬ InOrder w v := by
  obtain ⟨⟨hphase, hnext⟩, happlied⟩ := h
  obtain ⟨v, hv, hverify⟩ := (Option.any_eq_true _ _).mp hnext
  refine ⟨v, hv, fun hordered => happlied (hordered.1 (of_decide_eq_true hverify) ?_).1⟩
  rw [hphase]
  exact fun hsame => nomatch hsame

/-- The topology of phase `Seed` is taken for that of phase `Replicas`. -/
theorem hasty_not_inOrder :
    Reach (step operations) (Initial operations) anyStep hasty ∧
      ∃ v, hasty.step operations (restored 0 hasty) = some v ∧ ¬ InOrder hasty v :=
  ⟨hasty_reach.1, hasty_reach.2.not_inOrder⟩

/-- The plans of phase `Replicas` are made when the observations of phase `Seed` have
expired; they are applied, and both data sites report under them. -/
def unhasty : Restoring :=
  after (orderly operations) (seeded ++ onTarget (targetReconciledAt (3 * minute) ++
    appliedEverywhere ++ [primaryFrom "production-vic" (3 * minute),
      primaryFrom "production-nsw" (3 * minute)] ++ targetReconciledAt (3 * minute)))

/-- `Verify` comes next, in an orderly step. -/
def Unhasty (w : Restoring) : Prop :=
  VerifiesNext w ∧ orderly operations w (restored 0 w)

instance : DecidablePred Unhasty := fun _ => inferInstanceAs (Decidable (_ ∧ _))

theorem unhasty_reach :
    Reach (step operations) (Initial operations) (orderly operations) unhasty ∧
      Unhasty unhasty := by
  unfold unhasty after
  exact played (P := Unhasty) seeding_initial (by decide +kernel)

theorem unhasty_inOrder :
    ∃ v, unhasty.step operations (restored 0 unhasty) = some v ∧
      v.phase = .active .verify ∧ InOrder unhasty v := by
  obtain ⟨v, hv, hverify⟩ := (Option.any_eq_true _ _).mp unhasty_reach.2.1.2
  exact ⟨v, hv, of_decide_eq_true hverify, inOrder_of_reach unhasty_reach.1 unhasty_reach.2.2 hv⟩

end Restoring

end Mspsql
