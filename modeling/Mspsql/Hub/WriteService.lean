import Mspsql.Agent.Render
import Mspsql.Hub.Rollback

/-!
# Writes during a major upgrade

Once the write service of the target version is restored there is no way back, the
specification moves to the target version exactly then, and until then Pgpool is stopped.
All of this rests on the upgrade controller seeing what it wrote last: a controller whose
reads merely never go back in time can write phases out of order.
-/

namespace Mspsql

open List

variable {phase : MajorUpgradePhase} {s t : HubState} {config : HubConfig} {e : HubEvent}

def MajorUpgradePhase.beforeWrites : MajorUpgradePhase → Bool
  | .drain | .stop | .snapshot | .upgradePrimary | .stanzaUpgrade | .startPrimary | .replicas
  | .rollback | .rollbackStart => true
  | _ => false

/-- The phases in which the target version may have accepted writes. -/
def MajorUpgradePhase.committed : MajorUpgradePhase → Bool
  | .restoreWrites | .finalize => true
  | _ => false

theorem MajorUpgradePhase.not_committed_of_next {next : MajorUpgradePhase}
    (h : phase.next = some next) : phase.committed = false := by
  cases phase <;> first | rfl | cases h

theorem MajorUpgradePhase.not_committed_of_rollsBack (h : phase.rollsBack = true) :
    phase.committed = false := by
  cases phase <;> first | rfl | cases h

theorem MajorUpgradePhase.not_committed_of_rollingBack (h : phase.rollingBack = true) :
    phase.committed = false := by
  cases phase <;> first | rfl | cases h

/-! ## Pgpool -/

def SitePlan.StopsPgpool (p : SitePlan) : Prop :=
  ∀ (r : Renderer) (addresses candidates : StringMap) (objects : List SiteObject),
    r.workloads (p.withAddresses addresses candidates) = .ok objects →
      ∀ object ∈ objects, object.kind = .deployment → object.replicas = 0

section Pgpool

variable {r : Renderer} {p : SitePlan} {objects : List SiteObject}

theorem workloads_stopped (hstopped : p.majorWriteServiceStopped = true)
    (h : r.workloads p = .ok objects) :
    ∀ object ∈ objects, object.kind = .deployment → object.replicas = 0 := by
  intro object hmem hkind
  cases (Renderer.workloads_spec h).case object hmem with
  | plain hother =>
    rw [hkind] at hother
    simp at hother
  | etcd | postgres => cases hkind
  | pgpool => exact if_pos hstopped

end Pgpool

theorem stopsPgpool_of_phase {p : SitePlan} {upgrade : MajorUpgradePlan}
    (hupgrade : p.majorUpgrade = some upgrade) (hphase : upgrade.phase.beforeWrites = true) :
    p.StopsPgpool := by
  intro r addresses candidates objects h
  have hstopped : (p.withAddresses addresses candidates).majorWriteServiceStopped = true := by
    have hsame : (p.withAddresses addresses candidates).majorUpgrade = some upgrade := hupgrade
    unfold SitePlan.majorWriteServiceStopped
    rw [hsame]
    dsimp only
    revert hphase
    cases upgrade.phase <;> first | exact fun _ => rfl | exact nofun
  exact workloads_stopped hstopped h

theorem plans_stopPgpool {view : MultiSitePostgres} (hname : view.annotations.upgradeName ≠ "")
    (hrecorded : view.annotations.upgradePhase = .major phase) (hphase : phase.beforeWrites = true)
    (config : BackupConfig) (reads : HubReads) (directives : List DirectiveMap)
    (fails : String → Bool) (now : Time) :
    ∀ p ∈ (reconcile config reads directives fails now view).plans, p.deletion = none →
      p.StopsPgpool := by
  intro p hp hkept
  have hcase := reconcile_case config reads directives fails now view
  cases hcase with
  | quiet plans =>
    rw [plans] at hp
    cases hp
  | deletion deleting revised hrevised plans =>
    rw [plans] at hp
    obtain ⟨site, -, registration, -, rfl, -⟩ := signedPlans_mem hp
    cases hkept
  | issued prepared inputs n deleting prepare observed planInputs plans =>
    rw [plans] at hp
    obtain ⟨site, -, registration, -, rfl, -⟩ := signedPlans_mem hp
    have hplans := (planInputs_ok planInputs).2
    have hann := MultiSitePostgres.annotations_of_core observed.core
    rw [← hann] at hname hrecorded
    rcases hu : reads.upgrade? prepared.annotations.upgradeName with _ | u
    · unfold upgradePlans at hplans
      rw [if_neg hname, hu] at hplans
      cases hplans
    · have hcarries := upgradePlans_carriesStep hplans hname hu
        (p := sitePlan (withRevision prepared inputs) inputs now registration site) rfl rfl
      rw [hrecorded] at hcarries
      obtain ⟨upgrade, hupgrade, -, hsame⟩ := hcarries
      exact stopsPgpool_of_phase hupgrade (hsame ▸ hphase)

/-! ## The order of versions -/

def MultiSitePostgres.inPhase (i : MultiSitePostgres) (uid : String) (phase : MajorUpgradePhase) :
    Prop :=
  i.annotations.upgradeUID = uid ∧ i.annotations.upgradePhase = .major phase
deriving Decidable

/-- A version in a phase before the writes of an upgrade comes after versions of that upgrade
in such phases only, and `spec.postgres` has not changed between them. -/
def Uncommitted (newer older : MultiSitePostgres) : Prop :=
  ∀ phase, newer.annotations.upgradeUID ≠ "" →
    newer.inPhase older.annotations.upgradeUID phase → phase.committed = false →
      ∃ earlier, older.annotations.upgradePhase = .major earlier ∧ earlier.committed = false ∧
        newer.spec.postgres = older.spec.postgres

/-- A change of `spec.postgres` is the step of an upgrade to its final phase. -/
def ChangesWhenFinal (newer older : MultiSitePostgres) : Prop :=
  newer.spec.postgres ≠ older.spec.postgres →
    newer.annotations.upgradeUID = older.annotations.upgradeUID ∧
      (older.annotations.upgradePhase = .major .restoreWrites ∧
          newer.annotations.upgradePhase = .major .finalize ∨
        older.annotations.upgradePhase = .minor .member ∧
          newer.annotations.upgradePhase = .minor .finalize)

theorem Uncommitted.trans {a b c : MultiSitePostgres} (hab : Uncommitted a b)
    (hbc : Uncommitted b c) (huid : a.annotations.upgradeUID = b.annotations.upgradeUID) :
    Uncommitted a c := by
  intro phase hheld hin hphase
  obtain ⟨middle, hmiddle, hopen, hpg⟩ := hab phase hheld ⟨huid, hin.2⟩ hphase
  obtain ⟨earlier, hearlier, hopen', hpostgres'⟩ :=
    hbc middle (huid ▸ hheld) ⟨huid.symm.trans hin.1, hmiddle⟩ hopen
  exact ⟨earlier, hearlier, hopen', hpg.trans hpostgres'⟩

theorem uncommitted_of_same {newer older : MultiSitePostgres}
    (hpart : newer.annotations.upgradePart = older.annotations.upgradePart)
    (hpg : newer.spec.postgres = older.spec.postgres) : Uncommitted newer older := by
  intro phase _ hin hphase
  exact ⟨phase, (sameUpgrade hpart).phase.symm.trans hin.2, hphase, hpg⟩

theorem patchInstance_postgres {base modified : MultiSitePostgres}
    (h : modified.spec = base.spec) (current : MultiSitePostgres) :
    (patchInstance base modified current).spec.postgres = current.spec.postgres := by
  unfold patchInstance patchField
  rw [h, if_pos rfl, if_pos rfl]

namespace HubState

theorem uncommitted_of_moved {u : PostgresUpgrade} {view : MultiSitePostgres} {name : String}
    (h : Moved u view name s t) (huid : u.uid ≠ "")
    (hok : view.annotations.upgradePart = s.stored.annotations.upgradePart) :
    Uncommitted t.stored s.stored ∧ ChangesWhenFinal t.stored s.stored := by
  obtain ⟨howner, -, hphase, -, -⟩ := sameUpgrade hok
  have hstays : t.stored.spec.postgres = s.stored.spec.postgres →
      ChangesWhenFinal t.stored s.stored := fun heq hne => absurd heq hne
  have hcleared : t.stored = patchInstance view (clearUpgradeAnnotations view) s.stored →
      Uncommitted t.stored s.stored ∧ ChangesWhenFinal t.stored s.stored := by
    intro hstored
    have hfree := (patched hstored hok).uid
    refine ⟨fun phase hheld => absurd hfree hheld, hstays ?_⟩
    rw [hstored]
    exact patchInstance_postgres rfl _
  cases h with
  | none stored =>
    rw [stored]
    exact ⟨uncommitted_of_same rfl rfl, fun hne => absurd rfl hne⟩
  | finish _ _ _ _ stored => exact hcleared stored
  | @move kind modified hmove stored =>
    obtain ⟨hnewuid, -, hnew, -, -⟩ := patched stored hok
    have hkeeps : modified.spec = view.spec → t.stored.spec.postgres = s.stored.spec.postgres := by
      intro hspec
      rw [stored]
      exact patchInstance_postgres hspec _
    -- the owner goes on from a phase before the writes
    have hgoes : ∀ {phase}, modified.spec = view.spec →
        view.annotations.upgradePhase = .major phase → phase.committed = false →
          Uncommitted t.stored s.stored ∧ ChangesWhenFinal t.stored s.stored := by
      intro phase hspec hrecorded hopen
      refine ⟨fun _ _ _ _ => ⟨phase, hphase.symm.trans hrecorded, hopen, hkeeps hspec⟩,
        hstays (hkeeps hspec)⟩
    -- a phase of a minor upgrade, or one after the writes
    have hother : (∀ phase, modified.annotations.upgradePhase = .major phase →
        phase.committed = true) → Uncommitted t.stored s.stored := by
      intro hmodified phase _ hin hopen
      rw [hmodified phase (hnew.symm.trans hin.2)] at hopen
      cases hopen
    have hclaimed : modified.spec = view.spec → modified.annotations.upgradeUID = u.uid →
        view.annotations.upgradeUID = "" →
          Uncommitted t.stored s.stored ∧ ChangesWhenFinal t.stored s.stored := by
      intro hspec hclaim hfree
      refine ⟨fun phase hheld hin => absurd ?_ huid, hstays (hkeeps hspec)⟩
      exact hclaim.symm.trans (hnewuid.symm.trans (hin.1.trans (howner.symm.trans hfree)))
    cases hmove with
    | claimMajor _ free | claimMinor _ free => exact hclaimed rfl rfl free
    | advance _ _ recorded follows =>
      exact hgoes rfl recorded (MajorUpgradePhase.not_committed_of_next follows)
    | rollBack _ recorded rollsBack =>
      exact hgoes rfl recorded (MajorUpgradePhase.not_committed_of_rollsBack rollsBack)
    | finalizeMajor _ _ recorded =>
      refine ⟨hother fun phase h => ?_, fun _ => ⟨?_, .inl ⟨?_, hnew⟩⟩⟩
      · cases h
        rfl
      · exact hnewuid.trans howner
      · exact hphase.symm.trans recorded
    | finalizeMinor _ _ recorded =>
      refine ⟨hother fun phase h => (by cases h), fun _ => ⟨?_, .inr ⟨?_, hnew⟩⟩⟩
      · exact hnewuid.trans howner
      · exact hphase.symm.trans recorded
    | switching | switchedOver =>
      exact ⟨hother fun phase h => (by cases h), hstays (hkeeps rfl)⟩
    | nextMember _ _ recorded =>
      refine ⟨hother fun phase h => ?_, hstays (hkeeps rfl)⟩
      cases recorded.symm.trans h
    | release | abandon => exact hcleared stored

structure Ordered (s : HubState) : Prop where
  owned : Owned s
  pairs : s.versions.Pairwise Uncommitted
  chain : s.versions.IsChain ChangesWhenFinal

/-- Nobody but the upgrade controller edits `spec.postgres`, and nobody force-abandons. -/
def undisturbed (s : HubState) : HubEvent → Prop
  | .edit spec => spec.postgres = s.stored.spec.postgres
  | .deleteUpgrade _ forceAbandon => forceAbandon = false
  | _ => True

instance (s : HubState) : Decidable (undisturbed s e) := by
  unfold undisturbed
  cases_type HubEvent <;> infer_instance

theorem StepCase.uncommitted (h : StepCase config s e t) (howned : Owned s)
    (hinformed : informed s e) (hok : undisturbed s e) :
    Uncommitted t.stored s.stored ∧ ChangesWhenFinal t.stored s.stored := by
  have hpart := h.upgradePart
  have hpg := fun he => (h.spec he).elim (congrArg (·.postgres)) fun hedit => by
    rw [hedit] at hok
    exact hok
  cases h with
  | @upgrade name view reads now writes u hu =>
    exact uncommitted_of_moved upgrade_moved (howned.uid_ne (mem_of_find?_eq_some hu)) hinformed
  | _ =>
    have hpart := hpart fun _ _ _ _ _ h => by cases h
    have hpg := hpg fun _ _ _ _ _ h => by cases h
    exact ⟨uncommitted_of_same hpart hpg, fun hne => absurd hpg hne⟩

theorem Ordered.step (h : Ordered s) (hinformed : informed s e) (hok : undisturbed s e)
    (hcase : StepCase config s e t) :
    Ordered t := by
  obtain ⟨huncommitted, hchanges⟩ := hcase.uncommitted h.owned hinformed hok
  suffices hkept : t.versions.Pairwise Uncommitted ∧ t.versions.IsChain ChangesWhenFinal from
    ⟨h.owned.step hinformed hcase, hkept.1, hkept.2⟩
  rcases hcase.versions with ⟨-, hvers⟩ | hvers
  · rw [hvers]
    exact ⟨h.pairs, h.chain⟩
  obtain ⟨rest, hrest⟩ := h.owned.newest
  have hpairs := h.pairs
  have hchain := h.chain
  rw [hvers]
  constructor
  · refine pairwise_cons.mpr ⟨fun v hv => ?_, hpairs⟩
    rw [hrest] at hv hpairs
    have hbefore : v ≠ s.stored → Uncommitted s.stored v := fun hne =>
      (pairwise_cons.mp hpairs).1 v ((mem_cons.mp hv).resolve_left hne)
    by_cases hstored : v = s.stored
    · exact hstored ▸ huncommitted
    rcases h.owned.owner hinformed hcase with ⟨huid, -⟩ | ⟨hfree, u, hu, hrun, huid, -⟩ | ⟨hfree, -⟩
    · exact huncommitted.trans (hbefore hstored) huid
    · -- an upgrade that is not done and does not own the instance has never owned it
      intro phase hheld hin
      have hvuid := hin.1.symm.trans huid
      have howner := h.owned.unfinished u hu hrun.1 hrun.2.1 v (hrest ▸ hv) hvuid
      exact absurd (howner.symm.trans hfree) (h.owned.uid_ne hu)
    · exact fun phase hheld => absurd hfree hheld
  · rw [hrest] at hchain ⊢
    exact isChain_cons_cons.mpr ⟨hchanges, hchain⟩

end HubState

/-! ## Reads that never go back in time -/

/-- The hub, and how far the upgrade controller has read the versions of the instance. -/
structure Watch where
  hub : HubState
  seen : Nat := 0
deriving DecidableEq

namespace Watch

/-- One step of the hub; an upgrade reconcile reads the version at the given position, which
is not before the last one read. -/
def step (config : HubConfig) (w : Watch) (e : Nat × HubEvent) : Option Watch :=
  match e.2 with
  | .upgrade _ view _ _ _ =>
    if w.seen ≤ e.1 ∧ w.hub.versions.reverse[e.1]? = some view then
      (w.hub.step config e.2).map fun hub => ⟨hub, e.1⟩
    else none
  | _ => (w.hub.step config e.2).map fun hub => ⟨hub, w.seen⟩

theorem step_hub {w v : Watch} {e : Nat × HubEvent} (h : w.step config e = some v) :
    w.hub.step config e.2 = some v.hub := by
  have hmap : ∀ seen, (w.hub.step config e.2).map (fun hub => Watch.mk hub seen) = some v →
      w.hub.step config e.2 = some v.hub := by
    intro seen hseen
    obtain ⟨hub, hhub, rfl⟩ := Option.map_eq_some_iff.mp hseen
    exact hhub
  unfold step at h
  split at h
  · split at h
    · exact hmap _ h
    · cases h
  · exact hmap _ h

/-- Nobody else edits the upgrade annotations or `spec.postgres`, and nobody force-abandons. -/
def undisturbed (w : Watch) (e : Nat × HubEvent) : Prop := w.hub.undisturbed e.2

instance (w : Watch) (e : Nat × HubEvent) : Decidable (undisturbed w e) :=
  inferInstanceAs (Decidable (HubState.undisturbed _ _))

/-- Besides, the upgrade controller reads the annotations of upgrades as they are stored. -/
def attentive (w : Watch) (e : Nat × HubEvent) : Prop :=
  w.undisturbed e ∧ w.hub.informed e.2

instance (w : Watch) (e : Nat × HubEvent) : Decidable (attentive w e) :=
  inferInstanceAs (Decidable (_ ∧ _))

def Initial (config : HubConfig) (w : Watch) : Prop :=
  HubState.Initial config w.hub ∧ w.seen = 0

structure NoWayBack (s : HubState) : Prop where
  /-- Once an upgrade has recorded that writes are restored it records no rollback phase. -/
  rollback : s.versions.Pairwise fun newer older => ∀ uid phase, uid ≠ "" →
    older.inPhase uid .restoreWrites → newer.inPhase uid phase → phase.rollingBack = false
  /-- `spec.postgres` changes only with the step to the final phase. -/
  changes : s.versions.IsChain ChangesWhenFinal
  /-- An upgrade that rolls back has left `spec.postgres` as it was. -/
  restored : s.versions.Pairwise fun newer older => ∀ uid phase, uid ≠ "" →
    older.annotations.upgradeUID = uid → newer.inPhase uid phase → phase.rollingBack = true →
      newer.spec.postgres = older.spec.postgres
  /-- Every plan of a phase between preflight and writes stops Pgpool. -/
  pgpool : ∀ view ∈ s.versions, ∀ uid phase, uid ≠ "" → view.inPhase uid phase →
    phase.beforeWrites = true → ∀ config reads directives fails now,
      ∀ p ∈ (reconcile config reads directives fails now view).plans, p.deletion = none →
        p.StopsPgpool

theorem noWayBack_of_ordered (h : HubState.Ordered s) : NoWayBack s where
  rollback := by
    refine h.pairs.imp fun {newer older} huncommitted uid phase huid holder hnewer => ?_
    by_contra hrolling
    have hopen := MajorUpgradePhase.not_committed_of_rollingBack (Bool.not_eq_false _ ▸ hrolling)
    obtain ⟨earlier, hearlier, hbefore, -⟩ :=
      huncommitted phase (hnewer.1 ▸ huid) ⟨hnewer.1.trans holder.1.symm, hnewer.2⟩ hopen
    rw [holder.2, UpgradePhaseValue.major.injEq] at hearlier
    rw [← hearlier] at hbefore
    cases hbefore
  changes := h.chain
  restored := by
    refine h.pairs.imp fun {newer older} huncommitted uid phase huid holder hnewer hrolling => ?_
    obtain ⟨-, -, -, hpg⟩ :=
      huncommitted phase (hnewer.1 ▸ huid) ⟨hnewer.1.trans holder.symm, hnewer.2⟩
        (MajorUpgradePhase.not_committed_of_rollingBack hrolling)
    exact hpg
  pgpool := by
    intro view hview uid phase huid hin hphase config reads directives fails now
    have hname : view.annotations.upgradeName ≠ "" := by
      rcases h.owned.owners view hview with hfree | ⟨-, hname⟩
      · exact absurd (hin.1.symm.trans hfree) huid
      · exact hname
    exact plans_stopPgpool hname hin.2 hphase config reads directives fails now

open Machine

/-- In every run in which the upgrade controller sees the annotations it wrote last. -/
theorem noWayBack_of_reach {config : HubConfig} {w : Watch}
    (h : Reach (step config) (Initial config) attentive w) : NoWayBack w.hub := by
  refine noWayBack_of_ordered (h.invariant (I := fun w => HubState.Ordered w.hub) ?_ ?_)
  · rintro w ⟨hinit, -⟩
    refine ⟨.initial hinit, ?_, ?_⟩
    · rw [hinit.versions]
      exact pairwise_singleton _ _
    · rw [hinit.versions]
      exact isChain_singleton _
  · rintro w e v hordered ⟨hok, hinformed⟩ hst
    exact hordered.step hinformed hok (HubState.step_case (step_hub hst))

/-! ## A controller that lags behind -/

def blockedFrom (status : ConditionStatus) (reason : String) (s : HubState) : HubEvent :=
  .message "production-vic" 0 (.progress {
    instanceUID := s.stored.uid
    revision := s.stored.status.activeRevision
    phase := "Applying"
    conditions := [
      { type := "MajorUpgradeBlocked", status := status, reason := reason, message := "" }] })

def current (event : HubState → HubEvent) (w : Watch) : Nat × HubEvent :=
  (w.hub.versions.length - 1, event w.hub)

open Sample

def lagging (lag : Nat) (w : Watch) : Nat × HubEvent :=
  (w.hub.versions.length - 1 - lag,
    .upgrade ledgerUpgrade.name (w.hub.versions.getD lag w.hub.stored) Sample.reads 0 2)

def phaseApplied : List (HubState → HubEvent) :=
  [upgradeStep, reconcileWith Sample.reads, Sample.commit] ++ appliedEverywhere

def after (ok : Watch → Nat × HubEvent → Prop) [∀ w e, Decidable (ok w e)]
    (script : List (Watch → Nat × HubEvent)) : Watch :=
  reached (step Sample.hub) ok ⟨Sample.created ledger, 0⟩ script

/-- The upgrade of `ledger` has restored the writes and is in its last phase. -/
def finalized : Watch :=
  after attentive ((upgradeRequested ++ (List.replicate 10 phaseApplied).flatten).map current)

def Finalized (w : Watch) : Prop :=
  w.hub.stored.inPhase ledgerUpgrade.uid .finalize ∧
    ∃ i ∈ w.hub.versions, i.inPhase ledgerUpgrade.uid .restoreWrites
deriving Decidable

theorem finalized_reach :
    Reach (step Sample.hub) (Initial Sample.hub) attentive finalized ∧ Finalized finalized := by
  unfold finalized after
  exact played (P := Finalized) ⟨Sample.ledger_initial, rfl⟩ (by decide +kernel)

theorem finalized_noWayBack : Finalized finalized ∧ NoWayBack finalized.hub :=
  ⟨finalized_reach.2, noWayBack_of_reach finalized_reach.1⟩

/-- The upgrade goes as far as the start of the primary, where a failure is reported.  The
controller reads the version before that report and goes on to the replicas; only then it
reads the report and starts a rollback, while the replicas are applied everywhere.  Reading
on, it restores the writes, and then takes the rollback a phase further. -/
def overtaken : Watch :=
  after undisturbed ((upgradeRequested ++ (List.replicate 7 phaseApplied).flatten ++
        [blockedFrom .true "PrimaryAcceptanceFailed"]).map current ++
      lagging 1 :: ([reconcileWith Sample.reads, Sample.commit] ++
        appliedEverywhere ++ [blockedFrom .false "PhaseAccepted"]).map current ++
      [lagging 6, lagging 1, lagging 1])

def WritesUndone (w : Watch) : Prop :=
  ∃ newer ∈ w.hub.versions.head?, ∃ older ∈ w.hub.versions.tail.head?,
    newer.inPhase ledgerUpgrade.uid .rollbackStart ∧ older.inPhase ledgerUpgrade.uid .restoreWrites
deriving Decidable

theorem overtaken_reach : Reach (step Sample.hub) (Initial Sample.hub) undisturbed overtaken ∧
      WritesUndone overtaken := by
  unfold overtaken after
  exact played (P := WritesUndone) ⟨Sample.ledger_initial, rfl⟩ (by decide +kernel)

theorem not_noWayBack_of_writesUndone {w : Watch} (h : WritesUndone w) : ¬ NoWayBack w.hub := by
  obtain ⟨newer, hnewer, older, holder, hphase, hwrites⟩ := h
  intro hno
  have hrollback := hno.rollback
  rw [← cons_head?_tail hnewer] at hrollback
  have hnever := (pairwise_cons.mp hrollback).1 older (mem_of_mem_head? holder) _ _
    (by decide) hwrites hphase
  cases hnever

theorem overtaken_rolls_back : Reach (step Sample.hub) (Initial Sample.hub) undisturbed overtaken ∧
      ¬ NoWayBack overtaken.hub :=
  ⟨overtaken_reach.1, not_noWayBack_of_writesUndone overtaken_reach.2⟩

end Watch

end Mspsql
