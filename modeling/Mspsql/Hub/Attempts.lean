import Mspsql.Hub.Ownership

/-!
# Attempts of the post-upgrade backup

A post-upgrade backup that fails is tried again under a new operation UID, five times at
most.  `PostUpgradeBackupReady` and the attempt counter are kept on the upgrade; the server
records a result there when it finds a directive of that operation.  An agent replays its stored
results after every reconnect, so the failure of an earlier attempt is recorded against the
current one and consumes a retry of it (`replayed_dependent`).

The machine adds to the hub the results of the backups of upgrades.  `reporter` and `changes`
record which result is behind a change.
-/

namespace Mspsql

open List

variable {u v : PostgresUpgrade} {config : HubConfig} {next s : HubState} {e : HubEvent}
  {w : Attempts}

/-- The condition `recordUpgradeBackupResult` sets on the upgrade. -/
def upgradeBackupCondition (generation : Nat) (map : DirectiveMap) (result : PlanResult) :
    Condition :=
  let post := map.upgradeBackupPhase = "post-upgrade"
  if directiveSucceeded result.conditions then {
    type := if post then "PostUpgradeBackupReady" else "FreshBackupReady"
    status := .true
    observedGeneration := generation
    reason := "BackupVerified"
    message := if post then
        "pgBackRest completed the post-upgrade full backup and verified archived WAL"
      else "pgBackRest completed a fresh full backup and verified archived WAL" }
  else {
    type := if post then "PostUpgradeBackupReady" else "FreshBackupReady"
    status := .false
    observedGeneration := generation
    reason := "BackupFailed"
    message := "The required full backup or WAL verification failed" }

def currentOperation (upgrade : PostgresUpgrade) : String :=
  postUpgradeBackupUID upgrade upgrade.status.postUpgradeBackupAttempt

/-! ## What the controller does to the attempts -/

inductive BackupMove (old new : PostgresUpgradeStatus) : Prop where
  | kept (condition : new.backupCondition = old.backupCondition)
      (attempt : new.postUpgradeBackupAttempt = old.postUpgradeBackupAttempt)
  | waits (unreported : new.reported = false)
      (attempt : new.postUpgradeBackupAttempt = old.postUpgradeBackupAttempt)
  | retry (failed : old.reported = true) (unreported : new.reported = false)

theorem reconcileUpgrade_backupMove {reads : HubReads} {view : MultiSitePostgres} {now : Time}
    {directives : List DirectiveMap} {status : PostgresUpgradeStatus}
    (h : .setStatus status ∈ reconcileUpgrade reads u (some view) now directives) :
    BackupMove u.status status := by
  have hreported := (reconcileUpgrade_case reads u view now directives).reported
  generalize reconcileUpgrade reads u (some view) now directives = writes at h hreported
  cases hreported with
  | normal hwrites =>
    cases hwrites _ h with
    | other h => cases h
    | ready _ _ backup | freshRequested _ _ backup => exact .kept backup.1 backup.2
    | requested _ _ unreported attempt | gaveUp _ _ unreported attempt =>
      exact .waits unreported attempt
    | retry failed unreported _ => exact .retry failed unreported
  | @conflict conditions message _ _ backup =>
    cases mem_singleton.mp h
    refine .kept (Eq.trans ?_ backup) rfl
    refine find?_setCondition_ne ?_ ..
    decide

/-! ## The machine -/

/-- The condition or the counter of an upgrade was changed. -/
structure BackupChange where
  /-- The operation whose result is behind it. -/
  cause : Option String
  /-- The operation of the attempt that was current. -/
  current : String
deriving DecidableEq, Repr

structure Attempts where
  hub : HubState
  /-- The operation whose result last changed the condition, by the UID of the upgrade. -/
  reporter : SortedMap String String := ∅
  changes : List BackupChange := []
deriving DecidableEq

inductive AttemptEvent where
  | hub (event : HubEvent)
  /-- A result of a backup, on the stream of a site. -/
  | result (parseTime : String → Option Time) (result : PlanResult)

namespace Attempts

def possible : HubEvent → Bool
  | .upgradeBackupResult .. => false
  | .createUpgrade u => u.status = {}
  | _ => true

def resolve (s : HubState) (result : PlanResult) : Option (DirectiveMap × PostgresUpgrade) :=
  (s.directives.find? (·.operationUID = result.operationUID)).bind fun map =>
    if map.ownerKind = .postgresUpgrade ∧ map.type = "Backup" then
      (s.upgrade? map.ownerName).map (map, ·)
    else none

def counters (u : PostgresUpgrade) : Option Condition × Nat :=
  (u.status.backupCondition, u.status.postUpgradeBackupAttempt)

/-- Record a change that a result makes. -/
def credit (w : Attempts) (u : PostgresUpgrade) (operation : String) (next : HubState) : Attempts :=
  if (next.upgrade? u.name).any (counters · ≠ counters u) then
    { hub := next
      reporter := w.reporter.insert u.uid operation
      changes := ⟨some operation, currentOperation u⟩ :: w.changes }
  else { w with hub := next }

/-- Record a new attempt: the result behind it is the one that was reported. -/
def retried (w : Attempts) (event : HubEvent) (next : HubState) : Attempts :=
  match event with
  | .upgrade name .. =>
    match w.hub.upgrade? name, next.upgrade? name with
    | some u, some v =>
      if v.status.postUpgradeBackupAttempt ≠ u.status.postUpgradeBackupAttempt then
        { w with
          hub := next
          changes := ⟨w.reporter.get? u.uid, currentOperation u⟩ :: w.changes }
      else { w with hub := next }
    | _, _ => { w with hub := next }
  | _ => { w with hub := next }

def step (config : HubConfig) (w : Attempts) : AttemptEvent → Option Attempts
  | .hub event => if possible event then (w.hub.step config event).map (w.retried event) else none
  | .result parseTime result =>
    match resolve w.hub result with
    | some (map, u) =>
      (w.hub.step config (.upgradeBackupResult u.name
        (upgradeBackupCondition u.generation map result) parseTime result)).map
        (w.credit u result.operationUID)
    | none => some w

def Initial (config : HubConfig) (w : Attempts) : Prop :=
  HubState.Initial config w.hub ∧ w.changes = []

def punctual (w : Attempts) : AttemptEvent → Prop
  | .hub _ => True
  | .result _ result => ∀ found ∈ resolve w.hub result,
    found.1.upgradeBackupPhase = "post-upgrade" →
      result.operationUID = currentOperation found.2 ∨
        found.2.status.backupCondition =
          some (upgradeBackupCondition found.2.generation found.1 result)

instance (w : Attempts) (e : AttemptEvent) : Decidable (punctual w e) := by
  unfold punctual
  split <;> infer_instance

@[mk_iff] structure Independent (w : Attempts) : Prop where
  /-- What changes the condition or the counter is a result of the current attempt. -/
  changes : ∀ c ∈ w.changes, c.cause = some c.current
  /-- What is recorded was reported by the current attempt. -/
  reported : ∀ u ∈ w.hub.upgrades, u.status.reported = true →
    w.reporter.get? u.uid = some (currentOperation u)

instance (w : Attempts) : Decidable (Independent w) := decidable_of_iff _ (independent_iff w).symm

/-! ## Steps -/

theorem backup_origin {t : HubState} (h : HubState.StepCase config s e t)
    (hkeyed : HubState.Keyed s) (hpossible : possible e = true) (hv : v ∈ t.upgrades) :
    (∃ u ∈ s.upgrades, v.uid = u.uid ∧ v.name = u.name ∧ BackupMove u.status v.status) ∨
      e = .createUpgrade v ∧ v.status = {} := by
  cases h.origin hv with
  | same mem | deleted mem => exact .inl ⟨_, mem, rfl, rfl, .kept rfl rfl⟩
  | written found mem request status =>
    refine .inl ⟨_, mem, request.1, request.2.1, ?_⟩
    rcases status with hsame | ⟨hname, hset⟩
    · rw [hsame]
      exact .kept rfl rfl
    · obtain rfl := HubState.eq_of_upgrade? hkeyed.names found mem hname
      exact reconcileUpgrade_backupMove hset
  | marked => cases hpossible
  | created => exact .inr ⟨rfl, of_decide_eq_true hpossible⟩

theorem retried_hub (w : Attempts) (e : HubEvent) (next : HubState) :
    (w.retried e next).hub = next ∧ (w.retried e next).reporter = w.reporter := by
  unfold retried
  split
  · split
    · split <;> exact ⟨rfl, rfl⟩
    · exact ⟨rfl, rfl⟩
  · exact ⟨rfl, rfl⟩

/-- Upgrades are told apart by name and UID, and attempts are independent. -/
structure Attributed (w : Attempts) : Prop extends Independent w where
  keyed : HubState.Keyed w.hub

theorem currentOperation_congr (huid : v.uid = u.uid)
    (hattempt : v.status.postUpgradeBackupAttempt = u.status.postUpgradeBackupAttempt) :
    currentOperation v = currentOperation u := by
  unfold currentOperation postUpgradeBackupUID
  rw [huid, hattempt]

theorem reported_congr {a b : PostgresUpgradeStatus} (h : a.backupCondition = b.backupCondition) :
    a.reported = b.reported := by
  unfold PostgresUpgradeStatus.reported
  rw [h]

theorem retried_changes (h : Attributed w) (hpossible : possible e = true)
    (hcase : HubState.StepCase config w.hub e next) :
    ∀ c ∈ (w.retried e next).changes, c.cause = some c.current := by
  unfold retried
  split
  · rename_i name _ _ _ _
    split
    · rename_i v hu hv
      split
      · rename_i hattempt
        refine forall_mem_cons.mpr ⟨?_, h.changes⟩
        have hvmem : v ∈ next.upgrades := mem_of_find?_eq_some hv
        have hvname : v.name = name := by simpa using find?_some hv
        rcases backup_origin hcase h.keyed hpossible hvmem with
          ⟨u', hu', -, hname, hmove⟩ | ⟨hnew, -⟩
        · obtain rfl := HubState.eq_of_upgrade? h.keyed.names hu hu' (hname.symm.trans hvname)
          cases hmove with
          | kept _ hsame | waits _ hsame => exact absurd hsame hattempt
          | retry hfailed _ => exact h.reported u' hu' hfailed
        · cases hnew
      · exact h.changes
    · exact h.changes
  · exact h.changes

theorem Attributed.hub (h : Attributed w) (hpossible : possible e = true)
    (hcase : HubState.StepCase config w.hub e next) : Attributed (w.retried e next) := by
  obtain ⟨hhub, hreporter⟩ := w.retried_hub e next
  refine ⟨⟨retried_changes h hpossible hcase, fun v hv hreported => ?_⟩, ?_⟩
  · rw [hhub] at hv
    rw [hreporter]
    rcases backup_origin hcase h.keyed hpossible hv with ⟨u, hu, huid, -, hmove⟩ | ⟨-, hnew⟩
    · cases hmove with
      | kept hcond hattempt =>
        rw [huid, currentOperation_congr huid hattempt]
        exact h.reported u hu (reported_congr hcond ▸ hreported)
      | waits hunreported _ | retry _ hunreported => rw [hunreported] at hreported; cases hreported
    · rw [hnew] at hreported
      cases hreported
  · rw [hhub]
    exact h.keyed.step hcase

def marked (u : PostgresUpgrade) (condition : Condition) : PostgresUpgrade :=
  { u with status := { u.status with
    conditions := Condition.set u.status.conditions condition } }

theorem backupCondition_marked (u : PostgresUpgrade) (generation : Nat) (map : DirectiveMap)
    (result : PlanResult) :
    (marked u (upgradeBackupCondition generation map result)).status.backupCondition =
      if map.upgradeBackupPhase = "post-upgrade" then
        some (upgradeBackupCondition generation map result)
      else u.status.backupCondition := by
  have htype : (upgradeBackupCondition generation map result).type =
      if map.upgradeBackupPhase = "post-upgrade" then "PostUpgradeBackupReady"
      else "FreshBackupReady" := by
    unfold upgradeBackupCondition
    dsimp only
    split <;> rfl
  unfold PostgresUpgradeStatus.backupCondition marked
  rw [Condition.find?_set, htype]
  by_cases hpost : map.upgradeBackupPhase = "post-upgrade"
  · rw [if_pos hpost, if_pos hpost, if_pos rfl]
  · rw [if_neg hpost, if_neg hpost, if_neg (by decide)]

theorem recorded_origin {t : HubState} {condition : Condition} {parseTime : String → Option Time}
    {result : PlanResult} (hkeyed : HubState.Keyed s) (hu : s.upgrade? u.name = some u)
    (hst : s.step config (.upgradeBackupResult u.name condition parseTime result) = some t)
    (hv : v ∈ t.upgrades) :
    v = marked u condition ∨ v ∈ s.upgrades ∧ v.name ≠ u.name := by
  have hmarked : v ∈ (s.markUpgrade u.name condition).upgrades := by
    cases HubState.step_case hst with
    | upgradeBackupSucceeded | upgradeBackupFailed => exact hv
  obtain ⟨v', hv', ⟨rfl, hname⟩ | ⟨rfl, hname⟩⟩ := HubState.mem_updateUpgrade hmarked
  · obtain rfl := HubState.eq_of_upgrade? hkeyed.names hu hv' hname
    exact .inl rfl
  · exact .inr ⟨hv', hname⟩

theorem resolve_upgrade {result : PlanResult} {map : DirectiveMap}
    (h : resolve s result = some (map, u)) : s.upgrade? u.name = some u := by
  obtain ⟨map', -, h⟩ := Option.bind_eq_some_iff.mp h
  split at h
  · obtain ⟨u', hu', heq⟩ := Option.map_eq_some_iff.mp h
    obtain ⟨rfl, rfl⟩ := Prod.mk.inj heq
    have hname : u'.name = map'.ownerName := by simpa using find?_some hu'
    rw [hname]
    exact hu'
  · cases h

theorem Attributed.result {parseTime : String → Option Time} {result : PlanResult}
    {map : DirectiveMap} (h : Attributed w) (hfound : resolve w.hub result = some (map, u))
    (hok : map.upgradeBackupPhase = "post-upgrade" → result.operationUID = currentOperation u ∨
      u.status.backupCondition = some (upgradeBackupCondition u.generation map result))
    (hst : w.hub.step config (.upgradeBackupResult u.name (upgradeBackupCondition u.generation map
      result) parseTime result) = some next) :
    Attributed (w.credit u result.operationUID next) := by
  have hu := resolve_upgrade hfound
  have humem : u ∈ w.hub.upgrades := mem_of_find?_eq_some hu
  have hkeyed := h.keyed.step (HubState.step_case hst)
  have horigin := fun v => recorded_origin (v := v) h.keyed hu hst
  have hcondition := backupCondition_marked u u.generation map result
  unfold credit
  split
  · rename_i hchanged
    -- the condition was changed, so the result is one of the current attempt
    have hcur : result.operationUID = currentOperation u := by
      obtain ⟨v, hv, hne⟩ := (Option.any_eq_true _ _).mp hchanged
      have hne : counters v ≠ counters u := by simpa using hne
      rcases horigin v (mem_of_find?_eq_some hv) with rfl | ⟨-, hname⟩
      · by_cases hpost : map.upgradeBackupPhase = "post-upgrade"
        · rw [if_pos hpost] at hcondition
          refine (hok hpost).resolve_right fun hsame => hne ?_
          exact Prod.ext (hcondition.trans hsame.symm) rfl
        · rw [if_neg hpost] at hcondition
          exact (hne (Prod.ext hcondition rfl)).elim
      · exact absurd (by simpa using find?_some hv) hname
    refine ⟨⟨forall_mem_cons.mpr ⟨congrArg some hcur, h.changes⟩, ?_⟩, hkeyed⟩
    intro v hv hreported
    rw [SortedMap.get?_insert]
    rcases horigin v hv with rfl | ⟨hv, hname⟩
    · show (if u.uid = u.uid then some result.operationUID else _) = some (currentOperation u)
      rw [if_pos rfl, hcur]
    have huid : u.uid ≠ v.uid := fun huid => hname (h.keyed.eq_of_uid hv humem huid.symm ▸ rfl)
    rw [if_neg huid]
    exact h.reported v hv hreported
  · rename_i hsame
    refine ⟨⟨h.changes, fun v hv hreported => ?_⟩, hkeyed⟩
    rcases horigin v hv with hmarked | ⟨hv, -⟩
    · have hfind : next.upgrade? u.name = some v := by
        have hnames := hkeyed.names
        rw [HubState.upgradeKeys, map_map] at hnames
        have hname : u.name = v.name := by rw [hmarked]; rfl
        rw [hname]
        exact Lists.find?_of_nodup hnames hv
      have hcounters : counters v = counters u := by
        rw [hfind] at hsame
        simpa using hsame
      obtain ⟨hcond, hattempt⟩ := Prod.mk.inj hcounters
      have huid : v.uid = u.uid := by rw [hmarked]; rfl
      rw [huid, currentOperation_congr huid hattempt]
      exact h.reported u humem (reported_congr hcond ▸ hreported)
    · exact h.reported v hv hreported

theorem Attributed.step {v : Attempts} {e : AttemptEvent} (h : Attributed w) (hok : punctual w e)
    (hst : Attempts.step config w e = some v) :
    Attributed v := by
  cases e with
  | hub event =>
    simp only [Attempts.step] at hst
    split at hst
    · rename_i hpossible
      obtain ⟨next, hnext, rfl⟩ := Option.map_eq_some_iff.mp hst
      exact h.hub hpossible (HubState.step_case hnext)
    · cases hst
  | result parseTime result =>
    simp only [Attempts.step] at hst
    split at hst
    · rename_i map u hfound
      obtain ⟨next, hnext, rfl⟩ := Option.map_eq_some_iff.mp hst
      exact h.result hfound (hok (map, u) hfound) hnext
    · cases hst
      exact h

open Machine

/-- When results arrive only while their attempt is current, attempts are independent. -/
theorem independent_of_reach {config : HubConfig} {w : Attempts}
    (h : Reach (Attempts.step config) (Initial config) punctual w) : Independent w := by
  have hinv : Attributed w := by
    refine h.invariant ?_ fun _ _ _ hw hok hst => hw.step hok hst
    rintro w ⟨hinit, hchanges⟩
    refine ⟨⟨?_, ?_⟩, .initial hinit⟩
    · rw [hchanges]
      exact nofun
    · rw [hinit.upgrades]
      exact fun u hu => by cases hu
  exact hinv.toIndependent

/-! ## A replayed failure -/

open Sample

def after (ok : Attempts → AttemptEvent → Prop) [∀ w e, Decidable (ok w e)]
    (script : List (Attempts → AttemptEvent)) : Attempts :=
  reached (step Sample.hub) ok { hub := created ledger } script

def hubEvents (events : List (HubState → HubEvent)) : List (Attempts → AttemptEvent) :=
  events.map fun event w => .hub (event w.hub)

def backupOf (operation : String) (status : ConditionStatus) (w : Attempts) : AttemptEvent :=
  .result (fun _ => some 0) {
    instanceUID := w.hub.stored.uid
    appliedRevision := 0
    operationUID := operation
    conditions := [{ reported "Succeeded" "" with status := status }] }

def laterStep (s : HubState) : HubEvent :=
  .upgrade ledgerUpgrade.name s.stored reads (60 * minute) 2

def phaseApplied : List (HubState → HubEvent) :=
  upgradeStep :: reconciledWith ++ appliedEverywhere

def requested : List (Attempts → AttemptEvent) :=
  hubEvents (rollOut reads ++ [evidence] ++ reconciledWith ++
      (fun _ => .createUpgrade ledgerUpgrade) :: List.replicate 3 upgradeStep) ++
    backupOf "ledger-18-uid-preflight-backup" .true ::
    hubEvents ((List.replicate 10 phaseApplied).flatten ++ List.replicate 2 upgradeStep)

def retryRequested : List (Attempts → AttemptEvent) :=
  requested ++ backupOf "ledger-18-uid-post-upgrade-backup-0" .false ::
    hubEvents (upgradeStep :: List.replicate 2 laterStep)

/-- The agent reconnects and replays the failure of the first attempt. -/
def replayed : Attempts :=
  after anyStep (retryRequested ++ [backupOf "ledger-18-uid-post-upgrade-backup-0" .false])

theorem replayed_dependent :
    Reach (step Sample.hub) (Initial Sample.hub) anyStep replayed ∧
      ¬ Independent replayed := by
  unfold replayed after
  exact played (P := fun w : Attempts => ¬ Independent w) ⟨ledger_initial, rfl⟩ (by decide +kernel)

def succeeded : Attempts :=
  after punctual (retryRequested ++ [backupOf "ledger-18-uid-post-upgrade-backup-1" .true])

/-- Three changes: a failure, the retry it causes, and a success. -/
def Changed (w : Attempts) : Prop := w.changes.length = 3
deriving Decidable

theorem succeeded_reach :
    Reach (step Sample.hub) (Initial Sample.hub) punctual succeeded ∧ Changed succeeded := by
  unfold succeeded after
  exact played (P := Changed) ⟨ledger_initial, rfl⟩ (by decide +kernel)

theorem succeeded_independent : Changed succeeded ∧ Independent succeeded :=
  ⟨succeeded_reach.2, independent_of_reach succeeded_reach.1⟩

end Attempts

end Mspsql
