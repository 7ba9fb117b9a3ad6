import Mspsql.Hub.UpgradeReports

/-!
# The moves of an upgrade

Every patch that an upgrade reconcile makes of the instance is one of a few moves: it takes
a free instance, goes on to the next phase or member, starts a rollback, or gives the
instance back.  `Move` lists them with what the controller has checked on the instance it
read, and `UpgradeCase` lists what a reconcile writes as a whole.
-/

namespace Mspsql

open List

def UpgradeWrite.isPatch : UpgradeWrite → Bool
  | .patchInstance .. => true
  | _ => false

theorem not_patch_singleton {w : UpgradeWrite} (h : w.isPatch = false) :
    ∀ w' ∈ [w], w'.isPatch = false :=
  fun w' hw' => by rw [mem_singleton.mp hw']; exact h

theorem majorPhaseApplied_of_ready {view : MultiSitePostgres}
    (h : instanceReadyForOperation view = true) : majorPhaseApplied view = true := by
  rw [instanceReadyForOperation, decide_eq_true_eq] at h
  exact h.1

/-! ## Moves -/

def PostgresUpgrade.running (u : PostgresUpgrade) : Prop :=
  u.deleting = false ∧ u.terminal = false ∧ u.finalizer = true

/-- The phase that follows, where nothing but the phase changes. -/
def MajorUpgradePhase.next : MajorUpgradePhase → Option MajorUpgradePhase
  | .preflight => some .drain
  | .drain => some .stop
  | .stop => some .snapshot
  | .snapshot => some .upgradePrimary
  | .upgradePrimary => some .stanzaUpgrade
  | .stanzaUpgrade => some .startPrimary
  | .startPrimary => some .replicas
  | .replicas => some .restoreWrites
  | .rollback => some .rollbackStart
  | .rollbackStart => some .rollbackRestoreWrites
  | .restoreWrites | .finalize | .rollbackRestoreWrites => none

/-- The phases a failure or a deletion can start the rollback from. -/
def MajorUpgradePhase.rollsBack : MajorUpgradePhase → Bool
  | .drain | .stop | .snapshot | .upgradePrimary | .stanzaUpgrade | .startPrimary => true
  | _ => false

def upgradedMembersWithTarget (instance' : MultiSitePostgres) : List String :=
  appendUnique (splitMembers instance'.annotations.upgradedMembers)
    instance'.annotations.upgradeMember

def majorFinalizing (u : PostgresUpgrade) (view : MultiSitePostgres) : MultiSitePostgres :=
  { withPhase view (.major .finalize) with
    spec := { view.spec with postgres := { view.spec.postgres with
      majorVersion := u.spec.targetMajorVersion
      image := u.spec.targetImage } } }

def claimMinor (u : PostgresUpgrade) (view : MultiSitePostgres) : MultiSitePostgres :=
  { view with annotations := { (withPhase view (.minor .member)).annotations with
      upgradeUID := u.uid
      upgradeName := u.name
      upgradeMember := selectUpgradeCandidate view []
      upgradedMembers := "" } }

def switching (view : MultiSitePostgres) : MultiSitePostgres :=
  { view with annotations := { (withPhase view (.minor .switchover)).annotations with
      upgradedMembers := Text.join "," (upgradedMembersWithTarget view)
      upgradeFromPrimary := view.status.primary
      upgradeCandidate := view.annotations.upgradeMember } }

/-- The first member after the switchover. -/
def switchedOver (view : MultiSitePostgres) : MultiSitePostgres :=
  { view with annotations := { (withPhase view (.minor .member)).annotations with
      upgradeMember := selectUpgradeCandidate view (splitMembers view.annotations.upgradedMembers)
      upgradeSwitched := "true" } }

def minorFinalizing (u : PostgresUpgrade) (view : MultiSitePostgres) : MultiSitePostgres :=
  { withPhase view (.minor .finalize) with
    spec := { view.spec with postgres := { view.spec.postgres with
      image := u.spec.targetImage } } }

/-- What a patch by the upgrade `u`, which read `view`, makes of the instance. -/
inductive Move (u : PostgresUpgrade) (view : MultiSitePostgres) :
    PatchKind → MultiSitePostgres → Prop where
  | claimMajor (running : u.running) (free : view.annotations.upgradeUID = "") :
      Move u view .claim (claimMajor u view)
  | claimMinor (running : u.running) (free : view.annotations.upgradeUID = "")
      (version : u.spec.targetMajorVersion = view.spec.postgres.majorVersion)
      (candidate : selectUpgradeCandidate view [] ≠ "") :
      Move u view .claim (claimMinor u view)
  | advance {phase next : MajorUpgradePhase} (running : u.running)
      (owned : view.annotations.upgradeUID = u.uid)
      (recorded : view.annotations.upgradePhase = .major phase) (follows : phase.next = some next)
      (applied : majorPhaseApplied view = true) :
      Move u view .advance (withPhase view (.major next))
  | finalizeMajor (running : u.running) (owned : view.annotations.upgradeUID = u.uid)
      (recorded : view.annotations.upgradePhase = .major .restoreWrites)
      (applied : majorPhaseApplied view = true) :
      Move u view .advance (majorFinalizing u view)
  | rollBack {phase : MajorUpgradePhase} (owned : view.annotations.upgradeUID = u.uid)
      (recorded : view.annotations.upgradePhase = .major phase)
      (rollsBack : phase.rollsBack = true) :
      Move u view .rollback (withPhase view (.major .rollback))
  | switching (running : u.running) (owned : view.annotations.upgradeUID = u.uid)
      (recorded : view.annotations.upgradePhase = .minor .member)
      (target : view.annotations.upgradeMember ≠ "")
      (unswitched : view.annotations.upgradeSwitched ≠ "true")
      (ready : instanceReadyForOperation view = true) :
      Move u view .advance (switching view)
  | nextMember (running : u.running) (owned : view.annotations.upgradeUID = u.uid)
      (recorded : view.annotations.upgradePhase = .minor .member)
      (target : view.annotations.upgradeMember ≠ "")
      (switched : view.annotations.upgradeSwitched = "true")
      (left : selectUpgradeCandidate view (upgradedMembersWithTarget view) ≠ "")
      (ready : instanceReadyForOperation view = true) :
      Move u view .advance
        (withMember view (selectUpgradeCandidate view (upgradedMembersWithTarget view))
          (upgradedMembersWithTarget view))
  | finalizeMinor (running : u.running) (owned : view.annotations.upgradeUID = u.uid)
      (recorded : view.annotations.upgradePhase = .minor .member)
      (target : view.annotations.upgradeMember ≠ "")
      (switched : view.annotations.upgradeSwitched = "true")
      (noneLeft : selectUpgradeCandidate view (upgradedMembersWithTarget view) = "")
      (ready : instanceReadyForOperation view = true) :
      Move u view .advance (minorFinalizing u view)
  | switchedOver (running : u.running) (owned : view.annotations.upgradeUID = u.uid)
      (recorded : view.annotations.upgradePhase = .minor .switchover)
      (promoted : view.status.primary = view.annotations.upgradeCandidate)
      (left : selectUpgradeCandidate view (splitMembers view.annotations.upgradedMembers) ≠ "") :
      Move u view .switchover (switchedOver view)
  | release (owned : view.annotations.upgradeUID = u.uid) (terminal : u.terminal = true)
      (kept : u.deleting = false) :
      Move u view .release (clearUpgradeAnnotations view)
  | abandon (owned : view.annotations.upgradeUID = u.uid) (deleting : u.deleting = true)
      (allowed : u.forceAbandon = true ∨ view.annotations.upgradePhase = .major .preflight) :
      Move u view .abandon (clearUpgradeAnnotations view)

/-- The phases after which a finished upgrade gives the instance back. -/
def UpgradePhaseValue.last : UpgradePhaseValue → Bool
  | .major .finalize | .major .rollbackRestoreWrites | .minor .finalize => true
  | _ => false

/-- The writes of a reconcile: no patch of the instance; one move, made first; or the final
status followed by the release of the instance. -/
inductive MovesSpec (u : PostgresUpgrade) (view : MultiSitePostgres) :
    List UpgradeWrite → Prop where
  | none {writes : List UpgradeWrite} (h : ∀ w ∈ writes, w.isPatch = false) :
      MovesSpec u view writes
  | move {rest : List UpgradeWrite} {kind : PatchKind} {modified : MultiSitePostgres}
      (hmove : Move u view kind modified) (hrest : ∀ w ∈ rest, w.isPatch = false) :
      MovesSpec u view (.patchInstance kind view modified :: rest)
  | finish {status : PostgresUpgradeStatus}
      (running : u.running) (owned : view.annotations.upgradeUID = u.uid)
      (last : view.annotations.upgradePhase.last = true)
      (terminal : status.phase = "Completed" ∨ status.phase = "Failed")
      (applied : majorPhaseApplied view = true) :
      MovesSpec u view [.setStatus status,
        .patchInstance .advance view (clearUpgradeAnnotations view)]

/-! ## The cases of a reconcile -/

/-- A write that neither patches the instance nor removes the finalizer. -/
inductive Quiet (u : PostgresUpgrade) (view : MultiSitePostgres) : UpgradeWrite → Prop where
  | addFinalizer : Quiet u view .addFinalizer
  /-- A final phase is repeated from the status or read off an instance of its own. -/
  | setStatus {status : PostgresUpgradeStatus} (report : StatusWrite u (.setStatus status))
      (phase : status.phase = "Completed" ∨ status.phase = "Failed" → u.terminal = true ∨
        view.annotations.upgradeUID = u.uid ∧ status.phase = view.annotations.upgradePhase.text) :
      Quiet u view (.setStatus status)
  | createDirective {map : DirectiveMap} {rest : String}
      (name : map.name = "mspsql-upgrade-backup-" ++ rest ∨
        map.name = "mspsql-post-upgrade-backup-" ++ rest) : Quiet u view (.createDirective map)

inductive UpgradeCase (reads : HubReads) (u : PostgresUpgrade) (view : MultiSitePostgres) :
    List UpgradeWrite → Prop where
  | quiet {writes : List UpgradeWrite} (h : ∀ w ∈ writes, Quiet u view w) :
      UpgradeCase reads u view writes
  | move {kind : PatchKind} {modified : MultiSitePostgres} {w : UpgradeWrite}
      (hmove : Move u view kind modified) (h : Quiet u view w) :
      UpgradeCase reads u view [.patchInstance kind view modified, w]
  | finish {status : PostgresUpgradeStatus}
      (running : u.running) (owned : view.annotations.upgradeUID = u.uid)
      (last : view.annotations.upgradePhase.last = true)
      (terminal : status.phase = "Completed" ∨ status.phase = "Failed")
      (applied : majorPhaseApplied view = true) (report : StatusWrite u (.setStatus status)) :
      UpgradeCase reads u view [.setStatus status,
        .patchInstance .advance view (clearUpgradeAnnotations view)]
  /-- There is nothing to do. -/
  | complete {status : PostgresUpgradeStatus} (free : view.annotations.upgradeUID = "")
      (report : StatusWrite u (.setStatus status)) : UpgradeCase reads u view [.setStatus status]
  | conflict {conditions : List Condition} {message : String} (waiting : ¬ u.underWay view)
      (conflict : contested reads u ∨
        view.annotations.upgradeUID ≠ "" ∧ view.annotations.upgradeUID ≠ u.uid)
      (backup : Condition.find? conditions "PostUpgradeBackupReady" = u.status.backupCondition) :
      UpgradeCase reads u view [conflictReport u conditions message]
  /-- The upgrade is over and gives the instance back, -/
  | clear {kind : PatchKind} {rest : List UpgradeWrite}
      (hmove : Move u view kind (clearUpgradeAnnotations view))
      (owned : view.annotations.upgradeUID = u.uid)
      (h : ∀ w ∈ rest, w = .removeFinalizer ∨ Quiet u view w) :
      UpgradeCase reads u view (.patchInstance kind view (clearUpgradeAnnotations view) :: rest)
  /-- or leaves the instance as it is. -/
  | keep {writes : List UpgradeWrite} (closed : u.deleting = true ∨ u.terminal = true)
      (unaware : view.annotations.upgradeUID = u.uid → u.deleting = true ∧
        u.forceAbandon = false ∧ (u.status.phase = "" ∨ u.terminal = true))
      (h : ∀ w ∈ writes, w = .removeFinalizer ∨ Quiet u view w) :
      UpgradeCase reads u view writes

section Cases

variable {reads : HubReads} {u : PostgresUpgrade} {view : MultiSitePostgres} {now : Time}
  {directives : List DirectiveMap} {namespaceName : String} {conditions : List Condition}

section Reports

variable {v : PostgresUpgrade} {phase reason message : String}
  (hcondition : Condition.find? v.status.conditions "PostUpgradeBackupReady" =
    u.status.backupCondition)
  (hattempt : v.status.postUpgradeBackupAttempt = u.status.postUpgradeBackupAttempt)
  (hreason : reason ≠ "OperationConflict")
include hcondition hattempt hreason

theorem Quiet.said (hphase : phase ≠ "Completed" ∧ phase ≠ "Failed") :
    Quiet u view (setUpgradePhase v phase reason message now) :=
  .setStatus (statusWrite_ready hcondition rfl hattempt hreason)
    fun h => absurd h (not_or.mpr hphase)

theorem Quiet.blocked : Quiet u view (upgradeBlocked v reason message) :=
  .setStatus (statusWrite_ready hcondition rfl hattempt hreason) fun h => absurd h (by simp)

end Reports

theorem Quiet.one {w : UpgradeWrite} (h : Quiet u view w) : ∀ w' ∈ [w], Quiet u view w' := by
  intro w' hw
  rw [mem_singleton.mp hw]
  exact h

theorem UpgradeCase.one {w : UpgradeWrite} (h : Quiet u view w) : UpgradeCase reads u view [w] :=
  .quiet h.one

theorem Quiet.backup {map : DirectiveMap} {rest : String} {w : UpgradeWrite}
    (hname : map.name = "mspsql-upgrade-backup-" ++ rest ∨
      map.name = "mspsql-post-upgrade-backup-" ++ rest) (h : Quiet u view w) :
    ∀ w' ∈ [.createDirective map, w], Quiet u view w' :=
  forall_mem_cons.mpr ⟨.createDirective hname, h.one⟩

theorem ensureFreshUpgradeBackup_quiet {writes : List UpgradeWrite}
    (h : ensureFreshUpgradeBackup u namespaceName now directives = some writes) :
    ∀ w ∈ writes, Quiet u view w := by
  have hrequest : ∀ w ∈ ensureFreshUpgradeBackup.request u namespaceName now directives,
      Quiet u view w := by
    unfold ensureFreshUpgradeBackup.request
    split
    · rename_i hnone
      refine Quiet.one (.setStatus (.freshRequested hnone nofun ⟨?_, rfl⟩) fun h => ?_)
      · exact find?_setCondition_ne (by decide) ..
      · exact absurd h (by simp)
    dsimp only
    split
    · exact (Quiet.said rfl rfl (by decide) (by decide)).one
    · exact .backup (.inl rfl) (.said rfl rfl (by decide) (by decide))
  unfold ensureFreshUpgradeBackup at h
  split at h
  · split at h
    · cases h
    split at h
    · rw [← Option.some.inj h]
      exact (Quiet.blocked rfl rfl (by decide)).one
    · exact Option.some.inj h ▸ hrequest
  · exact Option.some.inj h ▸ hrequest

/-! ### Major upgrades -/

/-- The upgrade when its reconcile has changed its conditions. -/
def PostgresUpgrade.withConditions (u : PostgresUpgrade) (conditions : List Condition) :
    PostgresUpgrade :=
  { u with status := { u.status with conditions := conditions } }

/-- What is known of a result of `ensurePostUpgradeBackup`. -/
def BackupAnswer (u : PostgresUpgrade) (view : MultiSitePostgres) (conditions : List Condition) :
    Except (List UpgradeWrite) PostgresUpgrade → Prop
  | .error writes => ∀ w ∈ writes, Quiet u view w
  | .ok finished => finished.status.conditions = conditions ∧
      finished.status.postUpgradeBackupAttempt = u.status.postUpgradeBackupAttempt

variable
  (hcondition : Condition.find? conditions "PostUpgradeBackupReady" = u.status.backupCondition)
include hcondition

theorem ensurePostUpgradeBackup_answer : BackupAnswer u view conditions
    (ensurePostUpgradeBackup (u.withConditions conditions) namespaceName now directives) := by
  have hsame : ∀ {status : PostgresUpgradeStatus}, status.phase = u.status.phase →
      status.phase = "Completed" ∨ status.phase = "Failed" → u.terminal = true ∨
        view.annotations.upgradeUID = u.uid ∧ status.phase = view.annotations.upgradePhase.text :=
    fun hphase h => .inl (decide_eq_true (hphase ▸ h))
  have hrequest : ∀ attempt operation, ∃ writes, ensurePostUpgradeBackup.request
      (u.withConditions conditions) namespaceName now directives attempt operation =
        .error writes ∧ ∀ w ∈ writes, Quiet u view w := by
    intro attempt operation
    unfold ensurePostUpgradeBackup.request
    split
    · rename_i hnone
      exact ⟨_, rfl, Quiet.one (.setStatus
        (.requested hnone nofun (unreported_set rfl (by decide)) rfl) (hsame rfl))⟩
    dsimp only
    split
    · exact ⟨_, rfl, Quiet.one (.said hcondition rfl (by decide) (by decide))⟩
    · exact ⟨_, rfl, .backup (.inr ((String.append_assoc ..).trans (String.append_assoc ..)))
        (.said hcondition rfl (by decide) (by decide))⟩
  unfold ensurePostUpgradeBackup
  dsimp only
  split
  · rename_i hc
    split
    · exact ⟨rfl, rfl⟩
    split
    · rename_i hfailed
      have hreported : u.status.reported = true := by
        unfold PostgresUpgradeStatus.reported
        rw [← hcondition, show Condition.find? conditions "PostUpgradeBackupReady" = _ from hc]
        simp [hfailed]
      split
      · refine Quiet.one (.setStatus
          (.gaveUp (find?_setCondition_self ..) (by simp) ?_ rfl) fun h => absurd h (by simp))
        -- the condition `Ready` is set after the one of the backup
        unfold PostgresUpgradeStatus.reported PostgresUpgradeStatus.backupCondition
        rw [find?_setCondition_ne (by decide), setCondition, Condition.find?_set]
        simp
      · exact Quiet.one (.setStatus (.retry hreported (unreported_set rfl (by decide)) rfl)
          (hsame rfl))
    split
    · exact forall_mem_nil _
    · obtain ⟨writes, hwrites, hquiet⟩ := hrequest _ _
      rw [hwrites]
      exact hquiet
  · obtain ⟨writes, hwrites, hquiet⟩ := hrequest _ _
    rw [hwrites]
    exact hquiet

theorem majorSuccessor_case {phase : MajorUpgradePhase} (hrunning : u.running)
    (howned : view.annotations.upgradeUID = u.uid)
    (hphase : view.annotations.upgradePhase = .major phase)
    (happlied : majorPhaseApplied view = true) :
    UpgradeCase reads u view
      (majorSuccessor (u.withConditions conditions) view now directives phase) := by
  have hadvance : ∀ next, phase.next = some next →
      Move u view .advance (withPhase view (.major next)) :=
    fun next hnext => .advance hrunning howned hphase hnext happlied
  cases phase with
  | replicas =>
    rw [majorSuccessor]
    split
    · exact .one (.said hcondition rfl (by decide) (by decide))
    · exact .move (hadvance _ rfl) (.said hcondition rfl (by decide) (by decide))
  | restoreWrites =>
    exact .move (.finalizeMajor hrunning howned hphase happlied)
      (.said hcondition rfl (by decide) (by decide))
  | finalize =>
    rw [majorSuccessor]
    have hbackup : BackupAnswer u view conditions (ensurePostUpgradeBackup
      (u.withConditions conditions) view.namespaceName now directives) :=
      ensurePostUpgradeBackup_answer hcondition
    split <;> rename_i hresult <;> rw [hresult] at hbackup
    · exact .quiet hbackup
    · refine .finish hrunning howned (by rw [hphase]; rfl) (.inl rfl) happlied ?_
      exact statusWrite_ready hcondition (congrArg (setCondition · _ _ _ _ _) hbackup.1) hbackup.2
        (by decide)
  | rollbackRestoreWrites =>
    exact .finish hrunning howned (by rw [hphase]; rfl) (.inr rfl) happlied
      (statusWrite_ready hcondition rfl rfl (by decide))
  | _ => exact .move (hadvance _ rfl) (.said hcondition rfl (by decide) (by decide))

theorem reconcileMajorUpgrade_case (hrunning : u.running) :
    UpgradeCase reads u view
      (reconcileMajorUpgrade (u.withConditions conditions) view now directives) := by
  unfold reconcileMajorUpgrade
  split
  · rename_i hfree
    split
    · exact .one (.blocked hcondition rfl (by decide))
    · exact .move (.claimMajor hrunning hfree) (.said hcondition rfl (by decide) (by decide))
  rename_i hfree
  split
  · rename_i hother
    exact .conflict (fun h => hother h.1) (.inr ⟨hfree, hother⟩) hcondition
  rename_i howned
  have howned : view.annotations.upgradeUID = u.uid := not_not.mp howned
  have htold : ∀ {reason message : String}, reason ≠ "OperationConflict" →
      UpgradeCase reads u view [setUpgradePhase (u.withConditions conditions)
        view.annotations.upgradePhase.text reason message now] :=
    fun hreason => .one (.setStatus (statusWrite_ready hcondition rfl rfl hreason)
      fun _ => .inr ⟨howned, rfl⟩)
  dsimp only
  split
  on_goal 1 => split
  all_goals first
    | exact .move (.rollBack howned ‹_› rfl) (.said hcondition rfl (by decide) (by decide))
    | exact htold (by decide)
    | split
      · split
        · exact majorSuccessor_case hcondition hrunning howned ‹_› ‹_›
        · exact .one (.blocked hcondition rfl (by decide))
      · exact htold (by decide)

omit hcondition

/-! ### Minor upgrades -/

theorem reconcileMember_case (hrunning : u.running) (howned : view.annotations.upgradeUID = u.uid)
    (hphase : view.annotations.upgradePhase = .minor .member) :
    UpgradeCase reads u view (reconcileMember u view now) := by
  unfold reconcileMember
  dsimp only
  split
  · exact .one (.blocked rfl rfl (by decide))
  rename_i htarget
  split
  · exact .one (.said rfl rfl (by decide) (by decide))
  rename_i hready
  have hready := Bool.not_eq_false _ ▸ hready
  split
  · rename_i hswitched
    exact .move (.switching hrunning howned hphase htarget hswitched hready)
      (.said rfl rfl (by decide) (by decide))
  rename_i hswitched
  have hswitched := not_not.mp hswitched
  split
  · rename_i hnone
    exact .move (.finalizeMinor hrunning howned hphase htarget hswitched hnone hready)
      (.said rfl rfl (by decide) (by decide))
  · rename_i hleft
    exact .move (.nextMember hrunning howned hphase htarget hswitched hleft hready)
      (.said rfl rfl (by decide) (by decide))

theorem reconcileSwitchover_case (hrunning : u.running)
    (howned : view.annotations.upgradeUID = u.uid)
    (hphase : view.annotations.upgradePhase = .minor .switchover) :
    UpgradeCase reads u view (reconcileSwitchover u view now) := by
  unfold reconcileSwitchover
  dsimp only
  split
  · exact .one (.blocked rfl rfl (by decide))
  split
  · exact .one (.said rfl rfl (by decide) (by decide))
  rename_i hpromoted
  have hprimary := not_not.mp (not_or.mp hpromoted).1
  split
  · exact .one (.blocked rfl rfl (by decide))
  · rename_i hleft
    exact .move (.switchedOver hrunning howned hphase hprimary hleft)
      (.said rfl rfl (by decide) (by decide))

theorem reconcileMinorUpgrade_case (hrunning : u.running)
    (hversion : u.spec.targetMajorVersion = view.spec.postgres.majorVersion) :
    UpgradeCase reads u view (reconcileMinorUpgrade u view now) := by
  unfold reconcileMinorUpgrade
  split
  · rename_i hdone
    exact .complete hdone.2 (statusWrite_ready rfl rfl rfl (by decide))
  split
  · rename_i hfree
    dsimp only
    split
    · exact .one (.blocked rfl rfl (by decide))
    · rename_i hcandidate
      exact .move (.claimMinor hrunning hfree hversion hcandidate)
        (.said rfl rfl (by decide) (by decide))
  rename_i hfree
  split
  · rename_i hother
    exact .conflict (fun h => hother h.1) (.inr ⟨hfree, hother⟩) rfl
  rename_i howned
  have howned := not_not.mp howned
  split
  · exact reconcileMember_case hrunning howned ‹_›
  · exact reconcileSwitchover_case hrunning howned ‹_›
  · rename_i hphase
    split
    · exact .one (.said rfl rfl (by decide) (by decide))
    rename_i hready
    exact .finish hrunning howned (by rw [hphase]; rfl) (.inl rfl)
      (majorPhaseApplied_of_ready (Bool.not_eq_false _ ▸ hready))
      (statusWrite_ready rfl rfl rfl (by decide))
  · exact .one (.blocked rfl rfl (by decide))

/-! ### Reconciles -/

theorem reconcileUpgradeDeletion_case (hdel : u.deleting = true) :
    UpgradeCase reads u view (reconcileUpgradeDeletion u (some view) now) := by
  have hone : ∀ w ∈ [UpgradeWrite.removeFinalizer], w = .removeFinalizer ∨ Quiet u view w :=
    fun w hw => .inl (mem_singleton.mp hw)
  unfold reconcileUpgradeDeletion
  dsimp only
  split
  · exact .quiet (forall_mem_nil _)
  split
  · rename_i hforce
    have hblocked : ∀ w ∈ [upgradeBlocked u "ForceAbandoned"
        "Upgrade deletion was force-abandoned; residual resources require operator review",
        .removeFinalizer], w = .removeFinalizer ∨ Quiet u view w :=
      forall_mem_cons.mpr ⟨.inr (.blocked rfl rfl (by decide)), hone⟩
    split
    · rename_i howned
      exact .clear (.abandon howned hdel (.inl hforce)) howned hblocked
    · rename_i hother
      exact .keep (.inl hdel) (fun h => absurd h hother) hblocked
  rename_i hforce
  split
  · rename_i hleft
    exact .keep (.inl hdel) (fun howned => ⟨hdel, Bool.not_eq_true _ ▸ hforce,
      hleft.resolve_left (not_not.mpr howned)⟩) hone
  rename_i hleft
  have howned : view.annotations.upgradeUID = u.uid := not_not.mp (not_or.mp hleft).1
  split
  · exact .clear (.abandon howned hdel (.inr ‹_›)) howned hone
  all_goals first
    | exact .move (.rollBack howned ‹_› rfl) (.said rfl rfl (by decide) (by decide))
    | exact .one (.setStatus (statusWrite_ready rfl rfl rfl (by decide))
        fun h => .inl (decide_eq_true h))

theorem reconcileRunningUpgrade_case (hrunning : u.running) :
    UpgradeCase reads u view (reconcileRunningUpgrade reads u view now directives) := by
  unfold reconcileRunningUpgrade
  dsimp only
  split
  · exact reconcileMajorUpgrade_case rfl hrunning
  rename_i hmajor
  split
  · rename_i hminor
    exact reconcileMinorUpgrade_case hrunning hminor.1
  rename_i hminor
  have hwaiting : ¬ u.underWay view := by
    rintro ⟨howned, hphase | hversion⟩
    · exact hmajor ⟨hphase, howned⟩
    · exact hminor ⟨hversion, howned⟩
  split
  · exact .one (.blocked rfl rfl (by decide))
  split
  · exact .one (.blocked rfl rfl (by decide))
  split
  · rename_i hupgrade
    refine .conflict hwaiting (.inl (.inl ?_)) rfl
    simpa using hupgrade
  split
  · rename_i hrestore
    refine .conflict hwaiting (.inl (.inr ?_)) rfl
    simpa using hrestore
  split
  · split
    · exact .quiet (ensureFreshUpgradeBackup_quiet ‹_›)
    split
    · exact .one (.blocked rfl rfl (by decide))
    · exact reconcileMajorUpgrade_case (find?_setCondition_ne (by decide) ..) hrunning
  · rename_i hversion
    exact reconcileMinorUpgrade_case hrunning (not_not.mp hversion)

theorem reconcileUpgrade_case (reads : HubReads) (u : PostgresUpgrade)
    (view : MultiSitePostgres) (now : Time) (directives : List DirectiveMap) :
    UpgradeCase reads u view (reconcileUpgrade reads u (some view) now directives) := by
  unfold reconcileUpgrade
  split
  · exact reconcileUpgradeDeletion_case ‹_›
  rename_i hdel
  have hkept : u.deleting = false := Bool.not_eq_true _ ▸ hdel
  split
  · rename_i hterminal
    have hfinal : ∀ w ∈ if u.finalizer then [UpgradeWrite.removeFinalizer] else [],
        w = .removeFinalizer ∨ Quiet u view w := by
      split
      · exact fun w hw => .inl (mem_singleton.mp hw)
      · exact forall_mem_nil _
    dsimp only
    split
    · rename_i howned
      exact .clear (.release howned hterminal hkept) howned hfinal
    · rename_i hother
      exact .keep (.inr hterminal) (fun h => absurd h hother) hfinal
  rename_i hterminal
  split
  · exact .one .addFinalizer
  rename_i hfin
  exact reconcileRunningUpgrade_case ⟨hkept, Bool.not_eq_true _ ▸ hterminal,
    Bool.not_eq_false _ ▸ hfin⟩

end Cases

/-! ## What follows from the cases -/

section Follows

variable {reads : HubReads} {u : PostgresUpgrade} {view : MultiSitePostgres} {w : UpgradeWrite}
  {writes : List UpgradeWrite}

theorem Quiet.not_patch (h : Quiet u view w) : w.isPatch = false := by
  cases h <;> rfl

theorem Quiet.report (h : Quiet u view w) : StatusWrite u w := by
  cases h with
  | setStatus report => exact report
  | addFinalizer | createDirective => exact .other rfl

theorem not_patch_of_over (h : ∀ w ∈ writes, w = .removeFinalizer ∨ Quiet u view w) :
    ∀ w ∈ writes, w.isPatch = false := by
  intro w hw
  rcases h w hw with rfl | hquiet
  · rfl
  · exact hquiet.not_patch

theorem UpgradeCase.moves (h : UpgradeCase reads u view writes) : MovesSpec u view writes := by
  cases h with
  | quiet h => exact .none fun w hw => (h w hw).not_patch
  | move hmove h => exact .move hmove (not_patch_singleton h.not_patch)
  | finish running owned last terminal applied => exact .finish running owned last terminal applied
  | complete | conflict => exact .none (not_patch_singleton rfl)
  | clear hmove _ h => exact .move hmove (not_patch_of_over h)
  | keep _ _ h => exact .none (not_patch_of_over h)

theorem UpgradeCase.reported (h : UpgradeCase reads u view writes) :
    UpgradeReported reads u view writes := by
  have hover : ∀ {writes : List UpgradeWrite},
      (∀ w ∈ writes, w = .removeFinalizer ∨ Quiet u view w) → ∀ w ∈ writes, StatusWrite u w := by
    intro writes h w hw
    rcases h w hw with rfl | hquiet
    · exact .other rfl
    · exact hquiet.report
  cases h with
  | quiet h => exact .normal fun w hw => (h w hw).report
  | move _ h => exact .normal (by simpa using ⟨.other rfl, h.report⟩)
  | finish _ _ _ _ _ report => exact .normal (by simpa using ⟨report, .other rfl⟩)
  | complete _ report => exact .normal (by simpa using report)
  | conflict waiting conflict backup => exact .conflict waiting conflict backup
  | clear _ _ h => exact .normal (forall_mem_cons.mpr ⟨.other rfl, hover h⟩)
  | keep _ _ h => exact .normal (hover h)

end Follows

theorem reconcileUpgrade_moves (reads : HubReads) (u : PostgresUpgrade)
    (view : MultiSitePostgres) (now : Time) (directives : List DirectiveMap) :
    MovesSpec u view (reconcileUpgrade reads u (some view) now directives) :=
  (reconcileUpgrade_case ..).moves

end Mspsql
