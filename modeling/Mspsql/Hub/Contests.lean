import Mspsql.Hub.RestoreController
import Mspsql.Hub.UpgradeMoves

/-!
# Operations that meet on one instance

An upgrade asks for other operations on its instance before it begins, a restore asks at
every reconcile.  Each test is about any other unfinished operation and not about which came
first, so two operations that have not begun refuse each other
(`twoUpgrades_deadlocked`), and a restore that owns its target is refused when an upgrade is
created for it.  `serialized_iff` says for which sets of operations neither happens.
-/

namespace Mspsql

open List

variable {operations : List LifecycleOperation} {u : PostgresUpgrade} {r : PostgresRestore}
  {op : LifecycleOperation}

inductive LifecycleOperation where
  | upgrade (upgrade : PostgresUpgrade)
  | restore (restore : PostgresRestore)
deriving DecidableEq

def upgradesOf (operations : List LifecycleOperation) : List PostgresUpgrade :=
  operations.filterMap fun
    | .upgrade u => some u
    | .restore _ => none

def restoresOf (operations : List LifecycleOperation) : List PostgresRestore :=
  operations.filterMap fun
    | .upgrade _ => none
    | .restore r => some r

theorem mem_upgradesOf : u ∈ upgradesOf operations ↔ .upgrade u ∈ operations := by
  simp only [upgradesOf, mem_filterMap]
  constructor
  · rintro ⟨op, hop, heq⟩
    cases op with
    | upgrade v => exact Option.some.inj heq ▸ hop
    | restore r => cases heq
  · exact fun h => ⟨_, h, rfl⟩

theorem mem_restoresOf : r ∈ restoresOf operations ↔ .restore r ∈ operations := by
  simp only [restoresOf, mem_filterMap]
  constructor
  · rintro ⟨op, hop, heq⟩
    cases op with
    | upgrade v => cases heq
    | restore s => exact Option.some.inj heq ▸ hop
  · exact fun h => ⟨_, h, rfl⟩

structure Contest where
  instance' : MultiSitePostgres
  operations : List LifecycleOperation
  reads : HubReads := {}
  directives : List DirectiveMap := []
  /-- The source of a restore. -/
  source : PostgresRestore → MultiSitePostgres
  now : Time

namespace Contest

def readsOf (c : Contest) (operations : List LifecycleOperation) : HubReads :=
  { c.reads with upgrades := upgradesOf operations, restores := restoresOf operations }

def restoreReads (c : Contest) (operations : List LifecycleOperation) (r : PostgresRestore) :
    RestoreReads where
  source := .ok (c.source r)
  target := .found c.instance'
  upgrades := .ok (upgradesOf operations)
  restores := .ok (restoresOf operations)

/-- The controller of the operation refuses it because of a conflict, when those are the
operations it finds. -/
def Refused (c : Contest) (operations : List LifecycleOperation) : LifecycleOperation → Prop
  | .upgrade u => ∃ conditions message,
    reconcileUpgrade (c.readsOf operations) u (some c.instance') c.now c.directives =
      [conflictReport u conditions message]
  | .restore r => ∃ message,
    operationConflict (upgradesOf operations) (restoresOf operations) r.targetInstanceRef r.name
        "restore" = some message ∧
      preflight (c.restoreReads operations r) r (c.source r) c.now = some message

def Owns (c : Contest) : LifecycleOperation → Prop
  | .upgrade u => c.instance'.annotations.upgradeUID = u.uid
  | .restore r => c.instance'.annotations.restoreUID = r.uid

structure UpgradeReady (c : Contest) (u : PostgresUpgrade) : Prop where
  running : u.running
  target : u.spec.instanceRef = c.instance'.name
  ready : conditionTrue c.instance'.status.conditions "Ready" = true
  backupReady : conditionTrue c.instance'.status.conditions "BackupReady" = true
  backup : ∃ time, c.instance'.status.lastBackupTime = some time ∧ c.now - time ≤ 24 * 60 * minute
  fresh : u.spec.targetMajorVersion ≠ c.instance'.spec.postgres.majorVersion →
    ensureFreshUpgradeBackup u c.instance'.namespaceName c.now c.directives = none
  contract : u.spec.targetMajorVersion ≠ c.instance'.spec.postgres.majorVersion →
    validateMajorUpgradeContract c.reads u c.instance' c.now = none

structure RestoreReady (c : Contest) (r : PostgresRestore) : Prop where
  kept : r.deleting = false
  finalizer : r.finalizer = true
  completed : r.phase ≠ "Completed"
  failed : r.phase ≠ "Failed"
  target : r.targetInstanceRef = c.instance'.name
  source : preflightSource r (c.source r) c.now = none

/-- A set of unfinished operations on the instance whose other preflight conditions hold. -/
structure Valid (c : Contest) : Prop where
  nonempty : c.operations ≠ []
  upgrades : ∀ u, .upgrade u ∈ c.operations → c.UpgradeReady u
  restores : ∀ r, .restore r ∈ c.operations → c.RestoreReady r
  upgradeNames : ((upgradesOf c.operations).map (·.name)).Nodup
  restoreNames : ((restoresOf c.operations).map (·.name)).Nodup

/-- Some operation goes on, and none that owns the instance is refused because of a later
one. -/
structure Serialized (c : Contest) : Prop where
  progress : ∃ op ∈ c.operations, ¬ c.Refused c.operations op
  owner : c.operations.Pairwise fun earlier later =>
    c.Owns earlier → ¬ c.Refused [earlier, later] earlier

/-- An upgrade that owns the instance and goes on with what it has begun. -/
def underWay (c : Contest) : LifecycleOperation → Prop
  | .upgrade u => u.underWay c.instance'
  | .restore _ => False

/-- No upgrade outside the set owns the instance. -/
def unclaimed (c : Contest) : LifecycleOperation → Prop
  | .upgrade u => c.instance'.annotations.upgradeUID = "" ∨
    c.instance'.annotations.upgradeUID = u.uid
  | .restore _ => True

/-! ## When operations are refused -/

variable {c : Contest} {all : List LifecycleOperation}

theorem eq_of_upgradeName (h : c.Valid) {v : PostgresUpgrade} (hu : .upgrade u ∈ c.operations)
    (hv : .upgrade v ∈ c.operations) (hname : u.name = v.name) : u = v :=
  inj_on_of_nodup_map h.upgradeNames (mem_upgradesOf.mpr hu) (mem_upgradesOf.mpr hv) hname

theorem eq_of_restoreName (h : c.Valid) {s : PostgresRestore} (hr : .restore r ∈ c.operations)
    (hs : .restore s ∈ c.operations) (hname : r.name = s.name) : r = s :=
  inj_on_of_nodup_map h.restoreNames (mem_restoresOf.mpr hr) (mem_restoresOf.mpr hs) hname

theorem contested_iff (h : c.Valid) (hall : ∀ op ∈ all, op ∈ c.operations)
    (hu : .upgrade u ∈ c.operations) :
    contested (c.readsOf all) u ↔ ∃ op ∈ all, op ≠ .upgrade u := by
  have hready := h.upgrades u hu
  constructor
  · rintro (⟨v, hv, hname, -⟩ | ⟨r, hr, -⟩)
    · refine ⟨.upgrade v, mem_upgradesOf.mp hv, fun heq => hname ?_⟩
      rw [LifecycleOperation.upgrade.inj heq]
    · exact ⟨.restore r, mem_restoresOf.mp hr, nofun⟩
  · rintro ⟨op, hop, hne⟩
    cases op with
    | upgrade v =>
      have hv := h.upgrades v (hall _ hop)
      refine .inl ⟨v, mem_upgradesOf.mpr hop, fun hname => hne ?_,
        hv.target.trans hready.target.symm, hv.running.2.1⟩
      rw [eq_of_upgradeName h (hall _ hop) hu hname]
    | restore r =>
      have hr := h.restores r (hall _ hop)
      exact .inr ⟨r, mem_restoresOf.mpr hop, hr.target.trans hready.target.symm, hr.completed,
        hr.failed⟩

theorem operationConflict_iff (h : c.Valid) (hall : ∀ op ∈ all, op ∈ c.operations)
    (hr : .restore r ∈ c.operations) :
    (operationConflict (upgradesOf all) (restoresOf all) r.targetInstanceRef r.name
      "restore").isSome = true ↔ ∃ op ∈ all, op ≠ .restore r := by
  have hready := h.restores r hr
  have hupgrade : (upgradesOf all).any (fun upgrade =>
      upgrade.spec.instanceRef = r.targetInstanceRef ∧ upgrade.terminal = false) = true ↔
      ∃ u, .upgrade u ∈ all := by
    rw [any_eq_true]
    constructor
    · rintro ⟨u, hu, -⟩
      exact ⟨u, mem_upgradesOf.mp hu⟩
    rintro ⟨u, hu⟩
    have hurdy := h.upgrades u (hall _ hu)
    exact ⟨u, mem_upgradesOf.mpr hu, decide_eq_true
      ⟨hurdy.target.trans hready.target.symm, hurdy.running.2.1⟩⟩
  have hrestore : (restoresOf all).any (fun restore =>
      restore.targetInstanceRef = r.targetInstanceRef ∧
        ("restore" ≠ "restore" ∨ restore.name ≠ r.name) ∧
        restore.phase ≠ "Completed" ∧ restore.phase ≠ "Failed") = true ↔
      ∃ s, .restore s ∈ all ∧ s ≠ r := by
    rw [any_eq_true]
    constructor
    · rintro ⟨s, hs, hok⟩
      obtain ⟨-, hname, -⟩ := of_decide_eq_true hok
      exact ⟨s, mem_restoresOf.mp hs, fun heq => by simp [heq] at hname⟩
    · rintro ⟨s, hs, hne⟩
      have hsready := h.restores s (hall _ hs)
      refine ⟨s, mem_restoresOf.mpr hs, decide_eq_true
        ⟨hsready.target.trans hready.target.symm, .inr fun hname => hne ?_, hsready.completed,
          hsready.failed⟩⟩
      exact eq_of_restoreName h (hall _ hs) hr hname
  unfold operationConflict
  split
  · rename_i hany
    obtain ⟨u, hu⟩ := hupgrade.mp hany
    exact ⟨fun _ => ⟨.upgrade u, hu, nofun⟩, fun _ => rfl⟩
  · rename_i hno
    split
    · rename_i hany
      obtain ⟨s, hs, hne⟩ := hrestore.mp hany
      exact ⟨fun _ => ⟨.restore s, hs, fun heq => hne (LifecycleOperation.restore.inj heq)⟩,
        fun _ => rfl⟩
    · rename_i hnone
      refine ⟨nofun, ?_⟩
      rintro ⟨op, hop, hne⟩
      cases op with
      | upgrade u => exact absurd (hupgrade.mpr ⟨u, hop⟩) hno
      | restore s => exact absurd (hrestore.mpr ⟨s, hop, fun heq => hne (heq ▸ rfl)⟩) hnone

theorem refused_restore_iff (h : c.Valid) (hall : ∀ op ∈ all, op ∈ c.operations)
    (hr : .restore r ∈ c.operations) :
    c.Refused all (.restore r) ↔ ∃ op ∈ all, op ≠ .restore r := by
  rw [← operationConflict_iff h hall hr, Option.isSome_iff_exists]
  have hpreflight : preflight (c.restoreReads all r) r (c.source r) c.now =
      operationConflict (upgradesOf all) (restoresOf all) r.targetInstanceRef r.name "restore" := by
    unfold preflight
    rw [(h.restores r hr).source]
    rfl
  constructor
  · rintro ⟨message, hconflict, -⟩
    exact ⟨message, hconflict⟩
  · rintro ⟨message, hconflict⟩
    exact ⟨message, hconflict, hpreflight.trans hconflict⟩

theorem validateRollbackStorage_readsOf (benchmark : MajorUpgradeBenchmark)
    (sites : List PostgresSiteSpec) :
    validateRollbackStorage (c.readsOf all) benchmark sites =
      validateRollbackStorage c.reads benchmark sites := by
  induction sites with
  | nil => rfl
  | cons site rest ih =>
    unfold validateRollbackStorage
    rw [ih]
    rfl

theorem validateMajorUpgradeContract_readsOf (u : PostgresUpgrade) (i : MultiSitePostgres)
    (now : Time) :
    validateMajorUpgradeContract (c.readsOf all) u i now =
      validateMajorUpgradeContract c.reads u i now := by
  unfold validateMajorUpgradeContract
  simp only [validateRollbackStorage_readsOf]

theorem refused_of_conflict (h : c.Valid) (hall : ∀ op ∈ all, op ∈ c.operations)
    (hu : .upgrade u ∈ c.operations) (hwaiting : ¬ u.underWay c.instance')
    (hconflict : (∃ op ∈ all, op ≠ .upgrade u) ∨ ¬ c.unclaimed (.upgrade u)) :
    c.Refused all (.upgrade u) := by
  obtain ⟨⟨hkept, hopen, hfin⟩, -, hready, hbackupReady, ⟨time, htime, hage⟩, hfresh,
    hcontract⟩ := h.upgrades u hu
  have hmajor : ¬ (c.instance'.annotations.upgradePhase.isMajor = true ∧
      c.instance'.annotations.upgradeUID = u.uid) := fun hm => hwaiting ⟨hm.2, .inl hm.1⟩
  have hminor : ¬ (u.spec.targetMajorVersion = c.instance'.spec.postgres.majorVersion ∧
      c.instance'.annotations.upgradeUID = u.uid) := fun hm => hwaiting ⟨hm.2, .inr hm.1⟩
  have hrunning : reconcileUpgrade (c.readsOf all) u (some c.instance') c.now c.directives =
      reconcileRunningUpgrade (c.readsOf all) u c.instance' c.now c.directives := by
    simp [reconcileUpgrade, hkept, hopen, hfin]
  show ∃ conditions message, reconcileUpgrade (c.readsOf all) u (some c.instance') c.now
    c.directives = [conflictReport u conditions message]
  rw [hrunning]
  unfold reconcileRunningUpgrade
  rw [if_neg hmajor, if_neg hminor, if_neg (by simp [hready, hbackupReady, htime]),
    if_neg (by simpa [htime] using hage)]
  split
  · exact ⟨u.status.conditions, _, rfl⟩
  rename_i hupgrades
  split
  · exact ⟨u.status.conditions, _, rfl⟩
  rename_i hrestores
  -- no other operation is in the way, so the instance has a foreign owner
  have hfree : ¬ contested (c.readsOf all) u := by
    rintro (hother | hother)
    · exact hupgrades (by simpa using hother)
    · exact hrestores (by simpa using hother)
  have hforeign := hconflict.resolve_left fun hop => hfree ((contested_iff h hall hu).mpr hop)
  obtain ⟨hnone, hother⟩ := not_or.mp hforeign
  split
  · rename_i hversion
    rw [hfresh hversion]
    rw [validateMajorUpgradeContract_readsOf, hcontract hversion]
    unfold reconcileMajorUpgrade
    rw [if_neg hnone, if_pos hother]
    exact ⟨_, _, rfl⟩
  · unfold reconcileMinorUpgrade
    rw [if_neg fun hm => hnone hm.2, if_neg hnone, if_pos hother]
    exact ⟨u.status.conditions, _, rfl⟩

theorem refused_upgrade_iff (h : c.Valid) (hall : ∀ op ∈ all, op ∈ c.operations)
    (hu : .upgrade u ∈ c.operations) :
    c.Refused all (.upgrade u) ↔ ¬ u.underWay c.instance' ∧
      ((∃ op ∈ all, op ≠ .upgrade u) ∨ ¬ c.unclaimed (.upgrade u)) := by
  constructor
  · rintro ⟨conditions, message, hwrites⟩
    have hreported :=
      (reconcileUpgrade_case (c.readsOf all) u c.instance' c.now c.directives).reported
    generalize reconcileUpgrade (c.readsOf all) u (some c.instance') c.now c.directives = writes
      at hreported hwrites
    cases hreported with
    | normal hnormal =>
      have hmem : conflictReport u conditions message ∈ writes := by
        rw [hwrites]
        exact mem_singleton_self _
      exact ((hnormal _ hmem).ne_conflictReport conditions message rfl).elim
    | conflict waiting conflict =>
      refine ⟨waiting, conflict.imp (contested_iff h hall hu).mp ?_⟩
      rintro ⟨hsome, hother⟩ (hnone | hown)
      · exact hsome hnone
      · exact hother hown
  · rintro ⟨hwaiting, hconflict⟩
    exact refused_of_conflict h hall hu hwaiting hconflict

/-! ## Serialization -/

theorem refused_iff (h : c.Valid) (hall : ∀ op ∈ all, op ∈ c.operations) (hop : op ∈ c.operations) :
    c.Refused all op ↔ ¬ c.underWay op ∧ ((∃ other ∈ all, other ≠ op) ∨ ¬ c.unclaimed op) := by
  cases op with
  | upgrade u => exact refused_upgrade_iff h hall hop
  | restore r =>
    rw [refused_restore_iff h hall hop]
    exact ⟨fun hother => ⟨id, .inl hother⟩, fun hconflict => hconflict.2.resolve_right (· trivial)⟩

theorem nodup_of_kinds (hupgrades : (upgradesOf operations).Nodup)
    (hrestores : (restoresOf operations).Nodup) : operations.Nodup := by
  induction operations with
  | nil => exact nodup_nil
  | cons op rest ih =>
    cases op with
    | upgrade u =>
      obtain ⟨hfresh, hupgrades⟩ := nodup_cons.mp hupgrades
      exact nodup_cons.mpr ⟨fun hmem => hfresh (mem_upgradesOf.mpr hmem), ih hupgrades hrestores⟩
    | restore r =>
      obtain ⟨hfresh, hrestores⟩ := nodup_cons.mp hrestores
      exact nodup_cons.mpr ⟨fun hmem => hfresh (mem_restoresOf.mpr hmem), ih hupgrades hrestores⟩

theorem Valid.nodup (h : c.Valid) : c.operations.Nodup :=
  nodup_of_kinds h.upgradeNames.of_map h.restoreNames.of_map

theorem eq_singleton_of_alone (h : c.Valid) (hop : op ∈ c.operations)
    (halone : ∀ other ∈ c.operations, other = op) : c.operations = [op] := by
  have hnodup := h.nodup
  rcases hops : c.operations with _ | ⟨first, _ | ⟨second, rest⟩⟩
  · rw [hops] at hop
    cases hop
  · rw [halone first (by simp [hops])]
  have hsame : first = second :=
    (halone first (by simp [hops])).trans (halone second (by simp [hops])).symm
  rw [hops, nodup_cons] at hnodup
  exact absurd (hsame ▸ mem_cons_self) hnodup.1

theorem progress_iff (h : c.Valid) :
    (∃ op ∈ c.operations, ¬ c.Refused c.operations op) ↔
      (∃ op, c.operations = [op] ∧ c.unclaimed op) ∨ ∃ op ∈ c.operations, c.underWay op := by
  constructor
  · rintro ⟨op, hop, hgoes⟩
    rw [refused_iff h (fun _ => id) hop] at hgoes
    by_cases hway : c.underWay op
    · exact .inr ⟨op, hop, hway⟩
    obtain ⟨halone, hclaim⟩ := not_or.mp fun hconflict => hgoes ⟨hway, hconflict⟩
    refine .inl ⟨op, eq_singleton_of_alone h hop fun other hother => ?_, not_not.mp hclaim⟩
    by_contra hne
    exact halone ⟨other, hother, hne⟩
  · rintro (⟨op, hops, hclaim⟩ | ⟨op, hop, hway⟩)
    · have hop : op ∈ c.operations := by rw [hops]; exact mem_singleton_self op
      refine ⟨op, hop, fun hrefused => ?_⟩
      rcases ((refused_iff h (fun _ => id) hop).mp hrefused).2 with ⟨other, hother, hne⟩ | hforeign
      · rw [hops] at hother
        exact hne (mem_singleton.mp hother)
      · exact hforeign hclaim
    · exact ⟨op, hop, fun hrefused => ((refused_iff h (fun _ => id) hop).mp hrefused).1 hway⟩

theorem refused_pair_iff (h : c.Valid) {later : LifecycleOperation} (hop : op ∈ c.operations)
    (hlater : later ∈ c.operations) (hne : op ≠ later) :
    c.Refused [op, later] op ↔ ¬ c.underWay op := by
  have hall : ∀ other ∈ [op, later], other ∈ c.operations := by
    intro other hother
    rcases mem_pair.mp hother with rfl | rfl
    · exact hop
    · exact hlater
  rw [refused_iff h hall hop]
  exact ⟨And.left, fun hway => ⟨hway, .inl ⟨later, by simp, hne.symm⟩⟩⟩

/-- Operations are serialized without deadlock exactly when there is one operation and no
foreign owner, or an upgrade is under way; and whatever else owns the instance was created
last. -/
theorem serialized_iff (h : c.Valid) :
    c.Serialized ↔
      ((∃ op, c.operations = [op] ∧ c.unclaimed op) ∨ ∃ op ∈ c.operations, c.underWay op) ∧
        c.operations.Pairwise fun earlier _ => c.Owns earlier → c.underWay earlier := by
  constructor
  · rintro ⟨hprogress, howner⟩
    refine ⟨(progress_iff h).mp hprogress, ?_⟩
    refine (howner.and h.nodup).imp_of_mem fun {op later} hop hlater hpair howns => ?_
    by_contra hway
    exact hpair.1 howns ((refused_pair_iff h hop hlater hpair.2).mpr hway)
  · rintro ⟨hprogress, howner⟩
    refine ⟨(progress_iff h).mpr hprogress, ?_⟩
    refine (howner.and h.nodup).imp_of_mem fun {op later} hop hlater hpair howns hrefused => ?_
    exact (refused_pair_iff h hop hlater hpair.2).mp hrefused (hpair.1 howns)

/-! ## Two upgrades -/

open Sample

/-- `ledger`, healthy, and owned by an upgrade unless the UID is empty. -/
def healthy (owner : String) : MultiSitePostgres :=
  { ledger with
    annotations := { upgradeUID := owner }
    status := {
      conditions := [reported "Ready" "", reported "BackupReady" ""]
      lastBackupTime := some 0 } }

def requested (name : String) : PostgresUpgrade :=
  { minorUpgrade with name := name, uid := name ++ "-uid", finalizer := true }

def twoUpgrades (owner : String) : Contest where
  instance' := healthy owner
  operations := [.upgrade (requested "first"), .upgrade (requested "second")]
  source _ := ledger
  now := 0

theorem requested_ready (owner name : String) :
    (twoUpgrades owner).UpgradeReady (requested name) where
  running := ⟨rfl, rfl, rfl⟩
  target := rfl
  ready := rfl
  backupReady := rfl
  backup := ⟨0, rfl, by show (0 : Int) - 0 ≤ _; decide⟩
  fresh h := absurd rfl h
  contract h := absurd rfl h

theorem twoUpgrades_valid (owner : String) : (twoUpgrades owner).Valid where
  nonempty := nofun
  upgrades u hu := by
    rcases mem_pair.mp hu with h | h <;> cases h <;> exact requested_ready _ _
  restores r hr := by
    rcases mem_pair.mp hr with h | h <;> cases h
  upgradeNames := by
    show ["first", "second"].Nodup
    decide
  restoreNames := nodup_nil

/-- Neither has begun, and each is refused because of the other. -/
theorem twoUpgrades_deadlocked : (twoUpgrades "").Valid ∧ ¬ (twoUpgrades "").Serialized := by
  refine ⟨twoUpgrades_valid "", fun hserialized => ?_⟩
  obtain ⟨op, hop, hgoes⟩ := hserialized.progress
  refine hgoes ((refused_iff (twoUpgrades_valid "") (fun _ => id) hop).mpr ?_)
  have hwaiting : ∀ name, ¬ (twoUpgrades "").underWay (.upgrade (requested name)) := by
    rintro name ⟨hown, -⟩
    have hempty : name ++ "-uid" = "" := hown.symm
    simp at hempty
  rcases mem_pair.mp hop with rfl | rfl
  · exact ⟨hwaiting _, .inl ⟨.upgrade (requested "second"), by simp [twoUpgrades], by decide⟩⟩
  · exact ⟨hwaiting _, .inl ⟨.upgrade (requested "first"), by simp [twoUpgrades], by decide⟩⟩

/-- The first has begun when the second is created. -/
theorem twoUpgrades_serialized :
    (twoUpgrades "first-uid").Valid ∧ (twoUpgrades "first-uid").Serialized := by
  refine ⟨twoUpgrades_valid _, (serialized_iff (twoUpgrades_valid _)).mpr ?_⟩
  have hway : (twoUpgrades "first-uid").underWay (.upgrade (requested "first")) :=
    ⟨by decide, .inr rfl⟩
  refine ⟨.inr ⟨_, mem_cons_self, hway⟩, ?_⟩
  refine pairwise_cons.mpr ⟨fun _ _ _ => hway, pairwise_singleton _ _⟩

end Contest

end Mspsql
