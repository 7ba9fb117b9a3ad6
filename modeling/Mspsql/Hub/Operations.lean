import Mspsql.Hub.Ownership
import Mspsql.Hub.RestoreController

/-!
# Upgrades and restores side by side

The hub of one instance with its upgrades, and the restores of the namespace with the
instances they recover into.  A restore reconcile makes its writes one by one and stops
where a call fails or the controller crashes.  It reads its target as it was at any earlier
time, or not at all.

The instance of the hub is not itself the target of one of these restores: its restore
annotations are left alone.
-/

namespace Mspsql

open List

variable {v w : Operations} {config : OperationsConfig}

structure OperationsConfig where
  hub : HubConfig
  restores : RestoreLibrary

structure Operations where
  hub : HubState
  /-- The other instances of the namespace. -/
  targets : List MultiSitePostgres := []
  /-- What `targets` has been, the newest first. -/
  seen : List (List MultiSitePostgres) := [[]]
  restores : List PostgresRestore := []
  /-- Every UID a restore has ever had. -/
  restoreUIDs : List String := []

inductive OperationsEvent where
  | hub (event : HubEvent)
  /-- A restore reconcile makes its first `writes` writes; a target it creates gets `uid`. -/
  | restore (name : String) (reads : RestoreReads) (now : Time) (uid : String) (writes : Nat)
  | createRestore (restore : PostgresRestore)
  | deleteRestore (name : String) (forceAbandon : Bool)
  /-- An instance is created, without annotations. -/
  | createInstance (instance' : MultiSitePostgres)
  /-- The instance controller and the server record a status. -/
  | recordStatus (name : String) (status : MultiSitePostgresStatus)
  /-- The object of an instance is gone. -/
  | dropInstance (name : String)

def OperationsEvent.stoppedAfter (writes : Nat) : OperationsEvent → OperationsEvent
  | .hub (.upgrade name view reads now _) => .hub (.upgrade name view reads now writes)
  | .restore name reads now uid _ => .restore name reads now uid writes
  | e => e

/-- The event changes the restore annotations of the instance. -/
def HubEvent.annotates : HubEvent → Bool
  | .annotate _ => true
  | _ => false

/-- A status update writes the status of the object and nothing else. -/
def PostgresRestore.withStatusOf (restore updated : PostgresRestore) : PostgresRestore :=
  { restore with
    observedGeneration := updated.observedGeneration
    phase := updated.phase
    selectedBackupSet := updated.selectedBackupSet
    recoveredTo := updated.recoveredTo
    operation := updated.operation
    conditions := updated.conditions }

def clearRestoreAnnotations (target : MultiSitePostgres) : MultiSitePostgres :=
  { target with annotations := { target.annotations with
      restoreUID := "", restoreName := "", restoreSourceUID := "", restorePhase := .absent } }

namespace Operations

def instances (w : Operations) : List MultiSitePostgres := w.hub.stored :: w.targets

def restore? (w : Operations) (name : String) : Option PostgresRestore :=
  w.restores.find? (fun r => r.name = name)

def updateRestore (w : Operations) (name : String) (f : PostgresRestore → PostgresRestore) :
    Operations :=
  let changed := w.restores.map fun r => if r.name = name then f r else r
  { w with restores := changed.filter fun r => ¬ (r.deleting ∧ r.finalizer = false) }

def setTargets (w : Operations) (targets : List MultiSitePostgres) : Operations :=
  { w with targets := targets, seen := targets :: w.seen }

def updateTarget (w : Operations) (name : String) (f : MultiSitePostgres → MultiSitePostgres) :
    Operations :=
  w.setTargets (w.targets.map fun i => if i.name = name then f i else i)

def hasTarget (w : Operations) (name : String) : Bool := w.targets.any fun i => i.name = name

/-- One write of a reconcile of `restore`; `none` when the call fails.  The evidence of a
drill goes into the status of the source, which nothing here reads back. -/
def applyRestoreWrite (restore : PostgresRestore) (uid : String) (w : Operations) :
    RestoreWrite → Option Operations
  | .addFinalizer => some (w.updateRestore restore.name fun r => { r with finalizer := true })
  | .removeFinalizer => some (w.updateRestore restore.name fun r => { r with finalizer := false })
  | .setStatus updated => some (w.updateRestore restore.name (·.withStatusOf updated))
  | .createTarget target =>
    if w.hasTarget target.name then none else some (w.setTargets (target.created uid :: w.targets))
  | .setTargetPhase phase =>
    if w.hasTarget restore.targetInstanceRef then
      some (w.updateTarget restore.targetInstanceRef fun i => { i with
        annotations := { i.annotations with restorePhase := phase } })
    else none
  | .clearTarget =>
    if w.hasTarget restore.targetInstanceRef then
      some (w.updateTarget restore.targetInstanceRef clearRestoreAnnotations)
    else none
  | .deleteTarget =>
    some (w.updateTarget restore.targetInstanceRef fun i => { i with deleting := true })
  | .drillEvidence _ _ => some w

/-- The writes of a restore reconcile up to the first call that fails. -/
def applyRestoreWrites (restore : PostgresRestore) (uid : String) :
    Operations → List RestoreWrite → Operations
  | w, [] => w
  | w, write :: rest =>
    match applyRestoreWrite restore uid w write with
    | some v => applyRestoreWrites restore uid v rest
    | none => w

def mayRead (w : Operations) (name : String) : TargetRead → Prop
  | .failed => True
  | .notFound => ∃ targets ∈ w.seen, ∀ i ∈ targets, i.name ≠ name
  | .found target => target.name = name ∧ ∃ targets ∈ w.seen, target ∈ targets

instance (w : Operations) (name : String) : DecidablePred (w.mayRead name)
  | .failed => inferInstanceAs (Decidable True)
  | .notFound => inferInstanceAs (Decidable (∃ targets ∈ w.seen, ∀ i ∈ targets, i.name ≠ name))
  | .found target =>
    inferInstanceAs (Decidable (target.name = name ∧ ∃ targets ∈ w.seen, target ∈ targets))

def step (config : OperationsConfig) (w : Operations) : OperationsEvent → Option Operations
  | .hub event =>
    if event.annotates then none
    else (w.hub.step config.hub event).map fun hub => { w with hub := hub }
  | .restore name reads now uid writes =>
    match w.restore? name with
    | some restore =>
      if w.mayRead restore.targetInstanceRef reads.target then
        some (applyRestoreWrites restore uid w
          ((reconcileRestore config.restores reads restore now).take writes))
      else none
    | none => none
  | .createRestore restore =>
    if restore.uid ≠ "" ∧ restore.uid ∉ w.restoreUIDs ∧
        restore.name ∉ w.restores.map (·.name) ∧ restore.deleting = false then
      some { w with restores := restore :: w.restores, restoreUIDs := restore.uid :: w.restoreUIDs }
    else none
  | .deleteRestore name forceAbandon =>
    some (w.updateRestore name fun r => { r with deleting := true, forceAbandon := forceAbandon })
  | .createInstance instance' =>
    if w.hasTarget instance'.name = false ∧ instance'.annotations = {} then
      some (w.setTargets (instance' :: w.targets))
    else none
  | .recordStatus name status => some (w.updateTarget name fun i => { i with status := status })
  | .dropInstance name => some (w.setTargets (w.targets.filter fun i => i.name ≠ name))

structure Initial (config : OperationsConfig) (w : Operations) : Prop where
  hub : HubState.Initial config.hub w.hub
  restoreUID : w.hub.stored.annotations.restoreUID = ""
  targets : w.targets = []
  restores : w.restores = []
  restoreUIDs : w.restoreUIDs = []

/-! ## Objects and their names -/

def restoreKeys (w : Operations) : List (String × String × String) :=
  w.restores.map fun r => (r.name, r.uid, r.targetInstanceRef)

variable {w : Operations} {restore : PostgresRestore} {library : RestoreLibrary}
  {reads : RestoreReads} {now : Time}

theorem mem_restoreKeys (h : restore ∈ w.restores) :
    (restore.name, restore.uid, restore.targetInstanceRef) ∈ w.restoreKeys :=
  mem_map_of_mem h

theorem updateRestore_keys {name : String} {f : PostgresRestore → PostgresRestore}
    (hf : ∀ r, (f r).name = r.name ∧ (f r).uid = r.uid ∧
      (f r).targetInstanceRef = r.targetInstanceRef) :
    (w.updateRestore name f).restoreKeys.Sublist w.restoreKeys := by
  refine Lists.update_sublist fun r => ?_
  rw [(hf r).1, (hf r).2.1, (hf r).2.2]

theorem mem_updateRestore {name : String} {f : PostgresRestore → PostgresRestore}
    {r : PostgresRestore} (h : r ∈ (w.updateRestore name f).restores) :
    ∃ v ∈ w.restores, r = f v ∧ v.name = name ∨ r = v ∧ v.name ≠ name :=
  Lists.mem_update h

/-- What a step may do to restores and their targets, new restores apart; targets are
created for the restores in `owners`. -/
structure Follows (owners : List (String × String × String)) (w v : Operations) : Prop where
  hub : v.hub = w.hub
  restoreUIDs : v.restoreUIDs = w.restoreUIDs
  keys : v.restoreKeys.Sublist w.restoreKeys
  names : (w.targets.map (·.name)).Nodup → (v.targets.map (·.name)).Nodup
  /-- A target was there before, or is new and belongs to nobody or to the restore it is the
  target of. -/
  targets : ∀ i ∈ v.targets,
    (∃ j ∈ w.targets, i.name = j.name ∧ i.annotations.upgradeUID = j.annotations.upgradeUID ∧
      (i.annotations.restoreUID = j.annotations.restoreUID ∨ i.annotations.restoreUID = "")) ∨
    i.annotations.upgradeUID = "" ∧ (i.annotations.restoreUID = "" ∨
      ∃ k ∈ owners, i.annotations.restoreUID = k.2.1 ∧ i.name = k.2.2)

namespace Follows

variable {owners : List (String × String × String)}

theorem refl (w : Operations) : Follows owners w w :=
  ⟨rfl, rfl, List.Sublist.refl _, id, fun i hi => .inl ⟨i, hi, rfl, rfl, .inl rfl⟩⟩

theorem updateRestore (w : Operations) (name : String) {f : PostgresRestore → PostgresRestore}
    (hf : ∀ r, (f r).name = r.name ∧ (f r).uid = r.uid ∧
      (f r).targetInstanceRef = r.targetInstanceRef) : Follows owners w (w.updateRestore name f) :=
  ⟨rfl, rfl, updateRestore_keys hf, id, fun i hi => .inl ⟨i, hi, rfl, rfl, .inl rfl⟩⟩

theorem updateTarget (w : Operations) (name : String) {f : MultiSitePostgres → MultiSitePostgres}
    (hf : ∀ i, (f i).name = i.name ∧ (f i).annotations.upgradeUID = i.annotations.upgradeUID ∧
      ((f i).annotations.restoreUID = i.annotations.restoreUID ∨
        (f i).annotations.restoreUID = "")) :
    Follows owners w (w.updateTarget name f) := by
  have hone : ∀ i : MultiSitePostgres, (if i.name = name then f i else i).name = i.name := by
    intro i
    by_cases hname : i.name = name
    · rw [if_pos hname]
      exact (hf i).1
    · rw [if_neg hname]
  refine ⟨rfl, rfl, List.Sublist.refl _, fun h => ?_, fun i hi => ?_⟩
  · show ((w.targets.map fun i => if i.name = name then f i else i).map (·.name)).Nodup
    rw [map_map]
    have hsame : w.targets.map ((·.name) ∘ fun i => if i.name = name then f i else i) =
        w.targets.map (·.name) := map_congr_left fun i _ => hone i
    rw [hsame]
    exact h
  · obtain ⟨j, hj, rfl⟩ := mem_map.mp hi
    refine .inl ⟨j, hj, hone j, ?_⟩
    by_cases hname : j.name = name
    · simp only [if_pos hname]
      exact (hf j).2
    · rw [if_neg hname]
      exact ⟨rfl, .inl rfl⟩

theorem create {i : MultiSitePostgres} (hnew : w.hasTarget i.name = false)
    (hupgrade : i.annotations.upgradeUID = "")
    (howner : i.annotations.restoreUID = "" ∨ ∃ k ∈ owners, i.annotations.restoreUID = k.2.1 ∧
      i.name = k.2.2) :
    Follows owners w (w.setTargets (i :: w.targets)) := by
  refine ⟨rfl, rfl, List.Sublist.refl _, fun h => ?_, fun j hj => ?_⟩
  · refine nodup_cons.mpr ⟨fun hmem => ?_, h⟩
    obtain ⟨j, hj, hname⟩ := mem_map.mp hmem
    exact any_eq_false.mp hnew j hj (decide_eq_true hname)
  · rcases mem_cons.mp hj with rfl | hj
    · exact .inr ⟨hupgrade, howner⟩
    · exact .inl ⟨j, hj, rfl, rfl, .inl rfl⟩

theorem drop (w : Operations) (name : String) :
    Follows owners w (w.setTargets (w.targets.filter fun i => i.name ≠ name)) :=
  ⟨rfl, rfl, List.Sublist.refl _, fun h => (filter_sublist.map _).nodup h,
    fun i hi => .inl ⟨i, mem_of_mem_filter hi, rfl, rfl, .inl rfl⟩⟩

theorem trans {u : Operations} (h : Follows owners u v) (h' : Follows owners v w) :
    Follows owners u w := by
  refine ⟨h'.hub.trans h.hub, h'.restoreUIDs.trans h.restoreUIDs, h'.keys.trans h.keys,
    fun hn => h'.names (h.names hn), fun i hi => ?_⟩
  rcases h'.targets i hi with ⟨j, hj, hname, hupgrade, howner⟩ | ⟨hupgrade, howner⟩
  · rcases h.targets j hj with ⟨k, hk, hname', hupgrade', howner'⟩ | ⟨hupgrade', howner'⟩
    · refine .inl ⟨k, hk, hname.trans hname', hupgrade.trans hupgrade', ?_⟩
      rcases howner with howner | howner
      · exact howner'.imp howner.trans howner.trans
      · exact .inr howner
    · refine .inr ⟨hupgrade.trans hupgrade', ?_⟩
      rcases howner with howner | howner
      · rw [howner, hname]
        exact howner'
      · exact .inl howner
  · exact .inr ⟨hupgrade, howner⟩

end Follows

/-! ## Restore reconciles -/

theorem Follows.write {owners : List (String × String × String)} {uid : String}
    {write : RestoreWrite}
    (howner : (restore.name, restore.uid, restore.targetInstanceRef) ∈ owners)
    (hwrite : write ∈ reconcileRestore library reads restore now)
    (h : applyRestoreWrite restore uid w write = some v) : Follows owners w v := by
  cases write with
  | addFinalizer | removeFinalizer | setStatus =>
    exact Option.some.inj h ▸ .updateRestore w _ fun _ => ⟨rfl, rfl, rfl⟩
  | createTarget target =>
    obtain ⟨source, hsource⟩ := createTarget_of_mem hwrite
    obtain ⟨hname, hrestore, hupgrade⟩ := newTarget_owner hsource
    rw [applyRestoreWrite] at h
    split at h
    · cases h
    rename_i hnew
    exact Option.some.inj h ▸ .create (Bool.not_eq_true _ ▸ hnew) hupgrade
      (.inr ⟨_, howner, hrestore, hname⟩)
  | setTargetPhase phase =>
    rw [applyRestoreWrite] at h
    split at h
    · exact Option.some.inj h ▸ .updateTarget w _ fun _ => ⟨rfl, rfl, .inl rfl⟩
    · cases h
  | clearTarget =>
    rw [applyRestoreWrite] at h
    split at h
    · exact Option.some.inj h ▸ .updateTarget w _ fun _ => ⟨rfl, rfl, .inr rfl⟩
    · cases h
  | deleteTarget => exact Option.some.inj h ▸ .updateTarget w _ fun _ => ⟨rfl, rfl, .inl rfl⟩
  | drillEvidence => exact Option.some.inj h ▸ .refl w

theorem Follows.writes {owners : List (String × String × String)} {uid : String}
    {writes : List RestoreWrite}
    (howner : (restore.name, restore.uid, restore.targetInstanceRef) ∈ owners)
    (hwrites : ∀ write ∈ writes, write ∈ reconcileRestore library reads restore now) :
    Follows owners w (applyRestoreWrites restore uid w writes) := by
  induction writes generalizing w with
  | nil => exact .refl w
  | cons write rest ih =>
    obtain ⟨hwrite, hrest⟩ := forall_mem_cons.mp hwrites
    rw [applyRestoreWrites]
    split
    · rename_i hv
      exact (Follows.write howner hwrite hv).trans (ih hrest)
    · exact .refl w

/-! ## Runs -/

theorem restoreUID_of_hub {config : HubConfig} {s t : HubState} {e : HubEvent}
    (he : e.annotates = false) (h : HubState.StepCase config s e t) :
    t.stored.annotations.restoreUID = s.stored.annotations.restoreUID := by
  cases h with
  | @issue view reads fails now writes =>
    obtain ⟨f, hstored⟩ := s.applyOutcome_finalizer view _ writes
    rw [hstored]
  | upgrade =>
    exact HubState.applyUpgradeWrites_stored
      (P := (·.annotations.restoreUID = s.stored.annotations.restoreUID)) rfl (fun _ _ _ h => h) ..
  | backupResult hrecords | upgradeBackupSucceeded hrecords =>
    exact congrArg (·.restoreUID) hrecords.annotations
  | annotate => cases he
  | _ => rfl

inductive StepCase (config : OperationsConfig) (w : Operations) :
    OperationsEvent → Operations → Prop where
  | hub {event : HubEvent} {hub : HubState} (kept : event.annotates = false)
      (stepped : HubState.StepCase config.hub w.hub event hub) :
      StepCase config w (.hub event) { w with hub := hub }
  | restore {name : String} {reads : RestoreReads} {now : Time} {uid : String} {writes : Nat}
      {restore : PostgresRestore} (found : w.restore? name = some restore)
      (read : w.mayRead restore.targetInstanceRef reads.target) :
      StepCase config w (.restore name reads now uid writes) (applyRestoreWrites restore uid w
          ((reconcileRestore config.restores reads restore now).take writes))
  | createRestore {restore : PostgresRestore} (uid : restore.uid ≠ "")
      (fresh : restore.uid ∉ w.restoreUIDs) (unique : restore.name ∉ w.restores.map (·.name)) :
      StepCase config w (.createRestore restore) { w with
        restores := restore :: w.restores, restoreUIDs := restore.uid :: w.restoreUIDs }
  | deleteRestore {name : String} {forceAbandon : Bool} :
      StepCase config w (.deleteRestore name forceAbandon)
        (w.updateRestore name fun r => { r with deleting := true, forceAbandon := forceAbandon })
  | createInstance {instance' : MultiSitePostgres} (new : w.hasTarget instance'.name = false)
      (plain : instance'.annotations = {}) :
      StepCase config w (.createInstance instance') (w.setTargets (instance' :: w.targets))
  | recordStatus {name : String} {status : MultiSitePostgresStatus} :
      StepCase config w (.recordStatus name status)
        (w.updateTarget name fun i => { i with status := status })
  | dropInstance {name : String} : StepCase config w (.dropInstance name)
        (w.setTargets (w.targets.filter fun i => i.name ≠ name))

theorem step_case {e : OperationsEvent} (h : w.step config e = some v) : StepCase config w e v := by
  cases e with
  | hub event =>
    simp only [step] at h
    split at h
    · cases h
    rename_i hkept
    obtain ⟨hub, hhub, rfl⟩ := Option.map_eq_some_iff.mp h
    exact .hub (Bool.not_eq_true _ ▸ hkept) (HubState.step_case hhub)
  | restore name reads now uid writes =>
    simp only [step] at h
    split at h
    · rename_i hrestore
      split at h
      · rename_i hread
        exact Option.some.inj h ▸ .restore hrestore hread
      · cases h
    · cases h
  | createRestore restore =>
    simp only [step] at h
    split at h
    · rename_i hnew
      exact Option.some.inj h ▸ .createRestore hnew.1 hnew.2.1 hnew.2.2.1
    · cases h
  | deleteRestore name forceAbandon => exact Option.some.inj h ▸ .deleteRestore
  | createInstance instance' =>
    simp only [step] at h
    split at h
    · rename_i hnew
      exact Option.some.inj h ▸ .createInstance hnew.1 hnew.2
    · cases h
  | recordStatus name status => exact Option.some.inj h ▸ .recordStatus
  | dropInstance name => exact Option.some.inj h ▸ .dropInstance

/-- What is known of the objects in every run. -/
structure Tidy (w : Operations) : Prop where
  keyed : w.hub.Keyed
  hubRestore : w.hub.stored.annotations.restoreUID = ""
  restoreNames : (w.restoreKeys.map (·.1)).Nodup
  restoreIdentities : (w.restoreKeys.map (·.2.1)).Nodup
  known : ∀ k ∈ w.restoreKeys, k.2.1 ≠ "" ∧ k.2.1 ∈ w.restoreUIDs
  targetNames : (w.targets.map (·.name)).Nodup
  notUpgraded : ∀ i ∈ w.targets, i.annotations.upgradeUID = ""
  owners : ∀ i ∈ w.targets, i.annotations.restoreUID = "" ∨ i.annotations.restoreUID ∈ w.restoreUIDs
  owned : ∀ i ∈ w.targets, ∀ k ∈ w.restoreKeys, i.annotations.restoreUID = k.2.1 → i.name = k.2.2

namespace Tidy

theorem initial (h : Initial config w) : Tidy w := by
  have hkeys : w.restoreKeys = [] := by
    rw [restoreKeys, h.restores]
    rfl
  refine ⟨.initial h.hub, h.restoreUID, ?_, ?_, ?_, ?_, ?_, ?_, ?_⟩
  all_goals first | rw [hkeys] | rw [h.targets]
  all_goals simp

theorem follows (h : Tidy w) (hv : Follows w.restoreKeys w v) : Tidy v := by
  have howner : ∀ i ∈ v.targets, ∀ k ∈ w.restoreKeys, i.annotations.restoreUID = k.2.1 →
      i.name = k.2.2 := by
    intro i hi k hk huid
    rcases hv.targets i hi with
      ⟨j, hj, hname, -, hsame | hnone⟩ | ⟨-, hnone | ⟨k', hk', huid', hname⟩⟩
    · exact hname.trans (h.owned j hj k hk (hsame.symm.trans huid))
    · exact absurd (huid.symm.trans hnone) (h.known k hk).1
    · exact absurd (huid.symm.trans hnone) (h.known k hk).1
    have hsame : k' = k :=
      inj_on_of_nodup_map h.restoreIdentities hk' hk (huid'.symm.trans huid)
    exact hsame ▸ hname
  refine ⟨hv.hub ▸ h.keyed, hv.hub ▸ h.hubRestore, (hv.keys.map _).nodup h.restoreNames,
    (hv.keys.map _).nodup h.restoreIdentities, fun k hk => ?_, hv.names h.targetNames,
    fun i hi => ?_, fun i hi => ?_, fun i hi k hk => howner i hi k (hv.keys.subset hk)⟩
  · rw [hv.restoreUIDs]
    exact h.known k (hv.keys.subset hk)
  · rcases hv.targets i hi with ⟨j, hj, -, hupgrade, -⟩ | ⟨hupgrade, -⟩
    · exact hupgrade.trans (h.notUpgraded j hj)
    · exact hupgrade
  · rw [hv.restoreUIDs]
    rcases hv.targets i hi with ⟨j, hj, -, -, hsame | hnone⟩ | ⟨-, hnone | ⟨k, hk, huid, -⟩⟩
    · rw [hsame]
      exact h.owners j hj
    · exact .inl hnone
    · exact .inl hnone
    · exact .inr (huid ▸ (h.known k hk).2)

theorem createRestore (h : Tidy w) (huid : restore.uid ≠ "") (hfresh : restore.uid ∉ w.restoreUIDs)
    (hname : restore.name ∉ w.restores.map (·.name)) :
    Tidy { w with
      restores := restore :: w.restores, restoreUIDs := restore.uid :: w.restoreUIDs } := by
  have hnew : restore.uid ∉ w.restoreKeys.map (·.2.1) := by
    intro hmem
    obtain ⟨k, hk, hkuid⟩ := mem_map.mp hmem
    exact hfresh (hkuid ▸ (h.known k hk).2)
  have hnames : w.restoreKeys.map (·.1) = w.restores.map (·.name) := by
    rw [restoreKeys, map_map]
    rfl
  refine ⟨h.keyed, h.hubRestore, nodup_cons.mpr ⟨hnames ▸ hname, h.restoreNames⟩,
    nodup_cons.mpr ⟨hnew, h.restoreIdentities⟩, fun k hk => ?_, h.targetNames,
    h.notUpgraded, fun i hi => (h.owners i hi).imp id (mem_cons_of_mem _),
    fun i hi k hk hik => ?_⟩
  · rcases mem_cons.mp hk with rfl | hk
    · exact ⟨huid, mem_cons_self⟩
    · exact (h.known k hk).imp id (mem_cons_of_mem _)
  · rcases mem_cons.mp hk with rfl | hk
    · -- no target carries the UID of a restore that is new
      have hik : i.annotations.restoreUID = restore.uid := hik
      rcases h.owners i hi with hnone | hold
      · exact absurd (hik.symm.trans hnone) huid
      · exact absurd (hik ▸ hold) hfresh
    · exact h.owned i hi k hk hik

theorem step {e : OperationsEvent} (h : Tidy w) (hcase : StepCase config w e v) : Tidy v := by
  cases hcase with
  | hub hkept hstep =>
    exact ⟨h.keyed.step hstep, (restoreUID_of_hub hkept hstep).trans h.hubRestore, h.restoreNames,
      h.restoreIdentities, h.known, h.targetNames, h.notUpgraded, h.owners, h.owned⟩
  | restore found =>
    exact h.follows (.writes (mem_restoreKeys (mem_of_find?_eq_some found))
      fun _ => mem_of_mem_take)
  | createRestore huid hfresh hname => exact h.createRestore huid hfresh hname
  | deleteRestore => exact h.follows (.updateRestore w _ fun _ => ⟨rfl, rfl, rfl⟩)
  | createInstance hnew hplain =>
    exact h.follows (.create hnew (by rw [hplain]) (.inl (by rw [hplain])))
  | recordStatus => exact h.follows (.updateTarget w _ fun _ => ⟨rfl, rfl, .inl rfl⟩)
  | dropInstance => exact h.follows (.drop w _)

theorem of_reach (h : Machine.Reach (Operations.step config) (Initial config) Machine.anyStep w) :
    Tidy w :=
  h.invariant (fun _ => initial) fun _ _ _ ht _ hst => ht.step (step_case hst)

end Tidy

end Operations

end Mspsql
