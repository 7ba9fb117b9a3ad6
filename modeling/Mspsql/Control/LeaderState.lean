import Mspsql.Control.Receive
import Mspsql.Hub.Conditions

/-!
# State that only the instance controller derives

Phase, revision, fingerprint, topology and eight conditions of an instance are derived by its
controller from what all sites report.  Messages of agents are recorded beside them, with one
exception: the conditions of a backup result are copied to the instance under whatever type they
are reported.
-/

namespace Mspsql

open List

/-- The conditions that the instance controller derives. -/
def leaderConditions : List String :=
  ["Ready", "TopologyReady", "SynchronousReplicationReady", "EtcdTLSReady", "BackupTLSReady",
    "SitesRegistered", "StorageValidated", "AgentsConnected"]

/-- What the controller derives is the same in both instances. -/
structure LeaderSame (i j : MultiSitePostgres) : Prop where
  phase : j.status.phase = i.status.phase
  activeRevision : j.status.activeRevision = i.status.activeRevision
  planFingerprint : j.status.planFingerprint = i.status.planFingerprint
  primary : j.status.primary = i.status.primary
  synchronousStandbys : j.status.synchronousStandbys = i.status.synchronousStandbys
  desiredRevisions : j.status.sites.map (fun s => (s.name, s.desiredRevision)) =
    i.status.sites.map fun s => (s.name, s.desiredRevision)
  conditions : ∀ type ∈ leaderConditions,
    Condition.find? j.status.conditions type = Condition.find? i.status.conditions type

namespace LeaderSame

variable {i j k : MultiSitePostgres}

theorem refl (i : MultiSitePostgres) : LeaderSame i i :=
  ⟨rfl, rfl, rfl, rfl, rfl, rfl, fun _ _ => rfl⟩

theorem trans (h : LeaderSame i j) (h' : LeaderSame j k) : LeaderSame i k where
  phase := h'.phase.trans h.phase
  activeRevision := h'.activeRevision.trans h.activeRevision
  planFingerprint := h'.planFingerprint.trans h.planFingerprint
  primary := h'.primary.trans h.primary
  synchronousStandbys := h'.synchronousStandbys.trans h.synchronousStandbys
  desiredRevisions := h'.desiredRevisions.trans h.desiredRevisions
  conditions type htype := (h'.conditions type htype).trans (h.conditions type htype)

theorem records_iff {reported : List Condition} (h : RecordsResult i j reported) :
    LeaderSame i j ↔ ∀ type ∈ leaderConditions,
      Condition.find? j.status.conditions type = Condition.find? i.status.conditions type := by
  refine ⟨LeaderSame.conditions, fun hconds => ?_⟩
  have hstatus := congrArg MultiSitePostgres.status h.eq
  refine ⟨?_, ?_, ?_, ?_, ?_, ?_, hconds⟩
  · rw [hstatus]
  · rw [hstatus]
  · rw [hstatus]
  · rw [hstatus]
  · rw [hstatus]
  · rw [h.sites]

end LeaderSame

/-! ## Plan messages -/

theorem planRecord_leaderSame (siteName : String) (message : PlanMessage) (now : Time)
    (r : InstanceRecord) :
    LeaderSame r.stored (HubWrite.planRecord siteName message now r).stored := by
  unfold HubWrite.planRecord
  split
  · rename_i h
    obtain ⟨entry, -, rfl⟩ := receivePlanMessage_ok h
    refine ⟨rfl, rfl, rfl, rfl, rfl, ?_, fun _ _ => rfl⟩
    refine Lists.map_modify fun site => ?_
    exact Prod.ext (message.update_spec now site).name
      (message.update_spec now site).desiredRevision
  · exact .refl _

/-! ## Results -/

variable {type siteName : String} {library : ServerLibrary} {now : Time} {store : HubStore}

theorem find?_setRecoveryWindowCondition (i : MultiSitePostgres) (h : type ∈ leaderConditions) :
    Condition.find? (setRecoveryWindowCondition i).status.conditions type =
      Condition.find? i.status.conditions type := by
  have hne : "RecoveryWindowAvailable" ≠ type := by
    rintro rfl
    exact absurd h (by decide)
  unfold setRecoveryWindowCondition
  split
  · rfl
  · split
    · exact find?_setCondition_of_ne hne ..
    · exact find?_setCondition_of_ne hne ..

theorem backupReady_ne (h : type ∈ leaderConditions) : "BackupReady" ≠ type := by
  rintro rfl
  exact absurd h (by decide)

theorem recordUpgradeBackupEvidence_leaderSame (parseTime : String → Option Time)
    (result : PlanResult) (i : MultiSitePostgres) :
    LeaderSame i (recordUpgradeBackupEvidence parseTime result i) := by
  refine (LeaderSame.records_iff (recordUpgradeBackupEvidence_records ..)).mpr ?_
  intro type htype
  unfold recordUpgradeBackupEvidence
  rw [find?_setRecoveryWindowCondition _ htype, find?_setCondition_of_ne (backupReady_ne htype),
    updateBackupEvidence_eq]

theorem find?_recordInstanceDirectiveResult (parseTime : String → Option Time) (siteName : String)
    (result : PlanResult) (i : MultiSitePostgres) (htype : type ∈ leaderConditions) :
    Condition.find? (recordInstanceDirectiveResult parseTime siteName result i).status.conditions
        type =
      ((Condition.find? result.conditions.reverse type).map fun c =>
        { c with observedGeneration := i.generation }).or
        (Condition.find? i.status.conditions type) := by
  have hcopied : Condition.find? (copyConditions i result.conditions).status.conditions type =
      ((Condition.find? result.conditions.reverse type).map fun c =>
        { c with observedGeneration := i.generation }).or
        (Condition.find? i.status.conditions type) := by
    show Condition.find? (result.conditions.foldl _ i.status.conditions) type = _
    rw [← foldl_map, Condition.find?_foldl_set_reverse, ← map_reverse]
    unfold Condition.find?
    rw [find?_map]
    rfl
  rw [← hcopied]
  unfold recordInstanceDirectiveResult
  split
  · rw [find?_setRecoveryWindowCondition _ htype,
      find?_setCondition_of_ne (backupReady_ne htype), updateBackupEvidence_eq]
  · rw [find?_setCondition_of_ne (backupReady_ne htype)]

/-- The result reports what the controller derives as the instance already has it.  A type that is
reported twice, first with another status, still moves the transition time, which `Condition`
does not have. -/
def Echoes (result : PlanResult) (i : MultiSitePostgres) : Prop :=
  ∀ type ∈ leaderConditions, ∀ c, Condition.find? result.conditions.reverse type = some c →
    Condition.find? i.status.conditions type = some { c with observedGeneration := i.generation }

theorem recordInstanceDirectiveResult_leaderSame_iff (parseTime : String → Option Time)
    (siteName : String) (result : PlanResult) (i : MultiSitePostgres) :
    LeaderSame i (recordInstanceDirectiveResult parseTime siteName result i) ↔ Echoes result i := by
  rw [LeaderSame.records_iff (recordInstanceDirectiveResult_records ..)]
  refine forall₂_congr fun type htype => ?_
  rw [find?_recordInstanceDirectiveResult parseTime siteName result i htype]
  cases h : Condition.find? result.conditions.reverse type with
  | none => exact ⟨fun _ c hc => (nomatch hc), fun _ => rfl⟩
  | some c =>
    constructor
    · intro hsame d hd
      cases hd
      exact hsame.symm
    · exact fun hsame => (hsame c rfl).symm

/-! ## Messages -/

/-- What the controller derives is the same for every instance. -/
def LeaderKept (before after : HubStore) : Prop :=
  List.Forall₂ (fun r r' => LeaderSame r.stored r'.stored) before.instances after.instances

theorem LeaderKept.refl (store : HubStore) : LeaderKept store store :=
  forall₂_same.mpr fun r _ => .refl r.stored

theorem LeaderKept.trans {a b c : HubStore} (h : LeaderKept a b) (h' : LeaderKept b c) :
    LeaderKept a c :=
  Lists.forall₂_trans (fun _ _ _ hab hbc => hab.trans hbc) h h'

theorem leaderKept_onInstance_iff (store : HubStore) (p : MultiSitePostgres → Bool)
    (f : InstanceRecord → InstanceRecord) :
    LeaderKept store (HubWrite.onInstance store p f) ↔
      ∀ r, store.instances.find? (fun r => p r.stored) = some r →
        LeaderSame r.stored (f r).stored :=
  Lists.forall₂_updateFirst_iff fun r => .refl r.stored

def HubWrite.Quiet (w : HubWrite) : Prop :=
  ∀ namespaceName name siteName result, w ≠ .instanceResult namespaceName name siteName result

theorem HubWrite.Quiet.leaderKept {w : HubWrite} (h : w.Quiet) (library : ServerLibrary)
    (store : HubStore) : LeaderKept store (w.apply library store) := by
  cases w with
  | bind name hello certificateNotAfter now | identity name | heartbeat name now
  | inventory name decoded | declaredResult kind namespaceName name siteName deleting result
  | restoreResult namespaceName name result | upgradeResult namespaceName name result
  | upgradeBackup namespaceName name map result => exact .refl store
  | plan siteName message now =>
    exact (leaderKept_onInstance_iff ..).mpr fun r _ => planRecord_leaderSame siteName message now r
  | trigger instanceUID now =>
    exact (leaderKept_onInstance_iff ..).mpr fun r _ => .refl r.stored
  | instanceResult namespaceName name siteName result => exact absurd rfl (h _ _ _ _)
  | backupEvidence namespaceName name result =>
    exact (leaderKept_onInstance_iff ..).mpr fun r _ =>
      recordUpgradeBackupEvidence_leaderSame library.parseTime result r.stored

theorem leaderKept_of_quiet {writes : List HubWrite} (h : ∀ w ∈ writes, w.Quiet)
    (store : HubStore) :
    LeaderKept store (writes.foldl (HubWrite.apply library) store) := by
  induction writes generalizing store with
  | nil => exact .refl store
  | cons w rest ih =>
    exact ((h w mem_cons_self).leaderKept library store).trans
      (ih (fun v hv => h v (mem_cons_of_mem w hv)) _)

theorem leaderKept_instanceResult_iff (library : ServerLibrary) (store : HubStore)
    (namespaceName name siteName : String) (result : PlanResult) :
    LeaderKept store
        ((HubWrite.instanceResult namespaceName name siteName result).apply library store) ↔
      ∀ r, store.instances.find? (fun r => r.stored.namespaceName = namespaceName ∧
        r.stored.name = name) = some r → Echoes result r.stored := by
  rw [HubWrite.apply, leaderKept_onInstance_iff]
  exact forall₂_congr fun r _ => recordInstanceDirectiveResult_leaderSame_iff _ _ _ _

theorem planWrites_quiet {message : PlanMessage} :
    ∀ w ∈ HubStore.planWrites siteName now store message, w.Quiet := by
  intro w hw
  unfold HubStore.planWrites at hw
  split at hw
  · exact absurd hw not_mem_nil
  · rcases mem_cons.mp hw with rfl | hw
    · exact nofun
    · rcases Lists.mem_of_mem_ite hw with hw | hw
      · rw [mem_singleton.mp hw]
        exact nofun
      · exact absurd hw not_mem_nil

theorem ownedResultWrites_quiet {m : ConfigMap} {owner : OwnerReference} {result : PlanResult}
    (h : resultOwner? owner.kind ≠ some .postgres) :
    ∀ w ∈ HubStore.ownedResultWrites siteName store m owner result, w.Quiet := by
  intro w hw
  unfold HubStore.ownedResultWrites at hw
  split at hw
  · exact absurd hw not_mem_nil
  · exact absurd ‹_› h
  · rw [mem_singleton.mp hw]
    exact nofun
  · rw [mem_singleton.mp hw]
    exact nofun
  · split at hw
    · rw [mem_singleton.mp hw]
      exact nofun
    · split at hw
      · exact absurd hw not_mem_nil
      · rcases mem_cons.mp hw with rfl | hw
        · exact nofun
        · rcases Lists.mem_of_mem_ite hw with hw | hw
          · rw [mem_singleton.mp hw]
            exact nofun
          · exact absurd hw not_mem_nil

theorem writes_quiet {siteUID : String} {message : AgentMessage}
    (h : ∀ result, message ≠ .result result) :
    ∀ w ∈ HubStore.writes library siteName siteUID now store message, w.Quiet := by
  intro w hw
  cases message with
  | hello hello certificateNotAfter =>
    obtain ⟨-, hbind⟩ := mem_filter.mp hw
    rintro _ _ _ _ rfl
    cases hbind
  | certificateSigningRequest requestID csrPEM =>
    have hw : w ∈ HubStore.certificateWrites library siteName siteUID store requestID csrPEM := hw
    unfold HubStore.certificateWrites at hw
    split at hw
    · exact absurd hw not_mem_nil
    · rcases Lists.mem_of_mem_ite hw with hw | hw
      · rw [mem_singleton.mp hw]
        exact nofun
      · exact absurd hw not_mem_nil
  | heartbeat =>
    rw [mem_singleton.mp hw]
    exact nofun
  | acknowledgement ack | progress report => exact planWrites_quiet w hw
  | inventory length decoded =>
    rcases Lists.mem_of_mem_ite hw with hw | hw
    · exact absurd hw not_mem_nil
    · obtain ⟨d, -, rfl⟩ := mem_map.mp hw
      exact nofun
  | result result => exact absurd rfl (h result)

def HubStore.backupInstance? (store : HubStore) (operationUID : String) : Option InstanceRecord :=
  if operationUID = "" then none
  else (store.resultMap? operationUID).bind fun m => m.owners.head?.bind fun owner =>
    if resultOwner? owner.kind = some .postgres then
      store.instances.find? fun r => r.stored.namespaceName = m.namespaceName ∧
        r.stored.name = owner.name
    else none

theorem resultWrites_cases (siteName : String) (store : HubStore) (result : PlanResult)
    (h : result.operationUID ≠ "") :
    (∃ namespaceName name, HubStore.resultWrites siteName store result =
        [.instanceResult namespaceName name siteName result] ∧
      store.backupInstance? result.operationUID = store.instances.find? fun r =>
        r.stored.namespaceName = namespaceName ∧ r.stored.name = name) ∨
    (∀ w ∈ HubStore.resultWrites siteName store result, w.Quiet) ∧
      store.backupInstance? result.operationUID = none := by
  unfold HubStore.resultWrites HubStore.backupInstance?
  rw [if_neg h]
  cases store.resultMap? result.operationUID with
  | none => exact .inr ⟨fun w hw => absurd hw not_mem_nil, rfl⟩
  | some m =>
    dsimp only
    rw [Option.bind_some]
    cases m.owners with
    | nil => exact .inr ⟨fun w hw => absurd hw not_mem_nil, rfl⟩
    | cons owner rest =>
      by_cases hkind : resultOwner? owner.kind = some .postgres
      · refine .inl ⟨m.namespaceName, owner.name, ?_, if_pos hkind⟩
        show HubStore.ownedResultWrites siteName store m owner result = _
        rw [HubStore.ownedResultWrites, hkind]
      · exact .inr ⟨ownedResultWrites_quiet hkind, if_neg hkind⟩

theorem leaderKept_handle_one {siteUID : String} {message : AgentMessage} {w : HubWrite}
    (h : HubStore.writes library siteName siteUID now store message = [w]) :
    (∀ landed, LeaderKept store (store.handle library siteName siteUID now message landed)) ↔
      LeaderKept store (w.apply library store) := by
  unfold HubStore.handle
  rw [h]
  refine ⟨fun hall => hall 1, fun hone landed => ?_⟩
  cases landed with
  | zero => exact .refl store
  | succ n =>
    rw [take_succ_cons, take_nil]
    exact hone

/-- A message leaves what the controller derives alone exactly when, if it is the result of a
scheduled backup, the last condition it reports of each derived type is the one that is there
already. -/
theorem leaderKept_iff (library : ServerLibrary) (siteName siteUID : String) (now : Time)
    (store : HubStore) (message : AgentMessage) :
    (∀ landed, LeaderKept store (store.handle library siteName siteUID now message landed)) ↔
      ∀ result, message = .result result →
        ∀ r, store.backupInstance? result.operationUID = some r → Echoes result r.stored := by
  have hquiet : (∀ w ∈ HubStore.writes library siteName siteUID now store message, w.Quiet) →
      ∀ landed, LeaderKept store (store.handle library siteName siteUID now message landed) :=
    fun h landed => leaderKept_of_quiet (fun w hw => h w (mem_of_mem_take hw)) store
  by_cases hmessage : ∃ result, message = .result result
  · obtain ⟨result, rfl⟩ := hmessage
    have hwrites : HubStore.writes library siteName siteUID now store (.result result) =
        if result.operationUID ≠ "" then HubStore.resultWrites siteName store result
        else HubStore.planWrites siteName now store (.result result) := rfl
    by_cases hop : result.operationUID = ""
    · rw [if_neg (not_not_intro hop)] at hwrites
      refine ⟨fun _ r hr x hx => ?_, fun _ => hquiet (by rw [hwrites]; exact planWrites_quiet)⟩
      cases hr
      rw [HubStore.backupInstance?, if_pos hop] at hx
      cases hx
    · rw [if_pos hop] at hwrites
      rcases resultWrites_cases siteName store result hop with
        ⟨namespaceName, name, hone, hfound⟩ | ⟨hrest, hnone⟩
      · rw [leaderKept_handle_one (hwrites.trans hone), leaderKept_instanceResult_iff, ← hfound]
        constructor
        · intro h x hx
          cases hx
          exact h
        · exact fun h => h result rfl
      · refine ⟨fun _ x hx r hr => ?_, fun _ => hquiet (by rw [hwrites]; exact hrest)⟩
        cases hx
        rw [hnone] at hr
        cases hr
  · have hne : ∀ result, message ≠ .result result := fun result h => hmessage ⟨result, h⟩
    exact ⟨fun _ result h => absurd h (hne result), fun _ => hquiet (writes_quiet hne)⟩

/-! ## A backup that reports readiness -/

/-- The ConfigMap of a scheduled backup of the example's instance. -/
def ledgerBackup : ConfigMap where
  namespaceName := "database-platform"
  name := "mspsql-backup-full-0"
  labels := .ofList [(directiveLabel, "Backup")]
  owners := [⟨groupVersion, "MultiSitePostgres", "ledger", "ledger-uid", true⟩]
  data := .ofList [("operationUID", "ledger-uid-backup-full-0"), ("type", "Backup")]

def ledgerStore : HubStore where
  instances := [{ stored := Sample.ledger }]
  configMaps := [ledgerBackup]

def boldResult : PlanResult where
  instanceUID := "ledger-uid"
  operationUID := "ledger-uid-backup-full-0"
  conditions := [
    { type := "Succeeded", status := .true, reason := "BackupCompleted", message := "" },
    { type := "Ready", status := .true, reason := "AllGood", message := "" }]

/-- An agent makes an instance ready by saying so in the result of a backup. -/
theorem backup_result_sets_ready :
    ledgerStore.instances.map (fun r => conditionTrue r.stored.status.conditions "Ready") =
        [false] ∧
    (ledgerStore.handle plainServer "production-qld" "qld-uid" 0
      (.result boldResult) 1).instances.map
        (fun r => conditionTrue r.stored.status.conditions "Ready") = [true] ∧
    ¬ LeaderKept ledgerStore
      (ledgerStore.handle plainServer "production-qld" "qld-uid" 0 (.result boldResult) 1) := by
  have hbefore : ledgerStore.instances.map
      (fun r => conditionTrue r.stored.status.conditions "Ready") = [false] := by decide +kernel
  have hafter : (ledgerStore.handle plainServer "production-qld" "qld-uid" 0
      (.result boldResult) 1).instances.map
        (fun r => conditionTrue r.stored.status.conditions "Ready") = [true] := by decide +kernel
  refine ⟨hbefore, hafter, fun h => ?_⟩
  have hsame : ledgerStore.instances.map
      (fun r => conditionTrue r.stored.status.conditions "Ready") =
      (ledgerStore.handle plainServer "production-qld" "qld-uid" 0
        (.result boldResult) 1).instances.map
          (fun r => conditionTrue r.stored.status.conditions "Ready") := by
    refine Lists.map_eq_of_forall₂ (h.imp fun r r' hrr => ?_)
    show Condition.isTrue _ "Ready" = Condition.isTrue _ "Ready"
    rw [Condition.isTrue, Condition.isTrue, hrr.conditions "Ready" (by decide)]
  rw [hbefore, hafter] at hsame
  cases hsame

end Mspsql
