import Mspsql.Hub.Ownership
import Mspsql.Hub.RestoreController

/-!
# The recovery window

`RecoveryWindowAvailable` has three writers.  A drill sets it when its time is not before
the start of the window.  The results of scheduled and upgrade backups set it as soon as a
drill was ever verified, and they move the start of the window: when old backups expire the
start passes the last drill, and the condition stays true (`expired_unproven`).

The machine is the hub with one more event, the completion of a drill.
-/

namespace Mspsql

def windowTimes (status : MultiSitePostgresStatus) : Option Time × Option Time :=
  (status.recoveryWindowStart, status.restoreDrillLastVerifiedAt)

def windowProven (status : MultiSitePostgresStatus) : Bool :=
  status.recoveryWindowStart.any fun start =>
    status.restoreDrillLastVerifiedAt.any fun drill => decide (start ≤ drill)

def WindowBacked (i : MultiSitePostgres) : Prop :=
  conditionTrue i.status.conditions "RecoveryWindowAvailable" = true →
    windowProven i.status = true
deriving Decidable

/-! ## The machine -/

inductive WindowEvent where
  | hub (event : HubEvent)
  /-- A disposable restore of the instance has completed. -/
  | drill (restore : PostgresRestore) (now : Time)

namespace Window

def step (config : HubConfig) (s : HubState) : WindowEvent → Option HubState
  | .hub event => s.step config event
  | .drill restore now => some (s.store (recordRestoreDrillEvidence now restore s.stored))

structure Initial (config : HubConfig) (s : HubState) : Prop extends HubState.Initial config s where
  status : s.stored.status = {}

def reportedTimes (parseTime : String → Option Time) (type : String)
    (reported : List Condition) : List Time :=
  (reported.filter (·.type = type)).filterMap fun c => parseTime c.message

def InOrder (parseTime : String → Option Time) (status : MultiSitePostgresStatus)
    (reported : List Condition) : Prop :=
  ∀ start ∈ reportedTimes parseTime "RecoveryWindowStart" reported ++
      status.recoveryWindowStart.toList,
    ∀ drill ∈ reportedTimes parseTime "DisposableRestoreVerifiedAt" reported ++
        status.restoreDrillLastVerifiedAt.toList, start ≤ drill
deriving Decidable

/-- Backup results report no window that starts after the last drill, and nothing about the
availability of the window; drills complete after the start of the window. -/
def timely (s : HubState) : WindowEvent → Prop
  | .hub (.backupResult _ parseTime result) =>
    "RecoveryWindowAvailable" ∉ result.conditions.map (·.type) ∧
      InOrder parseTime s.stored.status result.conditions
  | .hub (.upgradeBackupResult _ _ parseTime result) =>
    InOrder parseTime s.stored.status result.conditions
  | .drill _ now => ∀ start ∈ s.stored.status.recoveryWindowStart, start ≤ storedTime now
  | _ => True

instance (s : HubState) (e : WindowEvent) : Decidable (timely s e) := by
  unfold timely
  split <;> infer_instance

/-! ## What results do to the window -/

def Ordered (status : MultiSitePostgresStatus) : Prop :=
  ∀ start ∈ status.recoveryWindowStart, ∀ drill ∈ status.restoreDrillLastVerifiedAt, start ≤ drill

def Complete (status : MultiSitePostgresStatus) : Prop :=
  status.recoveryWindowStart.isSome = true ∧ status.restoreDrillLastVerifiedAt.isSome = true

def Unpromised (conditions : List Condition) : Prop :=
  Condition.Never "RecoveryWindowAvailable" conditions

theorem reportedTimes_cons (parseTime : String → Option Time) (type : String) (c : Condition)
    (rest : List Condition) :
    reportedTimes parseTime type (c :: rest) =
      (if c.type = type then (parseTime c.message).toList else []) ++
        reportedTimes parseTime type rest := by
  unfold reportedTimes
  by_cases h : c.type = type
  · cases hparse : parseTime c.message <;> simp [h, hparse]
  · simp [h]

def latest (parseTime : String → Option Time) (type : String) (old : Option Time)
    (reported : List Condition) : Option Time :=
  reported.foldl (fun time c =>
    if c.type = type then (parseTime c.message).orElse fun _ => time else time) old

variable {parseTime : String → Option Time} {reported : List Condition} {i : MultiSitePostgres}
  {result : PlanResult} {config : HubConfig} {s t : HubState}

theorem mem_latest {type : String} {old : Option Time} {t : Time}
    (h : t ∈ latest parseTime type old reported) :
    t ∈ reportedTimes parseTime type reported ++ old.toList := by
  induction reported generalizing old with
  | nil => exact Option.mem_toList.mpr h
  | cons c rest ih =>
    have hrest := ih h
    rw [reportedTimes_cons, List.append_assoc, List.mem_append, List.mem_append]
    rcases List.mem_append.mp hrest with hmem | hmem
    · exact .inr (.inl hmem)
    dsimp only at hmem
    split at hmem
    · rename_i htype
      rw [if_pos htype]
      cases hparse : parseTime c.message with
      | none =>
        rw [hparse] at hmem
        exact .inr (.inr hmem)
      | some time =>
        rw [hparse] at hmem
        exact .inl hmem
    · exact .inr (.inr hmem)

theorem latest_isSome {type : String} {old : Option Time} (h : old.isSome = true) :
    (latest parseTime type old reported).isSome = true := by
  induction reported generalizing old with
  | nil => exact h
  | cons c rest ih =>
    refine ih ?_
    dsimp only
    split
    · cases parseTime c.message with
      | none => exact h
      | some time => rfl
    · exact h

theorem windowTimes_updateBackupEvidence (parseTime : String → Option Time)
    (status : MultiSitePostgresStatus) (reported : List Condition) :
    windowTimes (updateBackupEvidence parseTime status reported) =
      (latest parseTime "RecoveryWindowStart" status.recoveryWindowStart reported,
        latest parseTime "DisposableRestoreVerifiedAt" status.restoreDrillLastVerifiedAt
          reported) := by
  unfold updateBackupEvidence latest
  induction reported generalizing status with
  | nil => rfl
  | cons c rest ih =>
    rw [List.foldl_cons, ih, List.foldl_cons]
    split <;> simp_all

theorem windowTimes_setRecoveryWindowCondition (i : MultiSitePostgres) :
    windowTimes (setRecoveryWindowCondition i).status = windowTimes i.status := by
  unfold setRecoveryWindowCondition
  split
  · rfl
  · split <;> rfl

theorem windowTimes_recordInstanceDirectiveResult (parseTime : String → Option Time)
    (siteName : String) (result : PlanResult) (i : MultiSitePostgres) :
    windowTimes (recordInstanceDirectiveResult parseTime siteName result i).status =
      if directiveSucceeded result.conditions then
        windowTimes (updateBackupEvidence parseTime i.status result.conditions)
      else windowTimes i.status := by
  unfold recordInstanceDirectiveResult
  split
  · rw [windowTimes_setRecoveryWindowCondition]
    show windowTimes (updateBackupEvidence parseTime _ result.conditions) = _
    rw [windowTimes_updateBackupEvidence, windowTimes_updateBackupEvidence]
    rfl
  · rfl

theorem windowTimes_recordUpgradeBackupEvidence (parseTime : String → Option Time)
    (result : PlanResult) (i : MultiSitePostgres) :
    windowTimes (recordUpgradeBackupEvidence parseTime result i).status =
      windowTimes (updateBackupEvidence parseTime i.status result.conditions) := by
  unfold recordUpgradeBackupEvidence
  rw [windowTimes_setRecoveryWindowCondition]
  rfl

theorem unpromised_setCondition (h : Unpromised i.status.conditions) (type : String)
    (status : ConditionStatus) (reason message : String)
    (htype : type ≠ "RecoveryWindowAvailable") :
    Unpromised (i.setCondition type status reason message).status.conditions :=
  h.set fun heq => absurd heq htype

theorem unpromised_setRecoveryWindowCondition (h : Unpromised i.status.conditions) :
    Unpromised (setRecoveryWindowCondition i).status.conditions ∨
      Complete (setRecoveryWindowCondition i).status := by
  unfold setRecoveryWindowCondition
  split
  · exact .inl h
  rename_i hstart
  split
  · rename_i hdrill
    have hsome : i.status.recoveryWindowStart.isSome = true := by
      simpa [Option.isSome_iff_ne_none] using hstart
    exact .inr ⟨hsome, hdrill⟩
  · exact .inl (h.set fun _ => nofun)

theorem unpromised_recordInstanceDirectiveResult {siteName : String}
    (h : Unpromised i.status.conditions)
    (hreported : "RecoveryWindowAvailable" ∉ result.conditions.map (·.type)) :
    Unpromised (recordInstanceDirectiveResult parseTime siteName result i).status.conditions ∨
      Complete (recordInstanceDirectiveResult parseTime siteName result i).status := by
  have hcopied : Unpromised (copyConditions i result.conditions).status.conditions :=
    h.of_mem hreported fun c hc => mem_copied hc
  unfold recordInstanceDirectiveResult
  split
  · apply unpromised_setRecoveryWindowCondition
    refine unpromised_setCondition ?_ "BackupReady" _ _ _ (by decide)
    rw [updateBackupEvidence_eq]
    exact hcopied
  · exact .inl (unpromised_setCondition hcopied "BackupReady" _ _ _ (by decide))

theorem unpromised_recordUpgradeBackupEvidence (h : Unpromised i.status.conditions) :
    Unpromised (recordUpgradeBackupEvidence parseTime result i).status.conditions ∨
      Complete (recordUpgradeBackupEvidence parseTime result i).status := by
  apply unpromised_setRecoveryWindowCondition
  refine unpromised_setCondition ?_ "BackupReady" _ _ _ (by decide)
  rw [updateBackupEvidence_eq]
  exact h

/-! ## The invariant -/

/-- Recorded times are in order, and nothing promises a window before both are recorded. -/
structure Consistent (s : HubState) : Prop where
  ordered : Ordered s.stored.status
  promised : Complete s.stored.status ∨ HubState.NeverTrue "RecoveryWindowAvailable" s

theorem ordered_congr {a b : MultiSitePostgresStatus} (h : windowTimes a = windowTimes b) :
    Ordered a ↔ Ordered b := by
  obtain ⟨hstart, hdrill⟩ := Prod.mk.inj h
  unfold Ordered
  rw [hstart, hdrill]

theorem complete_congr {a b : MultiSitePostgresStatus} (h : windowTimes a = windowTimes b) :
    Complete a ↔ Complete b := by
  obtain ⟨hstart, hdrill⟩ := Prod.mk.inj h
  unfold Complete
  rw [hstart, hdrill]

theorem windowTimes_step {e : HubEvent} (hst : s.step config e = some t)
    (he : HubState.isBackupResult e = false) :
    windowTimes t.stored.status = windowTimes s.stored.status := by
  cases HubState.step_case hst with
  | issue _ _ =>
    rcases s.applyOutcome_stored _ _ _ with ⟨hstored, -⟩ | ⟨f, hstored, -⟩ <;> rw [hstored]
  | upgrade _ _ => rw [HubState.applyUpgradeWrites_status]
  | backupResult _ | upgradeBackupSucceeded _ | upgradeBackupFailed => cases he
  | _ => rfl

theorem evidence_inOrder {status after : MultiSitePostgresStatus}
    (h : InOrder parseTime status reported)
    (hafter : windowTimes after = windowTimes (updateBackupEvidence parseTime status reported)) :
    Ordered after ∧ (Complete status → Complete after) := by
  rw [windowTimes_updateBackupEvidence] at hafter
  obtain ⟨hstart, hdrill⟩ := Prod.mk.inj hafter
  constructor
  · intro start hs drill hd
    rw [hstart] at hs
    rw [hdrill] at hd
    exact h start (mem_latest hs) drill (mem_latest hd)
  · rintro ⟨hs, hd⟩
    exact ⟨hstart ▸ latest_isSome hs, hdrill ▸ latest_isSome hd⟩

theorem Consistent.next {e : HubEvent} (h : Consistent s) (hst : s.step config e = some t)
    (htimes : Ordered t.stored.status ∧ (Complete s.stored.status → Complete t.stored.status))
    (hpromise : HubState.isBackupResult e = true → Unpromised s.stored.status.conditions →
      Unpromised t.stored.status.conditions ∨ Complete t.stored.status) :
    Consistent t := by
  refine ⟨htimes.1, ?_⟩
  rcases h.promised with hboth | hnever
  · exact .inl (htimes.2 hboth)
  by_cases hcomplete : Complete t.stored.status
  · exact .inl hcomplete
  · refine .inr (hnever.step (by decide) hst fun he => ?_)
    exact (hpromise he hnever.throughout.stored).resolve_right hcomplete

theorem Consistent.unmoved (h : Consistent s)
    (htimes : windowTimes t.stored.status = windowTimes s.stored.status) :
    Ordered t.stored.status ∧ (Complete s.stored.status → Complete t.stored.status) :=
  ⟨(ordered_congr htimes).mpr h.ordered, (complete_congr htimes).mpr⟩

theorem windowTimes_recordRestoreDrillEvidence (now : Time) (restore : PostgresRestore)
    (source : MultiSitePostgres) :
    windowTimes (recordRestoreDrillEvidence now restore source).status =
      (source.status.recoveryWindowStart, some (storedTime now)) := by
  unfold recordRestoreDrillEvidence
  dsimp only
  split <;> rfl

theorem Consistent.drill (h : Consistent s) (restore : PostgresRestore) (now : Time)
    (hok : ∀ start ∈ s.stored.status.recoveryWindowStart, start ≤ storedTime now) :
    Consistent (s.store (recordRestoreDrillEvidence now restore s.stored)) := by
  obtain ⟨hstart, hdrill⟩ :=
    Prod.mk.inj (windowTimes_recordRestoreDrillEvidence now restore s.stored)
  constructor
  · intro start hs drill hd
    have hs : start ∈ s.stored.status.recoveryWindowStart := hstart ▸ hs
    have hd : drill ∈ some (storedTime now) := hdrill ▸ hd
    rw [Option.mem_some] at hd
    rw [← hd]
    exact hok start hs
  · by_cases hsome : s.stored.status.recoveryWindowStart.isSome = true
    · exact .inl ⟨hstart ▸ hsome, hdrill ▸ rfl⟩
    -- without a start the drill promises nothing
    have hnone : s.stored.status.recoveryWindowStart = none := by simpa using hsome
    have hnever := h.promised.resolve_left fun hboth => hsome hboth.1
    have hconds : (recordRestoreDrillEvidence now restore s.stored).status.conditions =
        s.stored.status.conditions := by
      simp [recordRestoreDrillEvidence, hnone]
    refine .inr ⟨hnever.throughout.store ?_, hnever.pending⟩
    rw [hconds]
    exact hnever.throughout.stored

theorem Consistent.backupResult {registration : String} (h : Consistent s)
    (hreported : "RecoveryWindowAvailable" ∉ result.conditions.map (·.type))
    (hin : InOrder parseTime s.stored.status result.conditions)
    (hst : s.step config (.backupResult registration parseTime result) = some t) :
    Consistent t := by
  have ht := Option.some.inj hst
  have hpromise : Unpromised s.stored.status.conditions →
      Unpromised t.stored.status.conditions ∨ Complete t.stored.status := by
    rw [← ht]
    exact fun hnot => unpromised_recordInstanceDirectiveResult hnot hreported
  refine h.next hst ?_ fun _ => hpromise
  have htimes := windowTimes_recordInstanceDirectiveResult parseTime registration result s.stored
  rw [← ht]
  split at htimes
  · exact evidence_inOrder hin htimes
  · exact h.unmoved htimes

theorem Consistent.upgradeBackupResult {name : String} {condition : Condition} (h : Consistent s)
    (hin : InOrder parseTime s.stored.status result.conditions)
    (hst : s.step config (.upgradeBackupResult name condition parseTime result) = some t) :
    Consistent t := by
  have hcases := hst
  simp only [HubState.step] at hcases
  split at hcases
  · -- a succeeded backup is evidence
    cases hcases
    refine h.next hst ?_ fun _ hnot => unpromised_recordUpgradeBackupEvidence hnot
    exact evidence_inOrder hin (windowTimes_recordUpgradeBackupEvidence parseTime result s.stored)
  · cases hcases
    exact h.next hst (h.unmoved rfl) fun _ hnot => .inl hnot

theorem Consistent.step {e : WindowEvent} (h : Consistent s) (hok : timely s e)
    (hst : Window.step config s e = some t) :
    Consistent t := by
  cases e with
  | drill restore now =>
    cases hst
    exact h.drill restore now hok
  | hub event =>
    have hst : s.step config event = some t := hst
    by_cases he : HubState.isBackupResult event = true
    · cases event with
      | backupResult registration parseTime result => exact h.backupResult hok.1 hok.2 hst
      | upgradeBackupResult name condition parseTime result => exact h.upgradeBackupResult hok hst
      | _ => cases he
    · have he : HubState.isBackupResult event = false := by simpa using he
      exact h.next hst (h.unmoved (windowTimes_step hst he)) fun hbackup => by
        simp [he] at hbackup

theorem Initial.consistent (h : Initial config s) : Consistent s := by
  refine ⟨fun start hs => ?_, .inr (.initial h.toInitial ?_)⟩
  · rw [h.status] at hs
    cases hs
  · rw [h.status]
    exact nofun

theorem Consistent.windowBacked (h : Consistent s) : WindowBacked s.stored := by
  intro htrue
  rcases h.promised with ⟨hstart, hdrill⟩ | hnever
  · obtain ⟨start, hs⟩ := Option.isSome_iff_exists.mp hstart
    obtain ⟨drill, hd⟩ := Option.isSome_iff_exists.mp hdrill
    have hle : start ≤ drill := h.ordered start hs drill hd
    simp [windowProven, hs, hd, hle]
  · exact absurd htrue (by simp [conditionTrue, hnever.throughout.stored.isTrue])

open Machine

/-- While results report no window that starts after the last drill, a window shown as
available is proven by it. -/
theorem windowBacked_of_reach {config : HubConfig} {s : HubState}
    (h : Reach (step config) (Initial config) timely s) : WindowBacked s.stored := by
  have hinv : Consistent s := h.invariant (fun _ hinit => hinit.consistent)
    fun _ _ _ hs hok hst => hs.step hok hst
  exact hinv.windowBacked

/-! ## A window that moves past its drill -/

open Sample

theorem ledger_initial : Initial hub (created ledger) :=
  { Sample.ledger_initial with status := rfl }

def after (ok : HubState → WindowEvent → Prop) [∀ s e, Decidable (ok s e)]
    (script : List (HubState → WindowEvent)) : HubState :=
  reached (step hub) ok (created ledger) script

def backupFrom (start : Time) (s : HubState) : WindowEvent :=
  .hub (.backupResult "production-vic" (fun _ => some start) {
    instanceUID := s.stored.uid
    appliedRevision := 0
    conditions := [Sample.reported "Succeeded" "", Sample.reported "RecoveryWindowStart" "start"] })

def drilledAt (now : Time) (_ : HubState) : WindowEvent :=
  .drill {
    name := "drill", namespaceName := "database-platform", uid := "drill-uid"
    sourceInstanceRef := "ledger", targetInstanceRef := "ledger-drill", targetTime := now } now

/-- A backup, a drill, and a backup after which nothing older than the drill is kept. -/
def expired : HubState :=
  after anyStep [backupFrom (5 * second), drilledAt (10 * second), backupFrom (20 * second)]

/-- The window is shown as available although its start is after the last drill. -/
theorem expired_unproven :
    Reach (step hub) (Initial hub) anyStep expired ∧
      ¬ WindowBacked expired.stored := by
  unfold expired after
  exact played (P := fun s : HubState => ¬ WindowBacked s.stored) ledger_initial (by decide +kernel)

/-- Backups before and after a drill, all of them keeping what the drill has read. -/
def drilled : HubState :=
  after timely [backupFrom (5 * second), drilledAt (10 * second), backupFrom (7 * second)]

def Available (s : HubState) : Prop :=
  conditionTrue s.stored.status.conditions "RecoveryWindowAvailable" = true
deriving Decidable

theorem drilled_reach : Reach (step hub) (Initial hub) timely drilled ∧ Available drilled := by
  unfold drilled after
  exact played (P := Available) ledger_initial (by decide +kernel)

theorem drilled_windowBacked : Available drilled ∧ WindowBacked drilled.stored :=
  ⟨drilled_reach.2, windowBacked_of_reach drilled_reach.1⟩

end Window

end Mspsql
