import Mspsql.Sample

/-!
# Catching up with missed backup slots

When a slot is overdue, the controller walks along the slots of the schedule to the first one
after the current time.  The cron library gives the zero time when there is none in the next
five years, and that is overdue again: the walk starts over and need not end
(`catchUp_returns_iff`).

With a schedule that always has a next slot, the walk ends at the last slot that is not after
the current time, and a pass over the schedules requests a backup for that slot alone
(`reconcileBackupSchedules_settles`).
-/

namespace Mspsql

open List

/-- `time.Time{}`, the first moment of year 1. -/
def zeroTime : Time := -62135596800 * second

variable {next : Time → Time} {now due slot following : Time}

/-! ## Whether the loop returns -/

/-- The walk from a slot comes to the zero time without passing the current time. -/
inductive RunsOut (next : Time → Time) (now : Time) : Time → Prop where
  | last {t : Time} : t ≤ now → next t = zeroTime → RunsOut next now t
  | later {t : Time} : t ≤ now → RunsOut next now (next t) → RunsOut next now t

/-- The walk from a slot passes the current time. -/
inductive Passes (next : Time → Time) (now : Time) : Time → Prop where
  | past {t : Time} : now < t → Passes next now t
  | later {t : Time} : t ≤ now → Passes next now (next t) → Passes next now t

theorem RunsOut.le {t : Time} (h : RunsOut next now t) : t ≤ now := by
  cases h <;> assumption

theorem isSome_catchUp_iff :
    (∃ fuel, (catchUp next now fuel due following).isSome = true) ↔ Passes next now following := by
  constructor
  · rintro ⟨fuel, h⟩
    induction fuel generalizing due following with
    | zero => cases h
    | succ fuel ih =>
      rw [catchUp] at h
      split at h
      · exact .past ‹_›
      · exact .later (not_lt.mp ‹_›) (ih h)
  · intro h
    induction h generalizing due with
    | past hpast => exact ⟨1, by rw [catchUp, if_pos hpast]; rfl⟩
    | later hle _ ih =>
      obtain ⟨fuel, h⟩ := ih
      exact ⟨fuel + 1, by rw [catchUp, if_neg (not_lt.mpr hle)]; exact h⟩

theorem passes_or_runsOut (hnext : ∀ t, t < next t ∨ next t = zeroTime) (t : Time) :
    Passes next now t ∨ RunsOut next now t := by
  by_cases hle : t ≤ now
  · rcases hnext t with hlt | hzero
    · exact (passes_or_runsOut hnext (next t)).imp (.later hle) (.later hle)
    · exact .inr (.last hle hzero)
  · exact .inl (.past (not_le.mp hle))
termination_by (now + 1 - t).toNat
decreasing_by
  exact (Int.toNat_lt_toNat (Int.sub_pos_of_lt (Int.lt_add_one_of_le hle))).mpr
    (Int.sub_lt_sub_left hlt _)

theorem RunsOut.not_passes {t : Time} (hzero : RunsOut next now zeroTime) (h : RunsOut next now t)
    (hpasses : Passes next now t) : False := by
  induction hpasses with
  | past hpast => exact absurd h.le (not_le.mpr hpast)
  | later _ _ ih =>
    cases h with
    | last _ heq => exact ih (heq ▸ hzero)
    | later _ h => exact ih h

/-- The catch-up loop returns unless the schedule runs out between the stored slot and now, and
once more between year 1 and now. -/
theorem catchUp_returns_iff (hnext : ∀ t, t < next t ∨ next t = zeroTime) (hdue : due ≤ now) :
    (∃ fuel, (catchUp next now fuel due (next due)).isSome = true) ↔
      ¬ (RunsOut next now due ∧ RunsOut next now zeroTime) := by
  rw [isSome_catchUp_iff]
  constructor
  · rintro hpasses ⟨h, hzero⟩
    exact hzero.not_passes h (.later hdue hpasses)
  · intro hnot
    rcases passes_or_runsOut hnext due with hpasses | hout
    · cases hpasses with
      | past hpast => exact absurd hdue (not_le.mpr hpast)
      | later _ h => exact h
    · have hzero := (passes_or_runsOut hnext zeroTime).resolve_right fun h => hnot ⟨hout, h⟩
      clear hnot hdue
      induction hout with
      | last _ heq => exact heq ▸ hzero
      | later _ h ih => exact .later h.le ih

/-- An hourly schedule never runs out. -/
theorem hourly_returns : (∀ t : Time, t < t + 3600 * second ∨ t + 3600 * second = zeroTime) ∧
    ((∃ fuel, (catchUp (· + 3600 * second) 0 fuel (-7200 * second)
        (-7200 * second + 3600 * second)).isSome = true) ↔
      ¬ (RunsOut (· + 3600 * second) 0 (-7200 * second) ∧
        RunsOut (· + 3600 * second) 0 zeroTime)) := by
  have hnext : ∀ t : Time, t < t + 3600 * second ∨ t + 3600 * second = zeroTime := fun t =>
    .inl (Int.lt_add_of_pos_right t (by decide))
  exact ⟨hnext, catchUp_returns_iff hnext (by decide)⟩

/-- The thirtieth of February is a schedule that the library accepts. -/
def leapless : BackupConfig where
  parseSchedule _ _ := some fun _ => zeroTime

theorem leapless_stuck : (parseBackupSchedule leapless "0 0 30 2 *" "").isOk = true ∧
    ¬ ∃ fuel, (catchUp (fun _ => zeroTime) 0 fuel (-60 * second) zeroTime).isSome = true := by
  refine ⟨rfl, fun h => ?_⟩
  have hzero : RunsOut (fun _ => zeroTime) 0 zeroTime := .last (by decide) rfl
  exact hzero.not_passes hzero (isSome_catchUp_iff.mp h)

/-! ## What a pass records, requests and waits for -/

/-- The slots of a schedule from one on. -/
def slotsFrom (next : Time → Time) (due : Time) : Set Time := Set.range fun n => next^[n] due

theorem catchUp_spec (hnext : ∀ t, t < next t) {fuel : Nat} (hdue : due ≤ now)
    (h : catchUp next now fuel due (next due) = some (slot, following)) :
    IsGreatest {t ∈ slotsFrom next due | t ≤ now} slot ∧
      IsLeast {t ∈ slotsFrom next due | now < t} following := by
  obtain ⟨n, hslot, hfollowing, hle, hlt⟩ : ∃ n, next^[n] due = slot ∧
      next^[n + 1] due = following ∧ slot ≤ now ∧ now < following := by
    induction fuel generalizing due with
    | zero => cases h
    | succ fuel ih =>
      rw [catchUp] at h
      split at h
      · cases h
        exact ⟨0, rfl, rfl, hdue, ‹_›⟩
      · obtain ⟨n, hslot, hfollowing, hbounds⟩ := ih (not_lt.mp ‹_›) h
        exact ⟨n + 1, hslot, hfollowing, hbounds⟩
  have hmono : StrictMono fun n => next^[n] due := by
    refine strictMono_nat_of_lt_succ fun n => ?_
    rw [Function.iterate_succ_apply']
    exact hnext _
  refine ⟨⟨⟨⟨n, hslot⟩, hle⟩, ?_⟩, ⟨⟨⟨n + 1, hfollowing⟩, hlt⟩, ?_⟩⟩
  · rintro _ ⟨⟨m, rfl⟩, hm⟩
    have : m < n + 1 := hmono.lt_iff_lt.mp (lt_of_le_of_lt hm (hfollowing ▸ hlt))
    exact hslot ▸ hmono.monotone (Nat.le_of_lt_succ this)
  · rintro _ ⟨⟨m, rfl⟩, hm⟩
    have : n < m := hmono.lt_iff_lt.mp (lt_of_le_of_lt (hslot ▸ hle) hm)
    exact hfollowing ▸ hmono.monotone this

/-- `Time.Sub`. -/
def timeSub (t u : Time) : Duration := max (-2 ^ 63) (min (2 ^ 63 - 1) (t - u))

def minimumPositiveDuration (current candidate : Duration) : Duration :=
  let candidate := if candidate < second then second else candidate
  if current = 0 ∨ candidate < current then candidate else current

theorem minimumPositiveDuration_foldl (candidates : List Duration) {current : Duration}
    (h : current = 0 ∨ second ≤ current) :
    (current ≠ 0 → candidates.foldl minimumPositiveDuration current ≤ current) ∧
      (∀ candidate ∈ candidates,
        candidates.foldl minimumPositiveDuration current ≤ max second candidate) ∧
      (candidates ≠ [] ∨ current ≠ 0 →
        second ≤ candidates.foldl minimumPositiveDuration current) := by
  induction candidates generalizing current with
  | nil => grind
  | cons candidate rest ih =>
    have hpos : (0 : Int) < second := by decide
    have hfirst : second ≤ minimumPositiveDuration current candidate ∧
        minimumPositiveDuration current candidate ≤ max second candidate ∧
        (current ≠ 0 → minimumPositiveDuration current candidate ≤ current) := by
      grind [minimumPositiveDuration]
    grind

section Pass

variable {config : BackupConfig} {i : MultiSitePostgres} {backup : BackupSpec} {canRun : Bool}
  {fails : String → Bool} {maps maps' : List DirectiveMap} {configured : BackupSchedule}
  {status : BackupScheduleStatus} {statuses : List BackupScheduleStatus}

/-- The entry that a pass starts from. -/
def previousEntry (i : MultiSitePostgres) (configured : BackupSchedule) : BackupScheduleStatus :=
  { previousBackupScheduleStatus i.status.backupSchedules configured.backupType with
    type := configured.backupType }

def overdue (i : MultiSitePostgres) (now : Time) (configured : BackupSchedule) : Bool :=
  (previousEntry i configured).nextScheduledAt.any (· ≤ now)

/-- The slots that a pass requests, read off its result. -/
def requests (i : MultiSitePostgres) (now : Time) (canRun : Bool)
    (passed : List (BackupSchedule × BackupScheduleStatus)) : List (String × Time) :=
  passed.filterMap fun p =>
    if canRun && overdue i now p.1 then p.2.lastScheduledAt.map (p.1.backupType, ·) else none

/-- The delay that `reconcileBackupSchedules` returns. -/
def nextReconcile (i : MultiSitePostgres) (now : Time) (canRun : Bool)
    (passed : List (BackupSchedule × BackupScheduleStatus)) : Duration :=
  (passed.map fun p => if overdue i now p.1 && !canRun then 30 * second
    else timeSub (p.2.nextScheduledAt.getD 0) now).foldl minimumPositiveDuration 0

def request (i : MultiSitePostgres) (maps : List DirectiveMap) (r : String × Time) :
    List DirectiveMap :=
  reconcileBackupDirective maps i r.1 r.2

/-- What a pass makes of the entry of one type. -/
structure Settled (config : BackupConfig) (i : MultiSitePostgres) (backup : BackupSpec)
    (now : Time) (canRun : Bool) (configured : BackupSchedule) (status : BackupScheduleStatus) :
    Prop where
  type : status.type = configured.backupType
  unchanged : (previousEntry i configured).nextScheduledAt.isSome →
    overdue i now configured = false ∨ canRun = false → status = previousEntry i configured
  caughtUp : ∀ due ∈ (previousEntry i configured).nextScheduledAt, due ≤ now → canRun = true →
    ∃ next slot following,
      parseBackupSchedule config configured.expression backup.schedules.timezone = .ok next ∧
      status.lastScheduledAt = some slot ∧ status.nextScheduledAt = some following ∧
      IsGreatest {t ∈ slotsFrom next due | t ≤ now} slot ∧
      IsLeast {t ∈ slotsFrom next due | now < t} following

/-- Every schedule has a next slot, and slots and stored times are whole seconds. -/
structure Regular (config : BackupConfig) (i : MultiSitePostgres) : Prop where
  next : ∀ expression timezone next, config.parseSchedule expression timezone = some next →
    ∀ t, t < next t ∧ storedTime (next t) = next t
  stored : ∀ entry ∈ i.status.backupSchedules, ∀ t ∈ entry.nextScheduledAt, storedTime t = t

theorem reconcileBackupSchedule_settles (hregular : Regular config i)
    (h : reconcileBackupSchedule config i backup now canRun fails maps configured =
      (maps', .ok status)) :
    Settled config i backup now canRun configured status ∧
      maps' = (requests i now canRun [(configured, status)]).foldl (request i) maps := by
  have hold : ∀ t ∈ (previousEntry i configured).nextScheduledAt, storedTime t = t := by
    intro t ht
    unfold previousEntry previousBackupScheduleStatus at ht
    cases hfind : i.status.backupSchedules.find? (fun s => s.type = configured.backupType) with
    | none => rw [hfind] at ht; cases ht
    | some entry =>
      rw [hfind] at ht
      exact hregular.stored entry (mem_of_find?_eq_some hfind) t ht
  rw [reconcileBackupSchedule] at h
  split at h
  · cases h
  rename_i next hparse
  have hnext : ∀ t, t < next t ∧ storedTime (next t) = next t := by
    rw [parseBackupSchedule] at hparse
    split at hparse <;> cases hparse
    exact hregular.next _ _ _ ‹_›
  rw [← previousEntry] at h
  dsimp only at h
  split at h
  · rename_i hnone
    cases h
    exact ⟨⟨rfl, by simp [hnone], by simp [hnone]⟩, by simp [requests, overdue, hnone]⟩
  rename_i due hdue
  have hoverdue : overdue i now configured = decide (due ≤ now) := by simp [overdue, hdue]
  split at h
  · cases h
    refine ⟨⟨rfl, fun _ _ => rfl, fun t ht hle hrun => ?_⟩, ?_⟩
    · grind
    · have hnot : (canRun && overdue i now configured) = false := by grind
      rw [requests, filterMap_cons_none (by rw [hnot]; rfl)]
      rfl
  rename_i hrun
  simp only [not_or, not_lt] at hrun
  split at h
  · cases h
  rename_i slot following hcatch
  split at h
  · cases h
  cases h
  obtain ⟨hgreatest, hleast⟩ := catchUp_spec (fun t => (hnext t).1) hrun.1 hcatch
  have hwhole : ∀ t ∈ slotsFrom next due, storedTime t = t := by
    rintro _ ⟨n, rfl⟩
    cases n with
    | zero => exact hold due hdue
    | succ n =>
      dsimp only
      rw [Function.iterate_succ_apply']
      exact (hnext _).2
  have hslot := hwhole slot hgreatest.1.1
  have hfollowing := hwhole following hleast.1.1
  refine ⟨⟨rfl, ?_, fun t ht _ _ => ?_⟩, ?_⟩
  · grind
  · obtain rfl : due = t := Option.some.inj (hdue.symm.trans ht)
    exact ⟨next, slot, following, hparse, congrArg some hslot, congrArg some hfollowing, hgreatest,
      hleast⟩
  · simp [requests, request, hoverdue, hrun, hslot]

theorem reconcileBackupScheduleList_settles (hregular : Regular config i)
    {schedules : List BackupSchedule}
    (h : reconcileBackupScheduleList config i backup now canRun fails maps schedules =
      (maps', .ok statuses)) :
    List.Forall₂ (Settled config i backup now canRun) schedules statuses ∧
      maps' = (requests i now canRun (schedules.zip statuses)).foldl (request i) maps := by
  induction schedules generalizing maps statuses with
  | nil =>
    cases h
    exact ⟨.nil, rfl⟩
  | cons configured rest ih =>
    rw [reconcileBackupScheduleList] at h
    split at h
    · cases h
    rename_i hfirst
    split at h
    · cases h
    rename_i hrest
    cases h
    obtain ⟨hsettled, hmaps⟩ := reconcileBackupSchedule_settles hregular hfirst
    obtain ⟨hsettleds, hmaps'⟩ := ih hrest
    refine ⟨.cons hsettled hsettleds, ?_⟩
    rw [hmaps', hmaps, ← foldl_append, requests, requests, ← filterMap_append]
    rfl

theorem nextReconcile_bounds {schedules : List BackupSchedule} (hne : schedules ≠ [])
    (hlength : schedules.length = statuses.length) :
    second ≤ nextReconcile i now true (schedules.zip statuses) ∧
      ∀ status ∈ statuses, ∀ t ∈ status.nextScheduledAt,
        nextReconcile i now true (schedules.zip statuses) ≤ max second (t - now) := by
  obtain ⟨-, hall, hleast⟩ := minimumPositiveDuration_foldl
    ((schedules.zip statuses).map fun p => if overdue i now p.1 && !true then 30 * second
      else timeSub (p.2.nextScheduledAt.getD 0) now) (.inl rfl)
  refine ⟨hleast (.inl ?_), fun status hstatus t ht => ?_⟩
  · cases statuses <;> cases schedules <;> simp_all
  · rw [← map_snd_zip hlength.ge] at hstatus
    obtain ⟨p, hp, rfl⟩ := mem_map.mp hstatus
    have hdelay := hall (timeSub t now)
      (mem_map.mpr ⟨p, hp, by rw [Bool.not_true, Bool.and_false, ht]; rfl⟩)
    have hpos : (0 : Int) < second := by decide
    refine hdelay.trans ?_
    unfold timeSub
    grind

end Pass

/-- Every schedule fires an hour after the second it is asked in. -/
def hourly : BackupConfig where
  parseSchedule _ _ := some fun t => (unix t + 3600) * second

theorem hourly_regular (i : MultiSitePostgres)
    (hstored : ∀ entry ∈ i.status.backupSchedules, ∀ t ∈ entry.nextScheduledAt,
      storedTime t = t) : Regular hourly i := by
  refine ⟨fun expression timezone next hnext t => ?_, hstored⟩
  cases hnext
  have hpos : (0 : Int) < second := by decide
  refine ⟨?_, congrArg (· * second) (Int.mul_ediv_cancel _ hpos.ne')⟩
  exact (Int.lt_ediv_add_one_mul_self t hpos).trans
    (Int.mul_lt_mul_of_pos_right (Int.add_lt_add_left (by decide) _) hpos)

/-- The example's instance with a full backup that was due at the epoch. -/
def overdueOrders : MultiSitePostgres :=
  { Sample.orders with
    status := { Sample.orders.status with
      backupSchedules := [{ type := "full", nextScheduledAt := some 0 }] } }

end Mspsql
