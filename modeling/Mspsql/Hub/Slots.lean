import Mspsql.Hub.SystemSpec
import Mspsql.Lib.Lists
import Mspsql.Sample

/-!
# Scheduled backups of several instances

A directive for a scheduled backup is named after the backup type and the second of the
slot, not after the instance, and an existing ConfigMap of that name is taken as it is.
Two instances of one namespace whose schedules fire in the same second therefore meet in
one ConfigMap, and the second one records a slot that nobody will run.
-/

namespace Mspsql

open MultiSitePostgres List

def backupTypes : List String := ["full", "diff", "incr"]

/-! ## Directives of slots -/

theorem second_pos : (0 : Int) < second := by decide

@[simp] theorem unix_storedTime (t : Time) : unix (storedTime t) = unix t := by
  exact Int.mul_ediv_cancel _ (ne_of_gt second_pos)

theorem storedTime_storedTime (t : Time) : storedTime (storedTime t) = storedTime t := by
  rw [storedTime, unix_storedTime, storedTime]

variable {type : String} {slot now : Time} {i j : MultiSitePostgres} {maps : List DirectiveMap}
  {backup : BackupSpec} {config : BackupConfig}

theorem backupDirectiveName_inj {type' : String} {slot' : Time} (htype : type ∈ backupTypes)
    (htype' : type' ∈ backupTypes)
    (h : backupDirectiveName type slot = backupDirectiveName type' slot') :
    type = type' ∧ unix slot = unix slot' := by
  have hlength : ∀ t ∈ backupTypes, t.length = 4 := by decide
  obtain ⟨hfront, hunix⟩ := Text.append_inj h (by
    simp only [String.length_append, hlength type htype, hlength type' htype'])
  obtain ⟨hfront, -⟩ := Text.append_inj hfront (by
    simp only [String.length_append, hlength type htype, hlength type' htype'])
  obtain ⟨-, htypes⟩ := Text.append_inj hfront rfl
  exact ⟨htypes, Text.toString_int_inj hunix⟩

/-- The parts of an instance its directives carry. -/
def MultiSitePostgres.identity (i : MultiSitePostgres) : String × String × String :=
  (i.namespaceName, i.name, i.uid)

theorem backupDirective_congr (h : i.identity = j.identity) {slot' : Time}
    (hslot : unix slot = unix slot') :
    backupDirective i type slot = backupDirective j type slot' := by
  have hns : i.namespaceName = j.namespaceName := congrArg (·.1) h
  have hname : i.name = j.name := congrArg (·.2.1) h
  have huid : i.uid = j.uid := congrArg (·.2.2) h
  simp only [backupDirective, backupDirectiveName, scheduledBackupOperationUID, storedTime,
    hns, hname, huid, hslot]

def MapsOwned (maps : List DirectiveMap) (i : MultiSitePostgres) : Prop :=
  ∀ m ∈ maps, ∀ type ∈ backupTypes, ∀ slot, m.namespaceName = i.namespaceName →
    m.name = backupDirectiveName type slot → m.ownerUID = i.uid → m = backupDirective i type slot

/-- No ConfigMap of the slot belongs to anyone else. -/
def Free (maps : List DirectiveMap) (i : MultiSitePostgres) (type : String) (slot : Time) : Prop :=
  ∀ m ∈ maps, m.namespaceName = i.namespaceName → m.name = backupDirectiveName type slot →
    m.ownerUID = i.uid
deriving Decidable

/-- Directives of slots of the instance were added. -/
structure Extends (i : MultiSitePostgres) (maps maps' : List DirectiveMap) : Prop where
  kept : ∀ m ∈ maps, m ∈ maps'
  new : ∀ m ∈ maps', m ∈ maps ∨ ∃ type ∈ backupTypes, ∃ slot, m = backupDirective i type slot

namespace Extends

variable {i : MultiSitePostgres} {maps maps' maps'' : List DirectiveMap}

theorem refl (i : MultiSitePostgres) (maps : List DirectiveMap) : Extends i maps maps :=
  ⟨fun _ => id, fun _ => .inl⟩

theorem trans (h : Extends i maps maps') (h' : Extends i maps' maps'') : Extends i maps maps'' :=
  ⟨fun m hm => h'.kept m (h.kept m hm), fun m hm => (h'.new m hm).elim (h.new m) .inr⟩

theorem owned (h : Extends i maps maps') (howned : MapsOwned maps i) : MapsOwned maps' i := by
  intro m hm type htype slot hns hname huid
  rcases h.new m hm with hm | ⟨type', htype', slot', rfl⟩
  · exact howned m hm type htype slot hns hname huid
  · obtain ⟨rfl, hslot⟩ := backupDirectiveName_inj htype' htype hname
    exact backupDirective_congr rfl hslot

theorem free (h : Extends i maps maps') (hfree : Free maps i type slot) : Free maps' i type slot :=
    by
  intro m hm hns hname
  rcases h.new m hm with hm | ⟨type', -, slot', rfl⟩
  · exact hfree m hm hns hname
  · rfl

end Extends

theorem reconcileBackupDirective_spec (htype : type ∈ backupTypes) (howned : MapsOwned maps i)
    (hfree : Free maps i type slot) :
    Extends i maps (reconcileBackupDirective maps i type slot) ∧
      backupDirective i type slot ∈ reconcileBackupDirective maps i type slot := by
  unfold reconcileBackupDirective
  split
  · rename_i m hm
    have hmem := mem_of_find?_eq_some hm
    obtain ⟨hns, hname⟩ : m.namespaceName = i.namespaceName ∧
        m.name = backupDirectiveName type slot := by
      simpa using find?_some hm
    have huid := hfree m hmem hns hname
    exact ⟨.refl i maps, howned m hmem type htype slot hns hname huid ▸ hmem⟩
  · refine ⟨⟨fun m hm => mem_append_left _ hm, fun m hm => ?_⟩, mem_append_right _ mem_cons_self⟩
    rcases mem_append.mp hm with hm | hm
    · exact .inl hm
    · exact .inr ⟨type, htype, slot, mem_singleton.mp hm⟩

/-! ## One pass over the schedules -/

def dueSlot (config : BackupConfig) (i : MultiSitePostgres) (backup : BackupSpec) (now : Time)
    (configured : BackupSchedule) : Option Time :=
  match parseBackupSchedule config configured.expression backup.schedules.timezone with
  | .error _ => none
  | .ok next =>
    match (previousBackupScheduleStatus i.status.backupSchedules
      configured.backupType).nextScheduledAt with
    | none => none
    | some due => if due > now then none
      else (catchUp next now config.catchUpFuel due (next due)).map Prod.fst

def dueSlots (config : BackupConfig) (i : MultiSitePostgres) (now : Time) : List (String × Time) :=
  match i.spec.backup with
  | none => []
  | some backup => (configuredBackupSchedules backup config.defaultBackupSchedule).filterMap
      fun configured => (dueSlot config i backup now configured).map (configured.backupType, ·)

def EntryRecorded (maps : List DirectiveMap) (i : MultiSitePostgres)
    (entry : BackupScheduleStatus) : Prop :=
  ∀ slot, entry.lastScheduledAt = some slot → entry.type ∈ backupTypes ∧ storedTime slot = slot ∧
    entry.operation.map (·.operationUID) =
      some (scheduledBackupOperationUID i.uid entry.type slot) ∧
    backupDirective i entry.type slot ∈ maps

theorem EntryRecorded.mono {maps' : List DirectiveMap} {entry entry' : BackupScheduleStatus}
    (h : EntryRecorded maps i entry) (hidentity : i.identity = j.identity)
    (hslot : entry.slot = entry'.slot) (hmaps : ∀ slot, backupDirective i entry.type slot ∈ maps →
      backupDirective i entry.type slot ∈ maps') : EntryRecorded maps' j entry' := by
  have htype : entry.type = entry'.type := congrArg (·.1) hslot
  have hlast : entry.lastScheduledAt = entry'.lastScheduledAt := congrArg (·.2.1) hslot
  have hop : entry.operation.map (·.operationUID) = entry'.operation.map (·.operationUID) :=
    congrArg (·.2.2) hslot
  have huid : i.uid = j.uid := congrArg (·.2.2) hidentity
  intro slot hs
  obtain ⟨htypes, hstored, hoperation, hmem⟩ := h slot (hlast.trans hs)
  refine ⟨htype ▸ htypes, hstored, ?_, ?_⟩
  · rw [← hop, hoperation, huid, htype]
  · rw [← htype, ← backupDirective_congr hidentity rfl]
    exact hmaps slot hmem

theorem configuredBackupSchedules_types {defaultSchedule : String} {configured : BackupSchedule}
    (h : configured ∈ configuredBackupSchedules backup defaultSchedule) :
    configured.backupType ∈ backupTypes := by
  have hschedule : ∀ (type expression : String), type ∈ backupTypes →
      ∀ c ∈ (if expression = "" then [] else [(⟨type, expression⟩ : BackupSchedule)]),
        c.backupType ∈ backupTypes := by
    intro type expression htype c hc
    split at hc
    · cases hc
    · rw [mem_singleton.mp hc]
      exact htype
  have hfull := hschedule "full" backup.schedules.full (by decide)
  have hdiff := hschedule "diff" backup.schedules.differential (by decide)
  have hincr := hschedule "incr" backup.schedules.incremental (by decide)
  unfold configuredBackupSchedules at h
  rcases Lists.mem_of_mem_ite h with h | h
  · rw [mem_singleton.mp h]
    exact mem_cons_self
  rcases mem_append.mp h with h | h
  · rcases mem_append.mp h with h | h
    · exact hfull _ h
    · exact hdiff _ h
  · exact hincr _ h

theorem previousBackupScheduleStatus_recorded
    (h : ∀ e ∈ i.status.backupSchedules, EntryRecorded maps i e) (type : String) :
    EntryRecorded maps i { previousBackupScheduleStatus i.status.backupSchedules type with
      type := type } := by
  unfold previousBackupScheduleStatus
  cases hfind : i.status.backupSchedules.find? (fun s => s.type = type) with
  | none =>
    intro slot hslot
    cases hslot
  | some entry =>
    have htype : entry.type = type := by simpa using find?_some hfind
    rw [← htype]
    exact h entry (mem_of_find?_eq_some hfind)

theorem reconcileBackupSchedule_spec (canRun : Bool) (fails : String → Bool)
    {configured : BackupSchedule} (htype : configured.backupType ∈ backupTypes)
    (howned : MapsOwned maps i)
    (hfree : ∀ slot, dueSlot config i backup now configured = some slot →
      Free maps i configured.backupType slot) :
    Extends i maps (reconcileBackupSchedule config i backup now canRun fails maps configured).1 ∧
      ((∀ e ∈ i.status.backupSchedules, EntryRecorded maps i e) → ∀ entry,
        (reconcileBackupSchedule config i backup now canRun fails maps configured).2 = .ok entry →
          EntryRecorded (reconcileBackupSchedule config i backup now canRun fails maps configured).1
            i entry) := by
  have hprevious := fun h : ∀ e ∈ i.status.backupSchedules, EntryRecorded maps i e =>
    previousBackupScheduleStatus_recorded h configured.backupType
  unfold reconcileBackupSchedule
  unfold dueSlot at hfree
  split
  · exact ⟨.refl i maps, nofun⟩
  rename_i next hnext
  rw [hnext] at hfree
  dsimp only at hfree ⊢
  split
  · refine ⟨.refl i maps, fun hrecorded entry he => ?_⟩
    rw [← Except.ok.inj he]
    exact hprevious hrecorded
  · rename_i due hdue
    rw [hdue] at hfree
    dsimp only at hfree
    split
    · refine ⟨.refl i maps, fun hrecorded entry he => ?_⟩
      rw [← Except.ok.inj he]
      exact hprevious hrecorded
    · rename_i hnow
      split
      · exact ⟨.refl i maps, nofun⟩
      rename_i slot following hcatch
      split
      · exact ⟨.refl i maps, nofun⟩
      have hslot : Free maps i configured.backupType slot := by
        refine hfree slot ?_
        rw [if_neg (fun h => hnow (.inl h)), hcatch]
        rfl
      obtain ⟨hextends, hmem⟩ := reconcileBackupDirective_spec htype howned hslot
      refine ⟨hextends, fun hrecorded entry he => ?_⟩
      rw [← Except.ok.inj he]
      intro recorded hrec
      obtain rfl := Option.some.inj hrec
      refine ⟨htype, storedTime_storedTime slot, ?_, ?_⟩
      · simp only [Option.map_some, scheduledBackupOperation,
          scheduledBackupOperationUID, unix_storedTime]
      · rw [backupDirective_congr rfl (unix_storedTime slot)]
        exact hmem

theorem reconcileBackupScheduleList_spec {canRun : Bool} {fails : String → Bool}
    {schedules : List BackupSchedule} (htypes : ∀ c ∈ schedules, c.backupType ∈ backupTypes)
    (howned : MapsOwned maps i)
    (hfree : ∀ c ∈ schedules, ∀ slot, dueSlot config i backup now c = some slot →
      Free maps i c.backupType slot) :
    Extends i maps (reconcileBackupScheduleList config i backup now canRun fails maps schedules).1 ∧
      ((∀ e ∈ i.status.backupSchedules, EntryRecorded maps i e) → ∀ entries,
        (reconcileBackupScheduleList config i backup now canRun fails maps schedules).2 =
          .ok entries → ∀ e ∈ entries, EntryRecorded
            (reconcileBackupScheduleList config i backup now canRun fails maps schedules).1
              i e) := by
  induction schedules generalizing maps with
  | nil =>
    refine ⟨.refl i maps, fun _ entries he e hmem => ?_⟩
    rw [← Except.ok.inj he] at hmem
    cases hmem
  | cons c rest ih =>
    obtain ⟨hextends, hentry⟩ := reconcileBackupSchedule_spec canRun fails
      (htypes c mem_cons_self) howned (hfree c mem_cons_self)
    rw [reconcileBackupScheduleList]
    generalize reconcileBackupSchedule config i backup now canRun fails maps c = pass
      at hextends hentry
    obtain ⟨maps', outcome⟩ := pass
    have hkeep : ∀ e, EntryRecorded maps i e → EntryRecorded maps' i e := fun e he =>
      he.mono rfl rfl fun slot hm => hextends.kept _ hm
    cases outcome with
    | error e => exact ⟨hextends, nofun⟩
    | ok status =>
      obtain ⟨hrest, hentries⟩ := ih (fun c hc => htypes c (mem_cons_of_mem _ hc))
        (hextends.owned howned)
        (fun c hc slot hslot => hextends.free (hfree c (mem_cons_of_mem _ hc) slot hslot))
      dsimp only
      generalize reconcileBackupScheduleList config i backup now canRun fails maps' rest = passes
        at hrest hentries
      obtain ⟨maps'', outcomes⟩ := passes
      cases outcomes with
      | error e => exact ⟨hextends.trans hrest, nofun⟩
      | ok statuses =>
        refine ⟨hextends.trans hrest, fun hrecorded entries he e hmem => ?_⟩
        rw [← Except.ok.inj he] at hmem
        rcases mem_cons.mp hmem with rfl | hmem
        · exact (hentry hrecorded _ rfl).mono rfl rfl fun slot hm => hrest.kept _ hm
        · exact hentries (fun e he => hkeep e (hrecorded e he)) _ rfl e hmem

/-! ## A whole reconcile -/

theorem MapsOwned.congr (h : MapsOwned maps i) (hidentity : i.identity = j.identity) :
    MapsOwned maps j := by
  intro m hm type htype slot hns hname huid
  rw [h m hm type htype slot (hns.trans (congrArg (·.1) hidentity).symm) hname
    (huid.trans (congrArg (·.2.2) hidentity).symm)]
  exact backupDirective_congr hidentity rfl

theorem Free.congr (h : Free maps i type slot) (hidentity : i.identity = j.identity) :
    Free maps j type slot := by
  intro m hm hns hname
  exact (h m hm (hns.trans (congrArg (·.1) hidentity).symm) hname).trans
    (congrArg (·.2.2) hidentity)

theorem Extends.congr {maps' : List DirectiveMap} (h : Extends i maps maps')
    (hidentity : i.identity = j.identity) : Extends j maps maps' := by
  refine ⟨h.kept, fun m hm => (h.new m hm).imp id ?_⟩
  rintro ⟨type, htype, slot, rfl⟩
  exact ⟨type, htype, slot, backupDirective_congr hidentity rfl⟩

/-- What a reconcile on `view` does to directives and schedules. -/
structure SlotSpec (maps : List DirectiveMap) (view : MultiSitePostgres) (o : Outcome) : Prop where
  directives : Extends view maps o.directives
  status : (∀ e ∈ view.status.backupSchedules, EntryRecorded maps view e) →
    ∀ d, o.status = some d → ∀ e ∈ d.backupSchedules, EntryRecorded o.directives view e
  deletePlans : o.deletePlans = true → view.deleting = true ∧ o.removeFinalizer = true ∧
    o.plans = []
  addFinalizer : o.addFinalizer = true → view.deleting = false

theorem reconcileBackupSchedules_spec (canRun : Bool) (fails : String → Bool)
    (howned : MapsOwned maps i) (hfree : ∀ p ∈ dueSlots config i now, Free maps i p.1 p.2) :
    Extends i maps (reconcileBackupSchedules config i now canRun fails maps).1 ∧
      ((∀ e ∈ i.status.backupSchedules, EntryRecorded maps i e) → ∀ entries,
        (reconcileBackupSchedules config i now canRun fails maps).2 = .ok entries → ∀ e ∈ entries,
            EntryRecorded (reconcileBackupSchedules config i now canRun fails maps).1 i e) := by
  unfold reconcileBackupSchedules
  unfold dueSlots at hfree
  split
  · refine ⟨.refl i maps, fun _ entries he e hmem => ?_⟩
    rw [← Except.ok.inj he] at hmem
    cases hmem
  · rename_i hbackup
    rw [hbackup] at hfree
    exact reconcileBackupScheduleList_spec (fun c hc => configuredBackupSchedules_types hc) howned
      (fun c hc slot hslot => hfree (c.backupType, slot)
        (mem_filterMap.mpr ⟨c, hc, by rw [hslot]; rfl⟩))

theorem reconcile_slots (reads : HubReads) (fails : String → Bool) {view : MultiSitePostgres}
    (howned : MapsOwned maps view)
    (hfree : ∀ p ∈ dueSlots config view now, Free maps view p.1 p.2) :
    SlotSpec maps view (reconcile config reads maps fails now view) := by
  have hexit := reconcile_exit config reads maps fails now view
  generalize reconcile config reads maps fails now view = o at hexit
  have hquiet : ∀ {o : Outcome}, o.directives = maps → (∀ d, o.status = some d →
      d.backupSchedules = view.status.backupSchedules) → (o.deletePlans = true →
      view.deleting = true ∧ o.removeFinalizer = true ∧ o.plans = []) →
      (o.addFinalizer = true → view.deleting = false) → SlotSpec maps view o := by
    intro o hmaps hstatus hdelete hadd
    refine ⟨hmaps ▸ .refl view maps, fun hrecorded d hd e he => ?_, hdelete, hadd⟩
    rw [hmaps]
    exact hrecorded e (hstatus d hd ▸ he)
  cases hexit with
  | ignored => exact hquiet rfl (fun d hd => by cases hd) nofun nofun
  | released deleting =>
    exact hquiet rfl (fun d hd => by cases hd) (fun _ => ⟨deleting, rfl, rfl⟩) nofun
  | adopted deleting => exact hquiet rfl (fun d hd => by cases hd) nofun fun _ => deleting
  | blocked _ waits =>
    exact hquiet rfl (fun d hd => Option.some.inj hd ▸ waits.backupSchedules) nofun nofun
  | deletion _ hrevised waits =>
    subst hrevised
    exact hquiet rfl (fun d hd => (waits d hd).2.backupSchedules) nofun nofun
  | rejected _ _ _ withdrawn =>
    exact hquiet rfl (fun d hd => Option.some.inj hd ▸ backupSchedules_of_core withdrawn.core)
      nofun nofun
  | @issued hdel _ prepared inputs _ _ hobs =>
    dsimp only [issue]
    split
    · exact hquiet rfl (fun d hd => by cases hd) nofun nofun
    have hsettled := settled_core hobs inputs now
    generalize settle (withRevision prepared inputs) inputs now = settled at hsettled
    have hidentity : view.identity = settled.identity := (congrArg identity hsettled).symm
    have hspec : settled.spec = view.spec := congrArg (·.spec) hsettled
    have hschedules : settled.status.backupSchedules = view.status.backupSchedules :=
      congrArg (·.status.backupSchedules) hsettled
    have hdue : dueSlots config settled now = dueSlots config view now := by
      unfold dueSlots dueSlot
      rw [hspec, hschedules]
    have hentries : (∀ e ∈ view.status.backupSchedules, EntryRecorded maps view e) →
        ∀ e ∈ settled.status.backupSchedules, EntryRecorded maps settled e := by
      rw [hschedules]
      exact fun h e he => (h e he).mono hidentity rfl fun _ => id
    have hpass := fun canRun => reconcileBackupSchedules_spec canRun fails
      (howned.congr hidentity) (fun p hp => (hfree p (hdue ▸ hp)).congr hidentity)
    have hback : ∀ maps' e, EntryRecorded maps' settled e → EntryRecorded maps' view e :=
      fun maps' e he => he.mono hidentity.symm rfl fun _ => id
    specialize hpass (backupSchedulingReady settled inputs.restore inputs.upgrade inputs.major
      (lifecycleOperationActive reads settled))
    generalize reconcileBackupSchedules config settled now _ fails maps = passed at hpass
    obtain ⟨maps', outcome⟩ := passed
    obtain ⟨hextends, hok⟩ := hpass
    have hextends := hextends.congr hidentity.symm
    split
    · rename_i heq
      obtain ⟨rfl, -⟩ := Prod.mk.inj heq
      exact ⟨hextends, fun _ d hd => (by cases hd), nofun, nofun⟩
    · rename_i heq
      obtain ⟨rfl, -⟩ := Prod.mk.inj heq
      refine ⟨hextends, fun hrecorded d hd e he => ?_, nofun, nofun⟩
      rw [← Option.some.inj hd] at he
      exact hback _ _ ((hentries hrecorded e he).mono rfl rfl fun _ hm => hextends.kept _ hm)
    · rename_i heq
      obtain ⟨rfl, rfl⟩ := Prod.mk.inj heq
      refine ⟨hextends, fun hrecorded d hd e he => ?_, nofun, nofun⟩
      rw [← Option.some.inj hd] at he
      exact hback _ _ (hok (hentries hrecorded) _ rfl e he)

end Mspsql
