import Mspsql.Hub.Declarations
import Mspsql.Hub.Ownership
import Mspsql.Hub.Slots

/-!
# The instances of a hub

All instances share the directive ConfigMaps.  Each one is a hub machine of its own that
works on the common list.
-/

namespace Mspsql

open MultiSitePostgres HubState Sample List

variable {s t : HubState} {config : HubConfig}

/-! ## Directives of upgrades and declarations -/

def Unscheduled (m : DirectiveMap) : Prop := ∀ type slot, m.name ≠ backupDirectiveName type slot

theorem unscheduled_of_name {m : DirectiveMap} {front rest : String}
    (hname : m.name = front ++ rest) (hlength : 8 ≤ front.length)
    (hfront : front.toList.take 8 ≠ "mspsql-backup-".toList.take 8) : Unscheduled m := by
  intro type slot
  rw [hname, backupDirectiveName, String.append_assoc, String.append_assoc]
  exact Text.append_ne_append _ _ 8 hlength (by decide) hfront

theorem reconcileDirective_name (stored : Option DirectiveMap) (object : DeclaredObject)
    (deleting : Bool) (h : ∀ m, stored = some m → m.name = object.directiveName) :
    (reconcileDirective stored object deleting).name = object.directiveName := by
  cases stored with
  | none => rfl
  | some m => exact h m rfl

theorem unscheduled_declared {m : DirectiveMap} (object : DeclaredObject)
    (h : m.name = object.directiveName) : Unscheduled m := by
  unfold DeclaredObject.directiveName at h
  split at h
  · exact unscheduled_of_name h (by decide) (by decide)
  · exact unscheduled_of_name h (by decide) (by decide)

def NamesApart (writes : List UpgradeWrite) : Prop :=
  ∀ m, .createDirective m ∈ writes → Unscheduled m

variable {writes : List UpgradeWrite} {upgrade : PostgresUpgrade}

theorem UpgradeCase.namesApart {reads : HubReads} {view : MultiSitePostgres}
    (h : UpgradeCase reads upgrade view writes) : NamesApart writes := by
  intro m hm
  have hquiet (h : Quiet upgrade view (.createDirective m)) : Unscheduled m := by
    cases h with
    | createDirective name =>
      rcases name with name | name <;> exact unscheduled_of_name name (by decide) (by decide)
  cases h with
  | quiet h => exact hquiet (h _ hm)
  | move _ h =>
    rcases mem_pair.mp hm with hm | rfl
    · cases hm
    · exact hquiet h
  | finish => rcases mem_pair.mp hm with hm | hm <;> cases hm
  | complete | conflict => cases mem_singleton.mp hm
  | clear _ _ h =>
    rcases mem_cons.mp hm with hm | hm
    · cases hm
    · exact hquiet ((h _ hm).resolve_left nofun)
  | keep _ _ h => exact hquiet ((h _ hm).resolve_left nofun)

/-! ## One instance of the fleet -/

namespace HubState

def present (s : HubState) : Bool := ¬ (s.stored.deleting = true ∧ s.stored.finalizer = false)

/-- The slots in every version of an instance, and in the status it has still to write, are
recorded with their directives as long as the instance is there. -/
structure SlotsKept (maps : List DirectiveMap) (s : HubState) : Prop where
  identity : s.Throughout fun v => v.identity = s.stored.identity
  recorded : s.present = true →
    s.Throughout fun v => ∀ e ∈ v.status.backupSchedules, EntryRecorded maps v e
  pending : s.present = true → ∀ d, s.pending = some d →
    ∀ e ∈ d.backupSchedules, EntryRecorded maps s.stored e

theorem EntryRecorded.of_slots {maps : List DirectiveMap} {i j : MultiSitePostgres}
    (hidentity : i.identity = j.identity)
    (hslots : j.status.backupSchedules.map (·.slot) = i.status.backupSchedules.map (·.slot))
    (h : ∀ e ∈ i.status.backupSchedules, EntryRecorded maps i e) :
    ∀ e ∈ j.status.backupSchedules, EntryRecorded maps j e := by
  intro e he
  have hmem : e.slot ∈ i.status.backupSchedules.map (·.slot) :=
    hslots ▸ mem_map_of_mem he
  obtain ⟨e', he', hslot⟩ := mem_map.mp hmem
  exact (h e' he').mono hidentity hslot fun _ => id

/-- What an event of one instance does to the shared directives: those of others stay, and
its own ones stay as long as it is there. -/
structure MapsStep (s t : HubState) : Prop where
  identity : t.stored.identity = s.stored.identity
  present : t.present = true → s.present = true
  others : ∀ m ∈ s.directives, m.ownerUID ≠ s.stored.uid → m ∈ t.directives
  kept : t.present = true → ∀ m ∈ s.directives, m ∈ t.directives
  new : ∀ m ∈ t.directives, m ∈ s.directives ∨ Unscheduled m ∨
    ∃ type ∈ backupTypes, ∃ slot, m = backupDirective s.stored type slot

theorem MapsStep.of_directives_eq (hdirectives : t.directives = s.directives)
    (hidentity : t.stored.identity = s.stored.identity)
    (hpresent : t.present = true → s.present = true) : MapsStep s t where
  identity := hidentity
  present := hpresent
  others _ hm _ := hdirectives ▸ hm
  kept _ _ hm := hdirectives ▸ hm
  new _ hm := .inl (hdirectives ▸ hm)

theorem applyUpgradeWrites_maps {name : String} (h : NamesApart writes) : MapsStep s
    (s.applyUpgradeWrites name writes) := by
  have hsame := applyUpgradeWrites_stored
    (P := fun i => i.identity = s.stored.identity ∧ i.deleting = s.stored.deleting ∧
      i.finalizer = s.stored.finalizer) ⟨rfl, rfl, rfl⟩ (fun _ _ _ h => h) name writes
  have hdirectives : (∀ m ∈ s.directives, m ∈ (s.applyUpgradeWrites name writes).directives) ∧
      ∀ m ∈ (s.applyUpgradeWrites name writes).directives, m ∈ s.directives ∨ Unscheduled m := by
    clear hsame
    induction writes generalizing s with
    | nil => exact ⟨fun _ => id, fun _ => .inl⟩
    | cons w rest ih =>
      obtain ⟨hkept, hnew⟩ := ih fun m hm => h m (mem_cons_of_mem _ hm)
      have hone : (∀ m ∈ s.directives, m ∈ (applyUpgradeWrite name s w).directives) ∧
          ∀ m ∈ (applyUpgradeWrite name s w).directives, m ∈ s.directives ∨ Unscheduled m := by
        cases w with
        | patchInstance kind base modified =>
          unfold applyUpgradeWrite
          dsimp only
          split <;> exact ⟨fun _ => id, fun _ => .inl⟩
        | createDirective map =>
          refine ⟨fun m hm => mem_append_left _ hm, fun m hm => ?_⟩
          rcases mem_append.mp hm with hm | hm
          · exact .inl hm
          · exact .inr (mem_singleton.mp hm ▸ h map mem_cons_self)
        | _ => exact ⟨fun _ => id, fun _ => .inl⟩
      exact ⟨fun m hm => hkept m (hone.1 m hm), fun m hm => (hnew m hm).elim (hone.2 m) .inr⟩
  refine ⟨hsame.1, ?_, fun m hm _ => hdirectives.1 m hm, fun _ => hdirectives.1,
    fun m hm => (hdirectives.2 m hm).imp_right .inl⟩
  rw [present, hsame.2.1, hsame.2.2]
  exact id

/-- When an instance reconcile may take place: a deleted instance is not cleaned up on an
old version nor up to its finalizer only, and the ConfigMaps named after the slots that are
due are the instance's own. -/
def slotsFree (config : HubConfig) (s : HubState) : HubEvent → Prop
  | .issue view _ _ now writes => (view.deleting = true → view = s.stored ∧ 0 < writes) ∧
      ∀ p ∈ dueSlots config.backups view now, Free s.directives view p.1 p.2
  | _ => True

instance (config : HubConfig) (s : HubState) (e : HubEvent) : Decidable (slotsFree config s e) := by
  unfold slotsFree
  cases_type HubEvent <;> infer_instance

theorem applyOutcome_maps {view : MultiSitePostgres} {o : Outcome} {writes : Nat}
    (hspec : SlotSpec s.directives view o) (hidentity : view.identity = s.stored.identity)
    (hdel : view.deleting = true → view = s.stored ∧ 0 < writes) :
    MapsStep s (s.applyOutcome view o writes) ∧
      ((s.applyOutcome view o writes).present = true → o.plans.length ≤ writes →
        (s.applyOutcome view o writes).directives = o.directives) := by
  have hnew : ∀ m ∈ o.directives, m ∈ s.directives ∨ Unscheduled m ∨
      ∃ type ∈ backupTypes, ∃ slot, m = backupDirective s.stored type slot :=
    fun m hm => ((hspec.directives.congr hidentity).new m hm).imp_right .inr
  have hmaps := s.applyOutcome_directives view o writes
  have hstored : (s.applyOutcome view o writes).stored.identity = s.stored.identity := by
    rcases s.applyOutcome_stored view o writes with ⟨h, -⟩ | ⟨f, h, -⟩ <;> rw [h]
    rfl
  have hpresent : (s.applyOutcome view o writes).present = true → s.present = true := by
    unfold applyOutcome present
    rw [writePlans_eq]
    dsimp only
    split
    · exact id
    split
    · rename_i hadd
      have hlive : s.stored.deleting = false := hadd.1 ▸ hspec.addFinalizer hadd.2
      simp [hlive]
    · split
      · simp +contextual [store]
      · exact id
  by_cases hwrites : writes < o.plans.length
  · rw [if_pos hwrites] at hmaps
    exact ⟨.of_directives_eq hmaps hstored hpresent, fun _ h => by omega⟩
  rw [if_neg hwrites] at hmaps
  by_cases hdelete : o.deletePlans = true
  · rw [if_pos hdelete] at hmaps
    have hgone : (s.applyOutcome view o writes).present = false := by
      obtain ⟨hview, hremove, hplans⟩ := hspec.deletePlans hdelete
      have hadd : ¬ o.addFinalizer = true := by
        intro h
        rw [hspec.addFinalizer h] at hview
        cases hview
      obtain ⟨rfl, hpositive⟩ := hdel hview
      unfold applyOutcome present
      rw [if_neg hwrites, if_neg (fun h => hadd h.2),
        if_pos ⟨rfl, hremove, by rw [hplans]; exact hpositive⟩]
      simp [store, hview]
    rw [← Bool.not_eq_true] at hgone
    refine ⟨⟨hstored, hpresent, fun m hm hother => ?_, fun h => absurd h hgone,
      fun m hm => ?_⟩, fun h => absurd h hgone⟩
    · rw [hmaps]
      exact mem_filter.mpr ⟨hspec.directives.kept m hm, by simpa using hother⟩
    · rw [hmaps] at hm
      exact hnew m (mem_of_mem_filter hm)
  · rw [if_neg hdelete] at hmaps
    refine ⟨⟨hstored, hpresent, fun m hm _ => ?_, fun _ m hm => ?_, fun m hm => ?_⟩,
      fun _ _ => hmaps⟩
    · exact hmaps ▸ hspec.directives.kept m hm
    · exact hmaps ▸ hspec.directives.kept m hm
    · exact hnew m (hmaps ▸ hm)

theorem step_maps {e : HubEvent} (hkept : SlotsKept s.directives s)
    (howned : MapsOwned s.directives s.stored) (hok : slotsFree config s e)
    (hstep : StepCase config s e t) : MapsStep s t := by
  cases hstep with
  | issue hview hpend =>
    rename_i view reads fails now writes
    have hidentity := hkept.identity.versions view hview
    exact (applyOutcome_maps (reconcile_slots _ fails (howned.congr hidentity.symm) hok.2)
      hidentity hok.1).1
  | upgrade hfound hview =>
    exact applyUpgradeWrites_maps fun m hm =>
      (reconcileUpgrade_case ..).namesApart m (mem_of_mem_take hm)
  | backupResult hrecords | upgradeBackupSucceeded hrecords =>
    refine .of_directives_eq rfl ?_ ?_
    · rw [hrecords.eq]
      rfl
    · rw [hrecords.eq]
      exact id
  | delete =>
    refine .of_directives_eq rfl rfl ?_
    simp +contextual [store, present]
  | _ => exact .of_directives_eq rfl rfl id

/-- What has to be shown of the instance and of the status in progress. -/
theorem SlotsKept.of_maps {e : HubEvent} (hstep : StepCase config s e t)
    (hkept : SlotsKept s.directives s) (hmaps : MapsStep s t)
    (hstored : s.present = true → ∀ e ∈ t.stored.status.backupSchedules,
      EntryRecorded s.directives t.stored e)
    (hpend : t.present = true → ∀ d, t.pending = some d → ∀ e ∈ d.backupSchedules,
      EntryRecorded t.directives s.stored e) :
    SlotsKept t.directives t where
  identity := by
    rw [hmaps.identity]
    exact hstep.throughout hkept.identity hmaps.identity
  recorded ht :=
    have hs := hmaps.present ht
    have h := hstep.throughout (hkept.recorded hs) (hstored hs)
    have hmono : ∀ v e, EntryRecorded s.directives v e → EntryRecorded t.directives v e :=
      fun v e he => he.mono rfl rfl fun _ hm => hmaps.kept ht _ hm
    ⟨fun e he => hmono _ e (h.stored e he), fun v hv e he => hmono v e (h.versions v hv e he)⟩
  pending ht d hd e he := (hpend ht d hd e he).mono hmaps.identity.symm rfl fun _ => id

theorem SlotsKept.step {e : HubEvent} (hkept : SlotsKept s.directives s)
    (howned : MapsOwned s.directives s.stored) (hok : slotsFree config s e)
    (hstep : StepCase config s e t) : SlotsKept t.directives t := by
  have hmaps := step_maps hkept howned hok hstep
  have hnew := SlotsKept.of_maps hstep hkept hmaps
  have hsame : t.stored.status.backupSchedules.map (·.slot) =
      s.stored.status.backupSchedules.map (·.slot) → t.pending = s.pending →
        SlotsKept t.directives t := by
    intro hslots hp
    refine hnew (fun hs => EntryRecorded.of_slots hmaps.identity.symm hslots
      (hkept.recorded hs).stored) ?_
    intro ht d hd e he
    exact (hkept.pending (hmaps.present ht) d (hp ▸ hd) e he).mono rfl rfl
      fun _ hm => hmaps.kept ht _ hm
  cases hstep with
  | issue hview hnone =>
    rename_i view reads fails now writes
    have hidentity := hkept.identity.versions view hview
    have hspec : SlotSpec s.directives view (s.outcome config view reads fails now) :=
      reconcile_slots _ fails (howned.congr hidentity.symm) hok.2
    refine hnew (fun hs => ?_) fun ht d hd e he => ?_
    · obtain ⟨f, hstored⟩ := s.applyOutcome_finalizer view _ writes
      rw [hstored]
      exact (hkept.recorded hs).stored
    rw [applyOutcome_pending] at hd
    split at hd
    · rw [hnone] at hd
      cases hd
    rw [(applyOutcome_maps hspec hidentity hok.1).2 ht (by omega)]
    exact (hspec.status ((hkept.recorded (hmaps.present ht)).versions view hview) d hd e he).mono
      hidentity rfl fun _ => id
  | commit hdesired =>
    exact hnew (fun hs e he => (hkept.pending hs _ hdesired e he).mono rfl rfl fun _ => id)
      fun _ d hd => by cases hd
  | abandon => exact hnew (fun hs => (hkept.recorded hs).stored) fun _ d hd => by cases hd
  | upgrade hfound hview =>
    refine hsame ?_ ?_
    · rw [applyUpgradeWrites_status]
    · rw [applyUpgradeWrites_eq]
  | backupResult hrecords | upgradeBackupSucceeded hrecords => exact hsame hrecords.slots rfl
  | _ => exact hsame rfl rfl

theorem SlotsKept.mono {maps maps' : List DirectiveMap} {s' : HubState} (h : SlotsKept maps s)
    (hstored : s'.stored = s.stored) (hvers : s'.versions = s.versions)
    (hpend : s'.pending = s.pending)
    (hmaps : ∀ type slot, backupDirective s.stored type slot ∈ maps →
      backupDirective s.stored type slot ∈ maps') : SlotsKept maps' s' := by
  have hpresent : s'.present = s.present := by rw [present, hstored, present]
  have hmono : ∀ v e, v.identity = s.stored.identity → EntryRecorded maps v e →
      EntryRecorded maps' v e := by
    intro v e hv he
    refine he.mono rfl rfl fun slot hm => ?_
    rw [backupDirective_congr hv rfl] at hm ⊢
    exact hmaps _ slot hm
  refine ⟨⟨rfl, ?_⟩, fun hs => ⟨?_, ?_⟩, fun hs => ?_⟩
  · rw [hstored, hvers]
    exact h.identity.versions
  · rw [hstored]
    exact fun e he => hmono _ e rfl ((h.recorded (hpresent ▸ hs)).stored e he)
  · rw [hvers]
    exact fun v hv e he => hmono v e (h.identity.versions v hv)
      ((h.recorded (hpresent ▸ hs)).versions v hv e he)
  · rw [hpend, hstored]
    exact fun d hd e he => hmono _ e rfl (h.pending (hpresent ▸ hs) d hd e he)

end HubState

/-! ## The fleet -/

structure Fleet where
  hubs : List HubState := []
  directives : List DirectiveMap := []
deriving DecidableEq

inductive FleetEvent where
  /-- An instance is created. -/
  | create (instance' : MultiSitePostgres)
  /-- An event of the instance with that UID. -/
  | act (uid : String) (event : HubEvent)
  /-- A declaration controller issues the directive of an object. -/
  | declare (object : DeclaredObject) (deleting : Bool)

namespace Fleet

def hub? (f : Fleet) (uid : String) : Option HubState :=
  (f.hubs.find? (·.stored.uid = uid)).map fun s => { s with directives := f.directives }

def step (config : HubConfig) (f : Fleet) : FleetEvent → Option Fleet
  | .create i =>
    if Admitted config.library i.spec ∧ i.status = {} ∧ i.annotations = {} ∧ i.deleting = false ∧
        i.uid ∉ f.hubs.map (·.stored.uid) then
      some { f with hubs := { stored := i, versions := [i] } :: f.hubs }
    else none
  | .act uid event =>
    match f.hub? uid with
    | none => none
    | some s => (s.step config event).map fun t =>
        { hubs := f.hubs.map fun other => if other.stored.uid = uid then t else other
          directives := t.directives }
  | .declare object deleting =>
    let name := object.directiveName
    some { f with
      directives := f.directives.filter
          (fun m => ¬ (m.namespaceName = object.namespaceName ∧ m.name = name)) ++
        [reconcileDirective (findDirective f.directives object.namespaceName name) object
          deleting] }

/-- Every instance reconcile finds the names of its due slots free. -/
def slotsFree (config : HubConfig) (f : Fleet) : FleetEvent → Prop
  | .act uid event => ∀ s, f.hub? uid = some s → s.slotsFree config event
  | _ => True

instance (config : HubConfig) (f : Fleet) (e : FleetEvent) : Decidable (slotsFree config f e) := by
  unfold slotsFree
  split <;> infer_instance

/-- Every slot an instance has recorded has a ConfigMap with its operation UID that the
control server trusts. -/
def SlotsBacked (f : Fleet) : Prop :=
  ∀ s ∈ f.hubs, s.present = true → ∀ entry ∈ s.stored.status.backupSchedules,
    entry.lastScheduledAt.isSome = true → ∃ map ∈ f.directives,
      map.namespaceName = s.stored.namespaceName ∧
      some map.operationUID = entry.operation.map (·.operationUID) ∧
      scheduledBackupDirectiveTrusted map s.stored = true
deriving Decidable

/-- The invariant: directives have one origin, and every hub keeps its slots. -/
structure Consistent (f : Fleet) : Prop where
  uids : (f.hubs.map (·.stored.uid)).Nodup
  source : ∀ m ∈ f.directives, Unscheduled m ∨
    ∃ s ∈ f.hubs, ∃ type ∈ backupTypes, ∃ slot, m = backupDirective s.stored type slot
  kept : ∀ s ∈ f.hubs, SlotsKept f.directives s

namespace Consistent

variable {f : Fleet}

theorem hub_unique (h : f.Consistent) {s' : HubState} (hs : s ∈ f.hubs) (hs' : s' ∈ f.hubs)
    (huid : s.stored.uid = s'.stored.uid) : s = s' :=
  inj_on_of_nodup_map h.uids hs hs' huid

theorem owned (h : f.Consistent) (hs : s ∈ f.hubs) : MapsOwned f.directives s.stored := by
  intro m hm type htype slot _ hname huid
  rcases h.source m hm with hother | ⟨s', hs', type', htype', slot', rfl⟩
  · exact absurd hname (hother type slot)
  obtain rfl := h.hub_unique hs' hs huid
  obtain ⟨rfl, hslot⟩ := backupDirectiveName_inj htype' htype hname
  exact backupDirective_congr rfl hslot

theorem create {i : MultiSitePostgres} (h : f.Consistent) (hstatus : i.status = {})
    (hfresh : i.uid ∉ f.hubs.map (·.stored.uid)) :
    Consistent { f with hubs := { stored := i, versions := [i] } :: f.hubs } where
  uids := nodup_cons.mpr ⟨hfresh, h.uids⟩
  source m hm := by
    refine (h.source m hm).imp_right ?_
    rintro ⟨s, hs, hslot⟩
    exact ⟨s, mem_cons_of_mem _ hs, hslot⟩
  kept s hs := by
    rcases mem_cons.mp hs with rfl | hs
    · have hnone : ∀ e ∈ i.status.backupSchedules, EntryRecorded f.directives i e := by
        rw [hstatus]
        exact nofun
      exact ⟨⟨rfl, forall_mem_singleton.mpr rfl⟩,
        fun _ => ⟨hnone, forall_mem_singleton.mpr hnone⟩, fun _ d hd => by cases hd⟩
    · exact h.kept s hs

theorem declare (h : f.Consistent) (object : DeclaredObject) (deleting : Bool) :
    Consistent { f with
      directives := f.directives.filter (fun m =>
          ¬ (m.namespaceName = object.namespaceName ∧ m.name = object.directiveName)) ++
        [reconcileDirective (findDirective f.directives object.namespaceName object.directiveName)
          object deleting] } where
  uids := h.uids
  source m hm := by
    rcases mem_append.mp hm with hm | hm
    · exact h.source m (mem_of_mem_filter hm)
    rw [mem_singleton.mp hm]
    refine .inl (unscheduled_declared object (reconcileDirective_name _ _ _ ?_))
    intro m hfound
    have := find?_some hfound
    simp_all
  kept s hs := by
    refine (h.kept s hs).mono rfl rfl rfl fun type slot hm => mem_append_left _ ?_
    refine mem_filter.mpr ⟨hm, decide_eq_true fun hname => ?_⟩
    exact unscheduled_declared object hname.2 type slot rfl

theorem act {event : HubEvent} (h : f.Consistent) (hs : s ∈ f.hubs)
    (hok : HubState.slotsFree config { s with directives := f.directives } event)
    (hstep : StepCase config { s with directives := f.directives } event t) :
    Consistent { hubs := f.hubs.map fun other =>
        if other.stored.uid = s.stored.uid then t else other
                 directives := t.directives } := by
  have hown : SlotsKept f.directives { s with directives := f.directives } :=
    (h.kept s hs).mono rfl rfl rfl fun _ _ => id
  have hmaps := step_maps hown (h.owned hs) hok hstep
  have hkept := hown.step (h.owned hs) hok hstep
  have huid : t.stored.uid = s.stored.uid := congrArg (·.2.2) hmaps.identity
  have hmem : ∀ s' ∈ f.hubs, ∃ t' ∈ f.hubs.map (fun other =>
      if other.stored.uid = s.stored.uid then t else other),
      s'.stored.identity = t'.stored.identity := by
    intro s' hs'
    refine ⟨_, mem_map_of_mem hs', ?_⟩
    split
    · rename_i heq
      rw [h.hub_unique hs' hs heq]
      exact hmaps.identity.symm
    · rfl
  refine ⟨?_, fun m hm => ?_, fun s' hs' => ?_⟩
  · have huids : (f.hubs.map fun other => if other.stored.uid = s.stored.uid then t else other).map
        (·.stored.uid) = f.hubs.map (·.stored.uid) := by
      rw [map_map]
      refine map_congr_left fun other _ => ?_
      dsimp only [Function.comp]
      split
      · rename_i heq
        rw [huid, heq]
      · rfl
    rw [huids]
    exact h.uids
  · have hslot : ∀ s' ∈ f.hubs, ∀ type ∈ backupTypes, ∀ slot,
        m = backupDirective s'.stored type slot → ∃ t' ∈ f.hubs.map (fun other =>
          if other.stored.uid = s.stored.uid then t else other),
          ∃ type ∈ backupTypes, ∃ slot, m = backupDirective t'.stored type slot := by
      intro s' hs' type htype slot hm
      obtain ⟨t', ht', hidentity⟩ := hmem s' hs'
      exact ⟨t', ht', type, htype, slot, hm.trans (backupDirective_congr hidentity rfl)⟩
    rcases hmaps.new m hm with hm | hm | ⟨type, htype, slot, hm⟩
    · rcases h.source m hm with hm | ⟨s', hs', type, htype, slot, hm⟩
      · exact .inl hm
      · exact .inr (hslot s' hs' type htype slot hm)
    · exact .inl hm
    · exact .inr (hslot s hs type htype slot hm)
  · obtain ⟨other, hother, rfl⟩ := mem_map.mp hs'
    split
    · exact hkept
    · rename_i hne
      exact (h.kept other hother).mono rfl rfl rfl fun type slot hm => hmaps.others _ hm hne

theorem step {g : Fleet} {e : FleetEvent} (h : f.Consistent) (hok : slotsFree config f e)
    (hstep : f.step config e = some g) : g.Consistent := by
  cases e with
  | create i =>
    simp only [Fleet.step] at hstep
    split at hstep
    · rename_i hi
      exact Option.some.inj hstep ▸ h.create hi.2.1 hi.2.2.2.2
    · cases hstep
  | act uid event =>
    simp only [Fleet.step] at hstep
    split at hstep
    · cases hstep
    rename_i s hs
    obtain ⟨t, ht, rfl⟩ := Option.map_eq_some_iff.mp hstep
    have hfree := hok s hs
    obtain ⟨s', hs', rfl⟩ := Option.map_eq_some_iff.mp hs
    have huid : s'.stored.uid = uid := by simpa using find?_some hs'
    subst huid
    exact h.act (mem_of_find?_eq_some hs') hfree (step_case ht)
  | declare object deleting => exact Option.some.inj hstep ▸ h.declare object deleting

end Consistent

theorem Consistent.slotsBacked {f : Fleet} (h : f.Consistent) : f.SlotsBacked := by
  intro s hs hpresent entry hentry hslot
  obtain ⟨slot, hslot⟩ := Option.isSome_iff_exists.mp hslot
  obtain ⟨htype, hstored, hop, hmem⟩ :=
    ((h.kept s hs).recorded hpresent).stored entry hentry slot hslot
  refine ⟨_, hmem, rfl, hop.symm, ?_⟩
  have hfound : ∃ e ∈ s.stored.status.backupSchedules,
      e.type = entry.type ∧ e.lastScheduledAt = some slot := ⟨entry, hentry, rfl, hslot⟩
  simpa [scheduledBackupDirectiveTrusted, backupDirective, hstored] using hfound

open Machine

/-- In every run in which due slots find their names free, every recorded slot has a
directive that the control server trusts. -/
theorem slotsBacked_of_reach {config : HubConfig} {f : Fleet}
    (h : Reach (step config) (· = {}) (slotsFree config) f) : f.SlotsBacked := by
  refine Consistent.slotsBacked (h.invariant ?_ fun f e g hf hok hstep => hf.step hok hstep)
  rintro f rfl
  exact ⟨nodup_nil, fun m hm => (by cases hm), fun s hs => by cases hs⟩

/-! ## Concrete runs -/

/-- A second instance with the same schedules and its own repository and credentials. -/
def billing : MultiSitePostgres :=
  { ledger with
    name := "billing"
    uid := "billing-uid"
    spec := { ledger.spec with
      backup := some { backup with repository := { backup.repository with
        pathPrefix := "billing"
        credentialVaultRef := { mount := "secret", path := "postgres/billing/pgbackrest" } } }
      credentials := {
        postgresVaultRef := { mount := "secret", path := "postgres/billing/bootstrap" }
        pgpoolVaultRef := { mount := "secret", path := "postgres/billing/pgpool" } } } }

def listed : HubReads := { reads with instances := [ledger, billing] }

def onHub (i : MultiSitePostgres) (event : HubState → HubEvent) (f : Fleet) : FleetEvent :=
  .act i.uid (event ((f.hub? i.uid).getD (created i)))

/-- The first reconcile, a day before the others: the schedules are due after it. -/
def dayBefore (s : HubState) : HubEvent :=
  .issue s.stored listed (fun _ => false) (-86400 * second) s.stored.spec.sites.length

/-- The instance is created, rolled out and backed up, and then reconciled when its next
backups are due. -/
def scheduled (i : MultiSitePostgres) : List (Fleet → FleetEvent) :=
  (fun _ => .create i) ::
    (dayBefore :: (rollOut listed).tail ++
      [evidence, reconcileWith listed, commit]).map (onHub i)

/-- The instance is orphaned and deleted, and its cleanup stops before the finalizer. -/
def orphaned (i : MultiSitePostgres) : List (Fleet → FleetEvent) :=
  [fun s => .annotate { s.stored.annotations with forceOrphan := true }, fun _ => .delete,
    fun s => .issue s.stored listed (fun _ => false) 0 0].map (onHub i)

/-- Two instances of one namespace with equal schedules share their directives; and the
directives are deleted before the instance is gone. -/
theorem absorbed_not_backed :
    (∃ f, Reach (step hub) (· = {}) anyStep f ∧
        (∀ s ∈ f.hubs, s.stored.deleting = false) ∧ ¬ f.SlotsBacked) ∧
      ∃ f, Reach (step hub) (· = {}) anyStep f ∧
        f.hubs.length = 1 ∧ ¬ f.SlotsBacked := by
  refine ⟨⟨reached (step hub) anyStep {} (scheduled ledger ++ scheduled billing), ?_⟩,
    ⟨reached (step hub) anyStep {} (scheduled ledger ++ orphaned ledger), ?_⟩⟩
  · exact played (P := fun f : Fleet =>
      (∀ s ∈ f.hubs, s.stored.deleting = false) ∧ ¬ f.SlotsBacked) rfl (by decide +kernel)
  · exact played (P := fun f : Fleet => f.hubs.length = 1 ∧ ¬ f.SlotsBacked) rfl (by decide +kernel)

/-- Equal schedules do no harm in different namespaces. -/
def apart : Fleet := reached (step hub) (slotsFree hub) {}
  (scheduled ledger ++ scheduled { billing with namespaceName := "finance" })

theorem apart_reach : Reach (step hub) (· = {}) (slotsFree hub) apart ∧
    apart.directives.length = 6 :=
  played (P := fun f : Fleet => f.directives.length = 6) rfl (by decide +kernel)

theorem apart_slotsBacked : apart.directives.length = 6 ∧ apart.SlotsBacked :=
  ⟨apart_reach.2, slotsBacked_of_reach apart_reach.1⟩

end Fleet

end Mspsql
