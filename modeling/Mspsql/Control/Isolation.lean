import Mspsql.Control.Receive

/-!
# What one site can change

A stream belongs to one registration, but what its messages change is found by what they say.
The result of a directive goes to the first ConfigMap with its operation UID, whether or not the
directive was ever sent on this stream; a plan message goes to the entry that carries the name of
the registration, whichever site the entry belongs to.  As long as messages keep to what the site
was sent and to its own entries, everything else stays (`isolated`).
-/

namespace Mspsql

open Wire List

/-! ## Confinement -/

structure ObjectKey where
  kind : ResultOwner
  namespaceName : String
  name : String
deriving DecidableEq

def ConfigMap.objects (m : ConfigMap) (owner : OwnerReference) : List ObjectKey :=
  match resultOwner? owner.kind with
  | none => []
  | some .upgrade => ⟨.upgrade, m.namespaceName, owner.name⟩ ::
      if m.value "type" = "Backup" then [⟨.postgres, m.namespaceName, m.value "instanceRef"⟩]
      else []
  | some kind => [⟨kind, m.namespaceName, owner.name⟩]

def MultiSitePostgres.References (registration : String) (i : MultiSitePostgres) : Prop :=
  ∃ site ∈ i.spec.sites, site.siteRegistrationRef = registration

def MultiSitePostgres.OwnSite (registration : String) (i : MultiSitePostgres) (name : String) :
    Prop :=
  ∃ site ∈ i.spec.sites, site.name = name ∧ site.siteRegistrationRef = registration

def MultiSitePostgres.key (i : MultiSitePostgres) :
    ObjectKey := ⟨.postgres, i.namespaceName, i.name⟩

/-- What may become of an instance: the entries of the registration's own sites, the trigger
annotation if it references the registration, and the rest of the status if its directive was
sent. -/
structure InstanceConfined (registration : String) (sent : List ObjectKey)
    (r r' : InstanceRecord) : Prop where
  eq : r'.stored = { r.stored with status := r'.stored.status }
  sites : List.Forall₂ (fun e e' => e'.name = e.name ∧
    (¬ r.stored.OwnSite registration e.name → e' = e)) r.stored.status.sites r'.stored.status.sites
  status : r.stored.key ∉ sent →
    r'.stored.status = { r.stored.status with sites := r'.stored.status.sites }
  observation : ¬ r.stored.References registration → r'.addressObservation = r.addressObservation

/-- Nothing else has changed than the registration, what `InstanceConfined` allows, and the
status of objects whose directive was sent. -/
structure Confined (registration : String) (sent : List ObjectKey) (before after : HubStore) :
    Prop where
  configMaps : after.configMaps = before.configMaps
  registrations : List.Forall₂ (fun r r' => r'.registration.name = r.registration.name ∧
    (r.registration.name ≠ registration → r' = r)) before.registrations after.registrations
  instances : List.Forall₂ (InstanceConfined registration sent) before.instances after.instances
  declared : List.Forall₂ (fun object object' =>
    object' = { object with status := object'.status } ∧
      (⟨.declared object.kind, object.namespaceName, object.name⟩ ∉ sent → object' = object))
    before.declared after.declared
  upgrades : List.Forall₂ (fun u u' => u' = (u.1, { u.2 with status := u'.2.status }) ∧
    (⟨.upgrade, u.1, u.2.name⟩ ∉ sent → u' = u)) before.upgrades after.upgrades
  restores : List.Forall₂ (fun restore restore' =>
    restore' = { restore with
      observedGeneration := restore'.observedGeneration
      phase := restore'.phase
      conditions := restore'.conditions } ∧
      (⟨.restore, restore.namespaceName, restore.name⟩ ∉ sent → restore' = restore))
    before.restores after.restores

section

variable {registration : String} {sent : List ObjectKey}

theorem InstanceConfined.refl (r : InstanceRecord) : InstanceConfined registration sent r r where
  eq := rfl
  sites := forall₂_same.mpr fun _ _ => ⟨rfl, fun _ => rfl⟩
  status _ := rfl
  observation _ := rfl

theorem InstanceConfined.trans {a b c : InstanceRecord} (h : InstanceConfined registration sent a b)
    (h' : InstanceConfined registration sent b c) : InstanceConfined registration sent a c := by
  have hspec : b.stored.spec = a.stored.spec := by rw [h.eq]
  have hkey : b.stored.key = a.stored.key := by rw [h.eq]; rfl
  have hown : ∀ name, b.stored.OwnSite registration name ↔ a.stored.OwnSite registration name := by
    intro name
    rw [MultiSitePostgres.OwnSite, MultiSitePostgres.OwnSite, hspec]
  refine ⟨?_, ?_, fun hsent => ?_, fun hreferences => ?_⟩
  · rw [h'.eq, h.eq]
  · refine Lists.forall₂_trans (fun x y z hxy hyz => ⟨hyz.1.trans hxy.1, fun hx => ?_⟩) h.sites
      (h'.sites.imp fun e e' hee => ⟨hee.1, fun hne => hee.2 fun ho => hne ((hown e.name).mp ho)⟩)
    rw [hyz.2 (by rwa [hxy.1]), hxy.2 hx]
  · rw [h'.status (by rwa [hkey]), h.status hsent]
  · rw [h'.observation fun ⟨site, hsite, href⟩ => hreferences ⟨site, hspec ▸ hsite, href⟩,
      h.observation hreferences]

theorem Confined.refl (store : HubStore) : Confined registration sent store store where
  configMaps := rfl
  registrations := forall₂_same.mpr fun _ _ => ⟨rfl, fun _ => rfl⟩
  instances := forall₂_same.mpr fun r _ => .refl r
  declared := forall₂_same.mpr fun _ _ => ⟨rfl, fun _ => rfl⟩
  upgrades := forall₂_same.mpr fun _ _ => ⟨rfl, fun _ => rfl⟩
  restores := forall₂_same.mpr fun _ _ => ⟨rfl, fun _ => rfl⟩

theorem Confined.trans {a b c : HubStore} (h : Confined registration sent a b)
    (h' : Confined registration sent b c) : Confined registration sent a c where
  configMaps := h'.configMaps.trans h.configMaps
  registrations := by
    refine Lists.forall₂_trans (fun x y z hxy hyz => ⟨hyz.1.trans hxy.1, fun hx => ?_⟩)
      h.registrations h'.registrations
    rw [hyz.2 (by rwa [hxy.1]), hxy.2 hx]
  instances := Lists.forall₂_trans (fun _ _ _ hab hbc => hab.trans hbc) h.instances h'.instances
  declared := by
    refine Lists.forall₂_trans (fun x y z hxy hyz => ⟨?_, fun hx => ?_⟩) h.declared h'.declared
    · rw [hyz.1, hxy.1]
    · rw [hyz.2 (by rw [hxy.1]; exact hx), hxy.2 hx]
  upgrades := by
    refine Lists.forall₂_trans (fun x y z hxy hyz => ⟨?_, fun hx => ?_⟩) h.upgrades h'.upgrades
    · rw [hyz.1, hxy.1]
    · rw [hyz.2 (by rw [hxy.1]; exact hx), hxy.2 hx]
  restores := by
    refine Lists.forall₂_trans (fun x y z hxy hyz => ⟨?_, fun hx => ?_⟩) h.restores h'.restores
    · rw [hyz.1, hxy.1]
    · rw [hyz.2 (by rw [hxy.1]; exact hx), hxy.2 hx]

/-! ## One write -/

theorem confined_onRegistration (store : HubStore) {f : SiteRecord → SiteRecord}
    (h : ∀ r, (f r).registration.name = r.registration.name) :
    Confined registration sent store (HubWrite.onRegistration store registration f) where
  __ := Confined.refl store
  registrations := by
    refine (Lists.forall₂_updateFirst_iff fun r => ⟨rfl, fun _ => rfl⟩).mpr fun r hr => ?_
    have hname := find?_some hr
    exact ⟨h r, fun hne => absurd (of_decide_eq_true hname) hne⟩

theorem confined_onInstance (store : HubStore) {p : MultiSitePostgres → Bool}
    {f : InstanceRecord → InstanceRecord}
    (h : ∀ r, store.instances.find? (fun r => p r.stored) = some r →
      InstanceConfined registration sent r (f r)) :
    Confined registration sent store (HubWrite.onInstance store p f) where
  __ := Confined.refl store
  instances := (Lists.forall₂_updateFirst_iff InstanceConfined.refl).mpr h

theorem confined_onUpgrade (store : HubStore) {namespaceName name : String}
    {f : PostgresUpgrade → PostgresUpgrade} (hf : ∀ u, f u = { u with status := (f u).status })
    (hsent : ⟨.upgrade, namespaceName, name⟩ ∈ sent) :
    Confined registration sent store (HubWrite.onUpgrade store namespaceName name f) where
  __ := Confined.refl store
  upgrades := by
    refine (Lists.forall₂_updateFirst_iff fun u => ⟨rfl, fun _ => rfl⟩).mpr fun u hu => ?_
    have hkey := find?_some hu
    obtain ⟨hns, hname⟩ := of_decide_eq_true hkey
    refine ⟨Prod.ext rfl (hf u.2), fun hne => absurd ?_ hne⟩
    rwa [hns, hname]

theorem confined_of_records {r : InstanceRecord} {j : MultiSitePostgres} {reported : List Condition}
    (h : RecordsResult r.stored j reported) (hsent : r.stored.key ∈ sent) :
    InstanceConfined registration sent r { r with stored := j } where
  eq := by
    rw [h.eq]
  sites := by
    rw [h.sites]
    exact forall₂_same.mpr fun _ _ => ⟨rfl, fun _ => rfl⟩
  status hne := absurd hsent hne
  observation _ := rfl

def HubWrite.Granted (registration : String) (sent : List ObjectKey) (store : HubStore) :
    HubWrite → Prop
  | .bind name _ _ _ => name = registration
  | .identity name => name = registration
  | .heartbeat name _ => name = registration
  | .inventory name _ => name = registration
  | .plan siteName message _ => ∀ r, store.instanceWithUID? message.instanceUID = some r →
      (siteIndex? r.stored.status.sites siteName).isSome → r.stored.OwnSite registration siteName
  | .trigger instanceUID _ => ∀ r, store.instanceWithUID? instanceUID = some r →
      r.stored.References registration
  | .instanceResult namespaceName name _ _ => ⟨.postgres, namespaceName, name⟩ ∈ sent
  | .declaredResult kind namespaceName name _ _ _ =>
    ⟨.declared kind, namespaceName, name⟩ ∈ sent
  | .restoreResult namespaceName name _ => ⟨.restore, namespaceName, name⟩ ∈ sent
  | .upgradeResult namespaceName name _ => ⟨.upgrade, namespaceName, name⟩ ∈ sent
  | .upgradeBackup namespaceName name _ _ => ⟨.upgrade, namespaceName, name⟩ ∈ sent
  | .backupEvidence namespaceName name _ => ⟨.postgres, namespaceName, name⟩ ∈ sent

variable {siteName : String} {message : PlanMessage} {now : Time} {store : HubStore}
  {library : ServerLibrary}

theorem planRecord_confined {r : InstanceRecord}
    (h : (siteIndex? r.stored.status.sites siteName).isSome →
      r.stored.OwnSite registration siteName) :
    InstanceConfined registration sent r (HubWrite.planRecord siteName message now r) := by
  unfold HubWrite.planRecord
  split
  · rename_i hupdated
    obtain ⟨entry, hentry, rfl⟩ := receivePlanMessage_ok hupdated
    have hown := h (by rw [hentry]; rfl)
    refine ⟨rfl, ?_, fun _ => rfl, fun _ => rfl⟩
    have hname := siteIndex?_some hentry
    refine Lists.forall₂_modify (fun _ => ⟨rfl, fun _ => rfl⟩) fun e he => ?_
    rw [he] at hname
    have hname : e.name = siteName := Option.some.inj hname
    exact ⟨(message.update_spec now e).name, fun hne => absurd (hname ▸ hown) hne⟩
  · exact .refl r

theorem HubWrite.Granted.confined {w : HubWrite} (h : w.Granted registration sent store)
    (library : ServerLibrary) :
    Confined registration sent store (w.apply library store) := by
  cases w with
  | bind name hello certificateNotAfter now | identity name | heartbeat name now
  | inventory name decoded =>
    cases h
    exact confined_onRegistration store fun _ => rfl
  | plan siteName message now =>
    rw [HubWrite.apply]
    exact confined_onInstance store fun r hr => planRecord_confined (h r hr)
  | trigger instanceUID now =>
    rw [HubWrite.apply]
    refine confined_onInstance store fun r hr => ⟨rfl, ?_, fun _ => rfl, ?_⟩
    · exact forall₂_same.mpr fun _ _ => ⟨rfl, fun _ => rfl⟩
    · exact fun hne => absurd (h r hr) hne
  | instanceResult namespaceName name siteName result =>
    rw [HubWrite.apply]
    refine confined_onInstance store fun r hr => ?_
    have hkey := find?_some hr
    obtain ⟨rfl, rfl⟩ := of_decide_eq_true hkey
    exact confined_of_records (recordInstanceDirectiveResult_records ..) h
  | declaredResult kind namespaceName name siteName deleting result =>
    refine { Confined.refl store with declared := ?_ }
    refine (Lists.forall₂_updateFirst_iff fun _ => ⟨rfl, fun _ => rfl⟩).mpr fun object ho => ?_
    have hkey := find?_some ho
    obtain ⟨rfl, rfl, rfl⟩ := of_decide_eq_true hkey
    exact ⟨rfl, fun hne => absurd h hne⟩
  | restoreResult namespaceName name result =>
    refine { Confined.refl store with restores := ?_ }
    refine (Lists.forall₂_updateFirst_iff fun _ => ⟨rfl, fun _ => rfl⟩).mpr fun restore hr => ?_
    have hkey := find?_some hr
    obtain ⟨rfl, rfl⟩ := of_decide_eq_true hkey
    exact ⟨rfl, fun hne => absurd h hne⟩
  | upgradeResult namespaceName name result => exact confined_onUpgrade store (fun _ => rfl) h
  | upgradeBackup namespaceName name map result => exact confined_onUpgrade store (fun _ => rfl) h
  | backupEvidence namespaceName name result =>
    rw [HubWrite.apply]
    refine confined_onInstance store fun r hr => ?_
    have hkey := find?_some hr
    obtain ⟨rfl, rfl⟩ := of_decide_eq_true hkey
    exact confined_of_records (recordUpgradeBackupEvidence_records ..) h

/-! ## One message -/

theorem confined_take {writes : List HubWrite}
    (h : ∀ w ∈ writes, ∀ store, w.Granted registration sent store) (landed : Nat)
    (store : HubStore) :
    Confined registration sent store
      ((writes.take landed).foldl (HubWrite.apply library) store) := by
  induction writes generalizing landed store with
  | nil =>
    rw [take_nil]
    exact .refl store
  | cons w rest ih =>
    cases landed with
    | zero => exact .refl store
    | succ n =>
      exact ((h w mem_cons_self store).confined library).trans
        (ih (fun v hv => h v (mem_cons_of_mem w hv)) n _)

/-- If the instance has an entry named like the registration, the entry is that of a site of the
registration. -/
def PlanAddressed (registration : String) (store : HubStore) (instanceUID : String) : Prop :=
  ∀ r, store.instanceWithUID? instanceUID = some r →
    (∃ e ∈ r.stored.status.sites, e.name = registration) →
      r.stored.OwnSite registration registration

theorem planRecord_eq (siteName : String) (message : PlanMessage) (now : Time)
    (r : InstanceRecord) : (HubWrite.planRecord siteName message now r).stored =
      { r.stored with status := (HubWrite.planRecord siteName message now r).stored.status } := by
  unfold HubWrite.planRecord
  split
  · rename_i hupdated
    obtain ⟨entry, -, rfl⟩ := receivePlanMessage_ok hupdated
    rfl
  · rfl

theorem granted_trigger (h : ∀ r, store.instanceWithUID? message.instanceUID = some r →
      r.stored.References registration) :
    (HubWrite.trigger message.instanceUID now).Granted registration sent
      ((HubWrite.plan siteName message now).apply library store) := by
  intro r hr
  have hfound : store.instances.find? (fun r => r.stored.uid = message.instanceUID) =
      store.instanceWithUID? message.instanceUID := rfl
  have hr : (Lists.updateFirst (fun r => r.stored.uid = message.instanceUID)
      (HubWrite.planRecord siteName message now) store.instances).find?
        (fun r => r.stored.uid = message.instanceUID) = some r := hr
  rw [Lists.find?_updateFirst (fun a => by rw [planRecord_eq])] at hr
  obtain ⟨before, hbefore, rfl⟩ := Option.map_eq_some_iff.mp hr
  rw [planRecord_eq]
  exact h before hbefore

theorem planWrites_confined (h : PlanAddressed registration store message.instanceUID)
    (landed : Nat) :
    Confined registration sent store
      (((HubStore.planWrites registration now store message).take landed).foldl
        (HubWrite.apply library) store) := by
  unfold HubStore.planWrites
  split
  · rw [take_nil]
    exact .refl store
  · rename_i hsite
    obtain ⟨r, hr, hsite⟩ := Option.bind_eq_some_iff.mp hsite
    obtain ⟨entry, hentry, -⟩ := Option.bind_eq_some_iff.mp hsite
    have hown : ∀ r', store.instanceWithUID? message.instanceUID = some r' →
        r'.stored.OwnSite registration registration := by
      intro r' hr'
      cases hr.symm.trans hr'
      exact h r hr (siteIndex?_isSome.mp (by rw [hentry]; rfl))
    have hplan : (HubWrite.plan registration message now).Granted registration sent store :=
      fun r' hr' _ => hown r' hr'
    have htrigger : (HubWrite.trigger message.instanceUID now).Granted registration sent
        ((HubWrite.plan registration message now).apply library store) :=
      granted_trigger fun r' hr' =>
        let ⟨site, hsite, _, href⟩ := hown r' hr'
        ⟨site, hsite, href⟩
    cases landed with
    | zero => exact .refl store
    | succ n =>
      rw [take_succ_cons]
      refine (hplan.confined library).trans ?_
      split
      · cases n with
        | zero => exact .refl _
        | succ n =>
          rw [take_succ_cons, take_nil]
          exact htrigger.confined library
      · rw [take_nil]
        exact .refl _

theorem ownedResultWrites_granted {m : ConfigMap} {owner : OwnerReference} {result : PlanResult}
    (h : ∀ key ∈ m.objects owner, key ∈ sent) :
    ∀ w ∈ HubStore.ownedResultWrites siteName store m owner result,
      ∀ store', w.Granted registration sent store' := by
  intro w hw store'
  unfold HubStore.ownedResultWrites at hw
  unfold ConfigMap.objects at h
  split at hw
  · exact absurd hw not_mem_nil
  · rename_i hkind
    rw [hkind] at h
    rw [mem_singleton.mp hw]
    exact h _ mem_cons_self
  · rename_i hkind
    rw [hkind] at h
    rw [mem_singleton.mp hw]
    exact h _ mem_cons_self
  · rename_i hkind
    rw [hkind] at h
    rw [mem_singleton.mp hw]
    exact h _ mem_cons_self
  · rename_i hkind
    rw [hkind] at h
    split at hw
    · rw [mem_singleton.mp hw]
      exact h _ mem_cons_self
    · rename_i htype
      rw [if_pos (not_not.mp htype)] at h
      split at hw
      · exact absurd hw not_mem_nil
      · rcases mem_cons.mp hw with rfl | hw
        · exact h _ mem_cons_self
        · rcases Lists.mem_of_mem_ite hw with hw | hw
          · rw [mem_singleton.mp hw]
            exact h _ (mem_cons_of_mem _ mem_cons_self)
          · exact absurd hw not_mem_nil

end

/-- The message keeps to what belongs to the registration: a plan message is about an instance
where an entry of that name is its own, and the first ConfigMap with the operation UID of a
result is, with its first owner, about objects whose directive was sent to it. -/
def Addressed (registration : String) (sent : List ObjectKey) (store : HubStore) :
    AgentMessage → Prop
  | .acknowledgement ack => PlanAddressed registration store ack.instanceUID
  | .progress report => PlanAddressed registration store report.instanceUID
  | .result result =>
    if result.operationUID = "" then PlanAddressed registration store result.instanceUID
    else ∀ m owner rest, store.resultMap? result.operationUID = some m →
      m.owners = owner :: rest → ∀ key ∈ m.objects owner, key ∈ sent
  | .hello _ _ => True
  | .certificateSigningRequest _ _ => True
  | .heartbeat => True
  | .inventory _ _ => True

theorem Addressed.confined {registration : String} {sent : List ObjectKey} {store : HubStore}
    {message : AgentMessage} (h : Addressed registration sent store message)
    (library : ServerLibrary) (registrationUID : String) (now : Time) (landed : Nat) :
    Confined registration sent store
      (HubStore.handle library registration registrationUID now store message landed) := by
  unfold HubStore.handle
  cases message with
  | hello hello certificateNotAfter =>
    refine confined_take (fun w hw store' => ?_) landed store
    obtain ⟨hbound, hbind⟩ := mem_filter.mp hw
    split at hbind
    · rename_i name _ _ _
      have hname : name = registration := of_decide_eq_true hbind
      exact hname
    · cases hbind
  | certificateSigningRequest requestID csrPEM =>
    refine confined_take (fun w hw store' => ?_) landed store
    have hw : w ∈ HubStore.certificateWrites library registration registrationUID store requestID
      csrPEM := hw
    unfold HubStore.certificateWrites at hw
    split at hw
    · exact absurd hw not_mem_nil
    · rcases Lists.mem_of_mem_ite hw with hw | hw
      · rw [mem_singleton.mp hw]
        rfl
      · exact absurd hw not_mem_nil
  | heartbeat =>
    refine confined_take (fun w hw store' => ?_) landed store
    rw [mem_singleton.mp hw]
    rfl
  | acknowledgement ack =>
    have h : PlanAddressed registration store (PlanMessage.acknowledgement ack).instanceUID := h
    exact planWrites_confined h landed
  | progress report =>
    have h : PlanAddressed registration store (PlanMessage.progress report).instanceUID := h
    exact planWrites_confined h landed
  | inventory length decoded =>
    refine confined_take (fun w hw store' => ?_) landed store
    rcases Lists.mem_of_mem_ite hw with hw | hw
    · exact absurd hw not_mem_nil
    · obtain ⟨d, -, rfl⟩ := mem_map.mp hw
      rfl
  | result result =>
    have h : if result.operationUID = "" then PlanAddressed registration store result.instanceUID
        else ∀ m owner rest, store.resultMap? result.operationUID = some m →
          m.owners = owner :: rest → ∀ key ∈ m.objects owner, key ∈ sent := h
    have hwrites : HubStore.writes library registration registrationUID now store (.result result) =
        if result.operationUID ≠ "" then HubStore.resultWrites registration store result
        else HubStore.planWrites registration now store (.result result) := rfl
    by_cases hop : result.operationUID = ""
    · rw [if_pos hop] at h
      rw [hwrites, if_neg (not_not_intro hop)]
      exact planWrites_confined h landed
    · rw [if_neg hop] at h
      rw [hwrites, if_pos hop]
      refine confined_take (fun w hw => ?_) landed store
      unfold HubStore.resultWrites at hw
      split at hw
      · exact absurd hw not_mem_nil
      · rename_i m hm
        split at hw
        · exact absurd hw not_mem_nil
        · rename_i owner rest howners
          exact ownedResultWrites_granted (h m owner rest hm howners) w hw

/-! ## Every run of a stream -/

/-- What handling one message has changed, and which objects directives had been sent for. -/
structure StoreChange where
  sent : List ObjectKey
  before : HubStore
  after : HubStore

/-- The hub as the stream of one registration sees it.  `sent` and `changes` are a record. -/
structure StreamState where
  store : HubStore
  sent : List ObjectKey := []
  changes : List StoreChange := []

inductive StreamEvent (P : Printers TextKind) where
  /-- A message is handled; its first `landed` writes succeed. -/
  | message (message : AgentMessage) (now : Time) (landed : Nat)
  /-- A pass comes to a ConfigMap, with what it reads and what the stream has sent. -/
  | consider (reads : ServerReads) (now : (GoType.custom TextKind.time).Val P)
      (memory : List String) (m : ConfigMap)
  /-- Someone else writes. -/
  | other (store : HubStore)

namespace StreamState

variable {E : Ed25519} {P : Printers TextKind} (T : TimeText) (library : ServerLibrary)
  (link : SiteLink E)

def step (w : StreamState) : StreamEvent P → Option StreamState
  | .message message now landed =>
    let store := HubStore.handle library link.siteName link.siteUID now w.store message landed
    some { w with store := store, changes := ⟨w.sent, w.store, store⟩ :: w.changes }
  | .consider reads now memory m =>
    match considerDirective T link now reads memory m with
    | .send _ => some { w with sent := (m.controllerOf.toList.flatMap m.objects) ++ w.sent }
    | .skip => some w
    | .fail => some w
  | .other store => some { w with store := store }

def Opened (w : StreamState) : Prop := w.sent = [] ∧ w.changes = []

/-- Every message keeps to what belongs to the registration. -/
def addressed (w : StreamState) : StreamEvent P → Prop
  | .message message _ _ => Addressed link.siteName w.sent w.store message
  | .consider _ _ _ _ => True
  | .other _ => True

end StreamState

/-- If every message keeps to what belongs to the registration, then what the messages change is
confined, whatever else happens in between. -/
theorem isolated {E : Ed25519} {P : Printers TextKind} (T : TimeText) (library : ServerLibrary)
    (link : SiteLink E) {w : StreamState}
    (h : Machine.Reach (StreamState.step (P := P) T library link) StreamState.Opened
      (StreamState.addressed link) w) :
    ∀ change ∈ w.changes, Confined link.siteName change.sent change.before change.after := by
  refine Machine.Reach.invariant (I := fun w : StreamState => ∀ change ∈ w.changes,
    Confined link.siteName change.sent change.before change.after) ?_ ?_ h
  · rintro s ⟨-, hnone⟩ change hchange
    rw [hnone] at hchange
    exact absurd hchange not_mem_nil
  · intro s e t ih hok hstep
    cases e with
    | message message now landed =>
      cases hstep
      intro change hchange
      rcases mem_cons.mp hchange with rfl | hchange
      · exact Addressed.confined hok library link.siteUID now landed
      · exact ih change hchange
    | consider reads now memory m =>
      rw [StreamState.step] at hstep
      split at hstep
      · cases hstep
        exact ih
      · cases hstep
        exact ih
      · cases hstep
        exact ih
    | other store =>
      cases hstep
      exact ih

/-! ## A result from a site that has nothing to do with the instance -/

def salesDatabase : DeclaredObject where
  kind := .database
  namespaceName := "database-platform"
  name := "sales"
  uid := "sales-uid"
  instanceRef := "ledger"

def salesDirective : ConfigMap where
  namespaceName := "database-platform"
  name := "mspsql-database-sales"
  labels := .ofList [(directiveLabel, "Database")]
  owners := [⟨groupVersion, "PostgresDatabase", "sales", "sales-uid", true⟩]
  data := .ofList [("operationUID", "sales-uid-1-false"), ("type", "Database"),
    ("instanceRef", "ledger"), ("deleting", "false")]

def salesStore : HubStore where
  instances := [{ stored := Sample.ledger }]
  declared := [salesDatabase]
  configMaps := [salesDirective]

def perthStream : SiteLink oneKey :=
  { siteName := "production-perth", siteUID := "perth-uid", key := () }

def salesFailed : AgentMessage := .result {
  instanceUID := "ledger-uid"
  operationUID := "sales-uid-1-false"
  conditions := [{ type := "Succeeded", status := .false, reason := "Failed", message := "" }] }

def salesAfter : HubStore :=
  HubStore.handle plainServer perthStream.siteName perthStream.siteUID 0 salesStore salesFailed 1

/-- A site without a part in any instance makes the database of one fail, with a directive that
was never sent to it. -/
theorem foreign_result_recorded :
    (∀ r ∈ salesStore.instances, ¬ r.stored.References perthStream.siteName) ∧
    Machine.Reach (StreamState.step (P := plainPrinters) plainTimes plainServer perthStream)
      StreamState.Opened Machine.anyStep ⟨salesAfter, [], [⟨[], salesStore, salesAfter⟩]⟩ ∧
    salesStore.declared.map (·.status.phase) = [""] ∧
    salesAfter.declared.map (·.status.phase) = ["Failed"] ∧
    ¬ Confined perthStream.siteName [] salesStore salesAfter := by
  have hbefore : salesStore.declared.map (·.status.phase) = [""] := rfl
  have hafter : salesAfter.declared.map (·.status.phase) = ["Failed"] := by decide +kernel
  refine ⟨?_, ?_, hbefore, hafter, fun h => ?_⟩
  · intro r hr
    rw [mem_singleton.mp hr]
    rintro ⟨site, hsite, href⟩
    revert site
    decide +kernel
  · refine .next (e := .message salesFailed 0 1) (.start (s := ⟨salesStore, [], []⟩) ⟨rfl, rfl⟩)
      trivial ?_
    rfl
  · have hsame := Lists.map_eq_of_forall₂
      (g := fun o : DeclaredObject => o.status.phase)
      (h.declared.imp fun o o' hoo => by rw [hoo.2 not_mem_nil])
    rw [hafter] at hsame
    exact absurd hsame (by decide)

def ledgerAtVic : MultiSitePostgres :=
  { Sample.ledger with status := { sites := [{ name := "production-vic", desiredRevision := 1 }] } }

def ledgerVicStore : HubStore where
  instances := [{ stored := ledgerAtVic }]

def vicLink : SiteLink oneKey :=
  { siteName := "production-vic", siteUID := "vic-uid", key := () }

def vicAcknowledges : AgentMessage :=
  .acknowledgement { instanceUID := "ledger-uid", revision := 1, accepted := true }

def ledgerVicAfter : HubStore :=
  HubStore.handle plainServer vicLink.siteName vicLink.siteUID 0 ledgerVicStore vicAcknowledges 2

theorem vic_isolated :
    ledgerVicAfter.instances.map (fun r => r.stored.status.sites.map (·.phase)) = [["Applying"]] ∧
      Confined vicLink.siteName [] ledgerVicStore ledgerVicAfter := by
  refine ⟨by decide +kernel, ?_⟩
  refine isolated (P := plainPrinters) plainTimes plainServer vicLink
    (w := ⟨ledgerVicAfter, [], [⟨[], ledgerVicStore, ledgerVicAfter⟩]⟩) ?_ _ mem_cons_self
  refine .next (e := .message vicAcknowledges 0 2) (.start (s := ⟨ledgerVicStore, [], []⟩)
    ⟨rfl, rfl⟩) ?_ rfl
  rintro r hr -
  have hfound : ledgerVicStore.instanceWithUID? "ledger-uid" = some { stored := ledgerAtVic } := by
    decide +kernel
  cases hfound.symm.trans hr
  exact ⟨Sample.underRegistration Sample.vic, mem_cons_self, by decide +kernel, by decide +kernel⟩

end Mspsql
