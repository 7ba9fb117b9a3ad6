import Mspsql.Hub.Phases

/-!
# Who owns an instance

Only reconciles of upgrades touch the annotations that say which upgrade owns the instance
and how far it is.  As long as each of them reads those annotations as they are stored, an
upgrade that has given the instance back never takes it again.  Without that, a version of the
instance is still never taken back (`succeeds_of_reach`).
-/

namespace Mspsql

open List

variable {u : PostgresUpgrade} {config : HubConfig} {s t : HubState} {e : HubEvent}

theorem patchAnnotations_upgradePart {base modified current : Annotations}
    (h : base.upgradePart = current.upgradePart) :
    (patchAnnotations base modified current).upgradePart = modified.upgradePart := by
  have hfield : ∀ {α : Type} [DecidableEq α] (f : Annotations → α),
      f base = f current → patchField (f base) (f modified) (f current) = f modified :=
    fun f hf => hf ▸ patchField_self _ _
  unfold Annotations.upgradePart patchAnnotations
  rw [hfield (·.upgradeUID) (congrArg (·.upgradeUID) h),
    hfield (·.upgradeName) (congrArg (·.upgradeName) h),
    hfield (·.upgradePhase) (congrArg (·.upgradePhase) h),
    hfield (·.upgradeMember) (congrArg (·.upgradeMember) h),
    hfield (·.upgradedMembers) (congrArg (·.upgradedMembers) h),
    hfield (·.upgradeFromPrimary) (congrArg (·.upgradeFromPrimary) h),
    hfield (·.upgradeCandidate) (congrArg (·.upgradeCandidate) h),
    hfield (·.upgradeSwitched) (congrArg (·.upgradeSwitched) h),
    hfield (·.upgradeExpectedRevision) (congrArg (·.upgradeExpectedRevision) h),
    hfield (·.upgradeSourceMajor) (congrArg (·.upgradeSourceMajor) h)]

/-- Agreement on what is read of a recorded upgrade. -/
structure SameUpgrade (a b : Annotations) : Prop where
  uid : a.upgradeUID = b.upgradeUID
  name : a.upgradeName = b.upgradeName
  phase : a.upgradePhase = b.upgradePhase
  member : a.upgradeMember = b.upgradeMember
  upgraded : a.upgradedMembers = b.upgradedMembers

theorem sameUpgrade {a b : Annotations} (h : a.upgradePart = b.upgradePart) : SameUpgrade a b :=
  ⟨congrArg (·.upgradeUID) h, congrArg (·.upgradeName) h, congrArg (·.upgradePhase) h,
    congrArg (·.upgradeMember) h, congrArg (·.upgradedMembers) h⟩

theorem patched {i view modified current : MultiSitePostgres}
    (hstored : i = patchInstance view modified current)
    (hok : view.annotations.upgradePart = current.annotations.upgradePart) :
    SameUpgrade i.annotations modified.annotations := by
  rw [hstored]
  exact sameUpgrade (patchAnnotations_upgradePart hok)

theorem reconcileUpgrade_of_terminal (hterminal : u.terminal = true) (hkept : u.deleting = false)
    (reads : HubReads) (view : MultiSitePostgres) (now : Time) (directives : List DirectiveMap)
    (status : PostgresUpgradeStatus) :
    .setStatus status ∉ reconcileUpgrade reads u (some view) now directives := by
  unfold reconcileUpgrade
  rw [if_neg (by simp [hkept]), if_pos hterminal]
  intro hmem
  rcases mem_append.mp hmem with hmem | hmem
  · dsimp only at hmem
    split at hmem
    · cases mem_singleton.mp hmem
    · cases hmem
  · split at hmem
    · cases mem_singleton.mp hmem
    · cases hmem

namespace HubState

/-! ## Where upgrades come from -/

def sameRequest (u v : PostgresUpgrade) : Prop :=
  u.uid = v.uid ∧ u.name = v.name ∧ u.spec = v.spec ∧ u.deleting = v.deleting ∧
    u.forceAbandon = v.forceAbandon

theorem sameRequest.refl (u : PostgresUpgrade) : sameRequest u u := ⟨rfl, rfl, rfl, rfl, rfl⟩

theorem sameRequest.trans {u v w : PostgresUpgrade} (h : sameRequest u v) (h' : sameRequest v w) :
    sameRequest u w :=
  ⟨h.1.trans h'.1, h.2.1.trans h'.2.1, h.2.2.1.trans h'.2.2.1, h.2.2.2.1.trans h'.2.2.2.1,
    h.2.2.2.2.trans h'.2.2.2.2⟩

variable {name : String} {w : UpgradeWrite} {writes : List UpgradeWrite}

theorem mem_updateUpgrade {f : PostgresUpgrade → PostgresUpgrade}
    (h : u ∈ (s.updateUpgrade name f).upgrades) :
    ∃ v ∈ s.upgrades, u = f v ∧ v.name = name ∨ u = v ∧ v.name ≠ name :=
  Lists.mem_update h

theorem applyUpgradeWrite_patch (s : HubState) (name : String) (kind : PatchKind)
    (base modified : MultiSitePostgres) :
    (applyUpgradeWrite name s (.patchInstance kind base modified)).stored =
        patchInstance base modified s.stored ∧
      (applyUpgradeWrite name s (.patchInstance kind base modified)).versions =
        patchInstance base modified s.stored :: s.versions ∧
      (applyUpgradeWrite name s (.patchInstance kind base modified)).upgrades = s.upgrades := by
  unfold applyUpgradeWrite
  dsimp only
  split <;> exact ⟨rfl, rfl, rfl⟩

/-- The upgrades after a write, with their status unless the write sets it. -/
theorem applyUpgradeWrite_origin (h : u ∈ (applyUpgradeWrite name s w).upgrades) :
    ∃ v ∈ s.upgrades, sameRequest u v ∧
      (u.status = v.status ∨ v.name = name ∧ w = .setStatus u.status) := by
  cases w with
  | patchInstance kind base modified =>
    rw [(applyUpgradeWrite_patch s name kind base modified).2.2] at h
    exact ⟨u, h, .refl u, .inl rfl⟩
  | setStatus status =>
    obtain ⟨v, hv, ⟨rfl, hname⟩ | ⟨rfl, -⟩⟩ := mem_updateUpgrade h
    · exact ⟨v, hv, .refl v, .inr ⟨hname, rfl⟩⟩
    · exact ⟨_, hv, .refl _, .inl rfl⟩
  | addFinalizer | removeFinalizer =>
    obtain ⟨v, hv, ⟨rfl, -⟩ | ⟨rfl, -⟩⟩ := mem_updateUpgrade h
    · exact ⟨v, hv, .refl v, .inl rfl⟩
    · exact ⟨_, hv, .refl _, .inl rfl⟩
  | createDirective map => exact ⟨u, h, .refl u, .inl rfl⟩

theorem applyUpgradeWrites_origin (h : u ∈ (s.applyUpgradeWrites name writes).upgrades) :
    ∃ v ∈ s.upgrades, sameRequest u v ∧
      (u.status = v.status ∨ v.name = name ∧ .setStatus u.status ∈ writes) := by
  induction writes generalizing s with
  | nil => exact ⟨u, h, .refl u, .inl rfl⟩
  | cons w rest ih =>
    obtain ⟨v, hv, hrequest, hstatus⟩ := ih h
    obtain ⟨v', hv', hrequest', hstatus'⟩ := applyUpgradeWrite_origin hv
    refine ⟨v', hv', hrequest.trans hrequest', ?_⟩
    rcases hstatus with hsame | ⟨hvname, hmem⟩
    · rcases hstatus' with hsame' | ⟨hvname', hw⟩
      · exact .inl (hsame.trans hsame')
      refine .inr ⟨hvname', ?_⟩
      rw [hsame, ← hw]
      exact mem_cons_self
    · exact .inr ⟨hrequest'.2.1.symm.trans hvname, mem_cons_of_mem w hmem⟩

theorem applyOutcome_upgrades (s : HubState) (view : MultiSitePostgres) (o : Outcome)
    (writes : Nat) : (s.applyOutcome view o writes).upgrades = s.upgrades ∧
      (s.applyOutcome view o writes).upgradeUIDs = s.upgradeUIDs := by
  rw [applyOutcome_eq]
  exact ⟨rfl, rfl⟩

/-- Where an upgrade after a step comes from. -/
inductive Origin (s : HubState) : HubEvent → PostgresUpgrade → Prop where
  | same {e : HubEvent} {u : PostgresUpgrade} (mem : u ∈ s.upgrades) : Origin s e u
  | written {name : String} {view : MultiSitePostgres} {reads : HubReads} {now : Time}
      {writes : Nat} {u u₀ v : PostgresUpgrade} (found : s.upgrade? name = some u₀)
      (mem : v ∈ s.upgrades) (request : sameRequest u v)
      (status : u.status = v.status ∨ v.name = name ∧ .setStatus u.status ∈
        reconcileUpgrade (s.readsOf reads) u₀ (some view) now s.directives) :
      Origin s (.upgrade name view reads now writes) u
  | marked {name : String} {condition : Condition} {parseTime : String → Option Time}
      {result : PlanResult} {v : PostgresUpgrade} (mem : v ∈ s.upgrades) :
      Origin s (.upgradeBackupResult name condition parseTime result) { v with
        status := { v.status with conditions := Condition.set v.status.conditions condition } }
  | created {u : PostgresUpgrade} (uid : u.uid ≠ "") (fresh : u.uid ∉ s.upgradeUIDs) :
      Origin s (.createUpgrade u) u
  | deleted {name : String} {force : Bool} {v : PostgresUpgrade} (mem : v ∈ s.upgrades) :
      Origin s (.deleteUpgrade name force) { v with deleting := true, forceAbandon := force }

theorem StepCase.origin (h : StepCase config s e t) (hu : u ∈ t.upgrades) : Origin s e u := by
  cases h with
  | @issue view reads fails now writes =>
    rw [(applyOutcome_upgrades s view _ writes).1] at hu
    exact .same hu
  | upgrade found =>
    obtain ⟨v, hv, hrequest, hstatus⟩ := applyUpgradeWrites_origin hu
    exact .written found hv hrequest (hstatus.imp_right fun h => ⟨h.1, mem_of_mem_take h.2⟩)
  | upgradeBackupSucceeded | upgradeBackupFailed =>
    obtain ⟨v, hv, ⟨rfl, -⟩ | ⟨rfl, -⟩⟩ := mem_updateUpgrade hu
    · exact .marked hv
    · exact .same hv
  | createUpgrade uid _ fresh =>
    rcases mem_cons.mp hu with rfl | hu
    · exact .created uid fresh
    · exact .same hu
  | deleteUpgrade =>
    obtain ⟨v, hv, ⟨rfl, -⟩ | ⟨rfl, -⟩⟩ := mem_updateUpgrade hu
    · exact .deleted hv
    · exact .same hv
  | _ => exact .same hu

theorem StepCase.upgradeUIDs (h : StepCase config s e t) :
    ∀ uid ∈ s.upgradeUIDs, uid ∈ t.upgradeUIDs := by
  cases h with
  | @issue view reads fails now writes =>
    rw [(applyOutcome_upgrades s view _ writes).2]
    exact fun _ => id
  | upgrade =>
    rw [applyUpgradeWrites_eq]
    exact fun _ => id
  | createUpgrade => exact fun _ => mem_cons_of_mem _
  | _ => exact fun _ => id

theorem StepCase.upgradePart (h : StepCase config s e t) (he : ∀ name view reads now writes,
      e ≠ .upgrade name view reads now writes) :
    t.stored.annotations.upgradePart = s.stored.annotations.upgradePart := by
  cases h with
  | @issue view reads fails now writes =>
    obtain ⟨f, hstored⟩ := s.applyOutcome_finalizer view _ writes
    rw [hstored]
  | upgrade => exact absurd rfl (he _ _ _ _ _)
  | backupResult hrecords | upgradeBackupSucceeded hrecords => exact congrArg _ hrecords.annotations
  | _ => rfl

theorem StepCase.spec (h : StepCase config s e t) (he : ∀ name view reads now writes,
      e ≠ .upgrade name view reads now writes) :
    t.stored.spec = s.stored.spec ∨ e = .edit t.stored.spec := by
  cases h with
  | @issue view reads fails now writes => exact .inl (s.applyOutcome_status view _ writes).2
  | upgrade => exact absurd rfl (he _ _ _ _ _)
  | backupResult hrecords | upgradeBackupSucceeded hrecords =>
    exact .inl (congrArg (·.spec) hrecords.eq)
  | edit => exact .inr rfl
  | _ => exact .inl rfl

/-! ## Moves of a reconcile -/

/-- What the first writes of a reconcile make of the instance. -/
inductive Moved (u : PostgresUpgrade) (view : MultiSitePostgres) (name : String)
    (s t : HubState) : Prop where
  | none (stored : t.stored = s.stored) (versions : t.versions = s.versions)
  | move {kind : PatchKind} {modified : MultiSitePostgres} (hmove : Move u view kind modified)
      (stored : t.stored = patchInstance view modified s.stored)
      (versions : t.versions = t.stored :: s.versions)
  | finish (running : u.running) (owned : view.annotations.upgradeUID = u.uid)
      (last : view.annotations.upgradePhase.last = true)
      (applied : majorPhaseApplied view = true)
      (stored : t.stored = patchInstance view (clearUpgradeAnnotations view) s.stored)
      (versions : t.versions = t.stored :: s.versions)
      (terminal : ∀ v ∈ t.upgrades, v.name = name → v.terminal = true)

theorem upgrade_moved {view : MultiSitePostgres} {name : String} {reads : HubReads} {now : Time}
    {n : Nat} : Moved u view name s (s.applyUpgradeWrites name
      ((reconcileUpgrade (s.readsOf reads) u (some view) now s.directives).take n)) := by
  have h := reconcileUpgrade_moves (s.readsOf reads) u view now s.directives
  generalize reconcileUpgrade (s.readsOf reads) u (some view) now s.directives = writes at h
  have hquiet : ∀ ws : List UpgradeWrite, (∀ w ∈ ws, w.isPatch = false) →
      Moved u view name s (s.applyUpgradeWrites name ws) :=
    fun ws hws => .none (applyUpgradeWrites_of_not_patch s name hws).1
      (applyUpgradeWrites_of_not_patch s name hws).2.2
  cases h with
  | none h => exact hquiet _ fun w hw => h w (mem_of_mem_take hw)
  | @move rest kind modified hmove hrest =>
    cases n with
    | zero => exact .none rfl rfl
    | succ n =>
      rw [take_succ_cons, applyUpgradeWrites_cons]
      obtain ⟨hstored, hvers, -⟩ := applyUpgradeWrite_patch s name kind view modified
      have hrest' : ∀ w ∈ rest.take n, w.isPatch = false :=
        fun w hw => hrest w (mem_of_mem_take hw)
      obtain ⟨hsame, -, hkept⟩ := applyUpgradeWrites_of_not_patch
        (applyUpgradeWrite name s (.patchInstance kind view modified)) name hrest'
      refine .move hmove (hsame.trans hstored) ?_
      rw [hkept, hvers, hsame, hstored]
  | @finish status running owned last terminal applied =>
    match n with
    | 0 => exact .none rfl rfl
    | 1 => exact hquiet [.setStatus status] (not_patch_singleton rfl)
    | n + 2 =>
      have htake : [.setStatus status,
          UpgradeWrite.patchInstance .advance view (clearUpgradeAnnotations view)].take (n + 2) =
          [.setStatus status, .patchInstance .advance view (clearUpgradeAnnotations view)] := by
        simp
      rw [htake, applyUpgradeWrites_cons, applyUpgradeWrites_cons]
      obtain ⟨hstored, hvers, hupgrades⟩ := applyUpgradeWrite_patch
        (applyUpgradeWrite name s (.setStatus status)) name .advance view
        (clearUpgradeAnnotations view)
      refine .finish running owned last applied hstored (hvers.trans (by rfl)) ?_
      intro v hv hname
      obtain ⟨v', hv', ⟨rfl, -⟩ | ⟨rfl, hne⟩⟩ := mem_updateUpgrade hv
      · exact decide_eq_true terminal
      · exact absurd hname hne

/-! ## Finished upgrades stay finished -/

theorem eq_of_upgrade? {v : PostgresUpgrade} (hnames : (s.upgradeKeys.map Prod.fst).Nodup)
    (hu : s.upgrade? name = some u) (hv : v ∈ s.upgrades) (hname : v.name = name) : v = u := by
  have hmap : (s.upgrades.map (·.name)).Nodup := by
    rw [upgradeKeys, map_map] at hnames
    exact hnames
  have huname : u.name = name := by simpa using find?_some hu
  exact inj_on_of_nodup_map hmap hv (mem_of_find?_eq_some hu) (hname.trans huname.symm)

theorem StepCase.unfinished (h : StepCase config s e t)
    (hnames : (s.upgradeKeys.map Prod.fst).Nodup) (hu : u ∈ t.upgrades)
    (hkept : u.deleting = false) (hopen : u.terminal = false) :
    (∃ v ∈ s.upgrades, v.uid = u.uid ∧ v.name = u.name ∧ v.deleting = false ∧
      v.terminal = false) ∨ e = .createUpgrade u ∧ u.uid ∉ s.upgradeUIDs := by
  cases h.origin hu with
  | same mem => exact .inl ⟨u, mem, rfl, rfl, hkept, hopen⟩
  | @written _ _ _ _ _ _ _ v found mem request status =>
    obtain ⟨huid, hname, -, hdel, -⟩ := request
    have hvkept : v.deleting = false := hdel ▸ hkept
    refine .inl ⟨v, mem, huid.symm, hname.symm, hvkept, Bool.not_eq_true _ ▸ fun hterminal => ?_⟩
    have hsame : u.status = v.status := by
      refine status.resolve_right fun ⟨hvname, hset⟩ => ?_
      obtain rfl := eq_of_upgrade? hnames found mem hvname
      exact reconcileUpgrade_of_terminal hterminal hvkept _ _ _ _ _ hset
    have hagain : u.terminal = true := by
      unfold PostgresUpgrade.terminal at hterminal ⊢
      rw [hsame]
      exact hterminal
    rw [hopen] at hagain
    cases hagain
  | marked mem => exact .inl ⟨_, mem, rfl, rfl, hkept, hopen⟩
  | created _ fresh => exact .inr ⟨rfl, fresh⟩
  | deleted => cases hkept

/-! ## Names and versions -/

/-- Upgrades keep their names and UIDs; a new one has a UID that was never used. -/
theorem StepCase.keys (h : StepCase config s e t) :
    t.upgradeKeys.Sublist s.upgradeKeys ∧ t.upgradeUIDs = s.upgradeUIDs ∨
      ∃ u, t = { s with upgrades := u :: s.upgrades, upgradeUIDs := u.uid :: s.upgradeUIDs } ∧
        u.uid ≠ "" ∧ u.name ≠ "" ∧ u.uid ∉ s.upgradeUIDs ∧
        u.name ∉ s.upgrades.map (·.name) := by
  cases h with
  | @issue view reads fails now writes =>
    rw [upgradeKeys, (applyOutcome_upgrades s view _ writes).1,
      (applyOutcome_upgrades s view _ writes).2]
    exact .inl ⟨.refl _, rfl⟩
  | commit | abandon | apply | message | refused | backupResult | edit | annotate | delete =>
    exact .inl ⟨.refl _, rfl⟩
  | upgrade => exact .inl ⟨applyUpgradeWrites_keys .., by rw [applyUpgradeWrites_eq]⟩
  | createUpgrade uid named fresh unique => exact .inr ⟨_, rfl, uid, named, fresh, unique⟩
  | upgradeBackupSucceeded | upgradeBackupFailed | deleteUpgrade =>
    exact .inl ⟨s.updateUpgrade_keys _ fun _ => ⟨rfl, rfl⟩, rfl⟩

theorem StepCase.versions (h : StepCase config s e t) :
    t.stored = s.stored ∧ t.versions = s.versions ∨ t.versions = t.stored :: s.versions := by
  cases h with
  | @issue view reads fails now writes =>
    rcases s.applyOutcome_stored view (s.outcome config view reads fails now) writes with
      ⟨hstored, hvers⟩ | ⟨f, hstored, hvers⟩
    · exact .inl ⟨hstored, hvers⟩
    · exact .inr (hvers.trans (by rw [hstored]))
  | @upgrade name view reads now writes u =>
    cases @upgrade_moved u s view name reads now writes with
    | none stored versions => exact .inl ⟨stored, versions⟩
    | move _ _ versions => exact .inr versions
    | finish _ _ _ _ _ versions => exact .inr versions
  | abandon | apply | refused | upgradeBackupFailed | createUpgrade | deleteUpgrade =>
    exact .inl ⟨rfl, rfl⟩
  | _ => exact .inr rfl

structure Throughout (P : MultiSitePostgres → Prop) (s : HubState) : Prop where
  stored : P s.stored
  versions : ∀ v ∈ s.versions, P v

theorem Throughout.store {P : MultiSitePostgres → Prop} {i : MultiSitePostgres}
    (h : Throughout P s) (hi : P i) : Throughout P (s.store i) where
  stored := hi
  versions v hv := by
    rcases mem_cons.mp hv with rfl | hv
    · exact hi
    · exact h.versions v hv

theorem StepCase.throughout {P : MultiSitePostgres → Prop} (h : StepCase config s e t)
    (hall : Throughout P s) (hstored : P t.stored) : Throughout P t := by
  refine ⟨hstored, fun v hv => ?_⟩
  rcases h.versions with ⟨-, hsame⟩ | hnew
  · exact hall.versions v (hsame ▸ hv)
  rw [hnew] at hv
  rcases mem_cons.mp hv with rfl | hv
  · exact hstored
  · exact hall.versions v hv

theorem StepCase.specSites (h : StepCase config s e t) (he : ∀ spec, e ≠ .edit spec) :
    t.stored.spec.sites = s.stored.spec.sites := by
  cases h with
  | @issue view reads fails now writes =>
    exact congrArg (·.sites) (s.applyOutcome_status view _ writes).2
  | upgrade =>
    exact applyUpgradeWrites_stored (P := (·.spec.sites = s.stored.spec.sites)) rfl
      (fun _ _ _ h => h) ..
  | backupResult hrecords | upgradeBackupSucceeded hrecords =>
    exact congrArg (·.spec.sites) hrecords.eq
  | edit => exact absurd rfl (he _)
  | _ => rfl

theorem StepCase.names (h : StepCase config s e t)
    (hnames : (s.stored.spec.sites.map (·.name)).Nodup) :
    (t.stored.spec.sites.map (·.name)).Nodup := by
  by_cases hedit : ∃ spec, e = .edit spec
  · obtain ⟨spec, rfl⟩ := hedit
    cases h with
    | edit admitted => exact admitted.names_nodup
  · rw [h.specSites fun spec hspec => hedit ⟨spec, hspec⟩]
    exact hnames

def isBackupResult : HubEvent → Bool
  | .backupResult .. | .upgradeBackupResult .. => true
  | _ => false

/-- A property of the status holds in every version and of the status about to be written. -/
structure Everywhere (P : MultiSitePostgresStatus → Prop) (s : HubState) : Prop where
  throughout : Throughout (fun v => P v.status) s
  pending : ∀ d, s.pending = some d → P d

theorem Everywhere.initial {P : MultiSitePostgresStatus → Prop} (h : Initial config s)
    (hstored : P s.stored.status) : Everywhere P s := by
  refine ⟨⟨hstored, fun v hv => ?_⟩, fun d hd => ?_⟩
  · rw [h.versions, mem_singleton] at hv
    exact hv ▸ hstored
  · rw [h.pending] at hd
    cases hd

/-- The rule for such properties: what has to be shown of reconciles, of their status writes,
of messages and of backup results. -/
theorem Everywhere.step {P : MultiSitePostgresStatus → Prop} (h : Everywhere P s)
    (hst : s.step config e = some t)
    (hreconcile : ∀ reads directives fails now view d, P view.status →
      (reconcile config.backups reads directives fails now view).status = some d → P d)
    (hmerge : ∀ current desired, P current → P desired → P (mergeReconciledStatus current desired))
    (hmessage : ∀ registration now message entry, e = .message registration now message →
      siteIndex? s.stored.status.sites registration = some entry →
      P { s.stored.status with
        sites := s.stored.status.sites.modify entry fun site =>
          stampGeneration s.stored.generation (message.update now site) })
    (hresult : isBackupResult e = true → P t.stored.status) : Everywhere P t := by
  obtain ⟨hall, hpend⟩ := h
  have hcase := step_case hst
  have hnew := hcase.throughout hall
  cases hcase with
  | @issue view reads fails now writes hview _ =>
    refine ⟨hnew ?_, fun d hd => ?_⟩
    · rw [(s.applyOutcome_status view _ writes).1]
      exact hall.stored
    rw [applyOutcome_pending] at hd
    split at hd
    · exact hpend d hd
    · exact hreconcile _ _ _ _ _ d (hall.versions _ hview) hd
  | commit hdesired =>
    exact ⟨hnew (hmerge _ _ hall.stored (hpend _ hdesired)), fun d hd => by cases hd⟩
  | abandon => exact ⟨hnew hall.stored, fun d hd => by cases hd⟩
  | upgrade _ _ =>
    refine ⟨hnew ?_, ?_⟩
    · rw [applyUpgradeWrites_status]
      exact hall.stored
    · rw [applyUpgradeWrites_eq]
      exact hpend
  | message _ found => exact ⟨hnew (hmessage _ _ _ _ rfl found), hpend⟩
  | backupResult _ | upgradeBackupSucceeded _ => exact ⟨hnew (hresult rfl), hpend⟩
  | _ => exact ⟨hnew hall.stored, hpend⟩

def NeverTrue (type : String) (s : HubState) : Prop :=
  Everywhere (fun status => Condition.Never type status.conditions) s

theorem NeverTrue.step {type : String} (h : NeverTrue type s) (htype : type ∉ hubConditions)
    (hst : s.step config e = some t)
    (hresult : isBackupResult e = true → Condition.Never type t.stored.status.conditions) :
    NeverTrue type t :=
  Everywhere.step h hst
    (fun _ _ _ _ _ _ hview hd => hview.of_mem htype ((reconcile_case ..).conditions hd))
    (fun _ _ hcur hdesired => hcur.foldl_set hdesired)
    (fun _ _ _ _ _ _ => h.throughout.stored) hresult

/-- Names and UIDs of upgrades are distinct, and the UIDs are among those ever used. -/
structure Keyed (s : HubState) : Prop where
  names : (s.upgradeKeys.map Prod.fst).Nodup
  uids : (s.upgradeKeys.map Prod.snd).Nodup
  known : ∀ k ∈ s.upgradeKeys, k.1 ≠ "" ∧ k.2 ≠ "" ∧ k.2 ∈ s.upgradeUIDs

namespace Keyed

theorem initial (h : Initial config s) : Keyed s := by
  have hkeys : s.upgradeKeys = [] := by rw [upgradeKeys, h.upgrades]; rfl
  constructor <;> rw [hkeys]
  · exact nodup_nil
  · exact nodup_nil
  · rintro _ ⟨⟩

theorem eq_of_uid (h : Keyed s) {v : PostgresUpgrade} (hu : u ∈ s.upgrades) (hv : v ∈ s.upgrades)
    (huid : u.uid = v.uid) : u = v := by
  have hmap : (s.upgrades.map (·.uid)).Nodup := by
    have huids := h.uids
    rw [upgradeKeys, map_map] at huids
    exact huids
  exact inj_on_of_nodup_map hmap hu hv huid

theorem step (h : Keyed s) (hcase : StepCase config s e t) : Keyed t := by
  rcases hcase.keys with ⟨hkeys, huids⟩ | ⟨u, rfl, huid, hname, hfresh, hunique⟩
  · refine ⟨(hkeys.map _).nodup h.names, (hkeys.map _).nodup h.uids, fun k hk => ?_⟩
    rw [huids]
    exact h.known k (hkeys.subset hk)
  · refine ⟨nodup_cons.mpr ⟨fun hmem => ?_, h.names⟩,
      nodup_cons.mpr ⟨fun hmem => ?_, h.uids⟩, fun k hk => ?_⟩
    · obtain ⟨k, hk, hkname⟩ := mem_map.mp hmem
      obtain ⟨v, hv, rfl⟩ := mem_map.mp hk
      exact hunique (mem_map.mpr ⟨v, hv, hkname⟩)
    · obtain ⟨k, hk, hkuid⟩ := mem_map.mp hmem
      have hknown := (h.known k hk).2.2
      rw [hkuid] at hknown
      exact hfresh hknown
    · rcases mem_cons.mp hk with rfl | hk
      · exact ⟨hname, huid, mem_cons_self⟩
      · obtain ⟨h1, h2, h3⟩ := h.known k hk
        exact ⟨h1, h2, mem_cons_of_mem _ h3⟩

end Keyed

/-! ## The owner -/

def informed (s : HubState) : HubEvent → Prop
  | .upgrade _ view _ _ _ => view.annotations.upgradePart = s.stored.annotations.upgradePart
  | _ => True

instance (s : HubState) : Decidable (informed s e) := by
  unfold informed
  cases_type HubEvent <;> infer_instance

structure Owned (s : HubState) : Prop extends keyed : Keyed s where
  newest : ∃ rest, s.versions = s.stored :: rest
  owners : ∀ v ∈ s.versions, v.annotations.upgradeUID = "" ∨
    v.annotations.upgradeUID ∈ s.upgradeUIDs ∧ v.annotations.upgradeName ≠ ""
  /-- An upgrade that is not done has never given the instance back. -/
  unfinished : ∀ u ∈ s.upgrades, u.deleting = false → u.terminal = false →
    ∀ v ∈ s.versions, v.annotations.upgradeUID = u.uid → s.stored.annotations.upgradeUID = u.uid

namespace Owned

theorem initial (h : Initial config s) : Owned s := by
  refine ⟨.initial h, ⟨[], h.versions⟩, ?_, ?_⟩
  · intro v hv
    rw [h.versions] at hv
    exact .inl (mem_singleton.mp hv ▸ h.upgradeUID)
  · rw [h.upgrades]
    exact fun u hu => by cases hu

theorem stored_mem (h : Owned s) : s.stored ∈ s.versions := by
  obtain ⟨rest, hrest⟩ := h.newest
  rw [hrest]
  exact mem_cons_self

theorem uid_ne (h : Owned s) (hu : u ∈ s.upgrades) : u.uid ≠ "" :=
  (h.known (u.name, u.uid) (mem_map_of_mem hu)).2.1

/-- What a step does to the owner: nothing, an upgrade takes the free instance, or the owner,
which is done, gives it back. -/
theorem owner (h : Owned s) (hok : informed s e) (hcase : StepCase config s e t) :
    (t.stored.annotations.upgradeUID = s.stored.annotations.upgradeUID ∧
        t.stored.annotations.upgradeName = s.stored.annotations.upgradeName) ∨
      (s.stored.annotations.upgradeUID = "" ∧ ∃ u ∈ s.upgrades, u.running ∧
        t.stored.annotations.upgradeUID = u.uid ∧ t.stored.annotations.upgradeName = u.name) ∨
      (t.stored.annotations.upgradeUID = "" ∧ ∀ v ∈ t.upgrades, v.deleting = false →
        v.uid = s.stored.annotations.upgradeUID → v.terminal = true) := by
  have hopen := fun u => hcase.unfinished (u := u) h.names
  have hother := hcase.upgradePart
  cases hcase with
  | @upgrade name view reads now writes u hu =>
    have hmem : u ∈ s.upgrades := mem_of_find?_eq_some hu
    have hsame := sameUpgrade hok
    generalize ht : s.applyUpgradeWrites name
      ((reconcileUpgrade (s.readsOf reads) u (some view) now s.directives).take writes) = t at *
    have hmoved : Moved u view name s t := ht ▸ upgrade_moved
    -- the owner among the upgrades after the step, when it is neither deleted nor finished
    have howner : ∀ v ∈ t.upgrades, v.deleting = false → v.terminal = false →
        v.uid = u.uid → u.deleting = false ∧ u.terminal = false ∧ v.name = name := by
      intro v hv hkept hunfinished hvuid
      rcases hopen v hv hkept hunfinished with ⟨v', hv', huid', hname', hrest⟩ | ⟨he, -⟩
      · obtain rfl := h.keyed.eq_of_uid hv' hmem (huid'.trans hvuid)
        refine ⟨hrest.1, hrest.2, hname'.symm.trans ?_⟩
        simpa using find?_some hu
      · cases he
    cases hmoved with
    | none stored versions => exact .inl ⟨by rw [stored], by rw [stored]⟩
    | finish running owned last applied stored versions terminal =>
      refine .inr (.inr ⟨?_, fun v hv hkept hvuid => ?_⟩)
      · exact (patched stored hok).uid
      by_contra hunfinished
      have hunfinished := Bool.not_eq_true _ ▸ hunfinished
      have hvname := (howner v hv hkept hunfinished (hvuid.trans (hsame.uid.symm.trans owned))).2.2
      rw [terminal v hv hvname] at hunfinished
      cases hunfinished
    | @move kind modified hmove stored versions =>
      have hnew := patched stored hok
      rw [hnew.uid, hnew.name, ← hsame.uid, ← hsame.name]
      have hgiven : view.annotations.upgradeUID = u.uid →
          (u.deleting = true ∨ u.terminal = true) → ∀ v ∈ t.upgrades, v.deleting = false →
            v.uid = view.annotations.upgradeUID → v.terminal = true := by
        intro howned hdone v hv hkept hvuid
        by_contra hunfinished
        obtain ⟨hudel, huterm, -⟩ := howner v hv hkept (Bool.not_eq_true _ ▸ hunfinished)
          (hvuid.trans howned)
        rw [hudel, huterm] at hdone
        rcases hdone with hdone | hdone <;> cases hdone
      cases hmove with
      | claimMajor running free | claimMinor running free =>
        exact .inr (.inl ⟨free, u, hmem, running, rfl, rfl⟩)
      | release owned terminal => exact .inr (.inr ⟨rfl, hgiven owned (.inr terminal)⟩)
      | abandon owned deleting => exact .inr (.inr ⟨rfl, hgiven owned (.inl deleting)⟩)
      | _ => exact .inl ⟨rfl, rfl⟩
  | _ =>
    have hpart := hother fun _ _ _ _ _ h => by cases h
    exact .inl ⟨(sameUpgrade hpart).uid, (sameUpgrade hpart).name⟩

theorem step (h : Owned s) (hok : informed s e) (hcase : StepCase config s e t) : Owned t := by
  have hkeyed := h.keyed.step hcase
  have hversion : ∀ v ∈ t.versions, v = t.stored ∨ v ∈ s.versions := by
    rcases hcase.versions with ⟨hstored, hvers⟩ | hvers
    · exact fun v hv => .inr (hvers ▸ hv)
    · exact fun v hv => mem_cons.mp (hvers ▸ hv)
  have howners : ∀ v ∈ s.versions, v.annotations.upgradeUID = "" ∨
      v.annotations.upgradeUID ∈ t.upgradeUIDs ∧ v.annotations.upgradeName ≠ "" :=
    fun v hv => (h.owners v hv).imp id fun ⟨h1, h2⟩ => ⟨hcase.upgradeUIDs _ h1, h2⟩
  refine ⟨hkeyed, ?_, fun v hv => ?_, fun u hu hkept hopen v hv hvuid => ?_⟩
  · rcases hcase.versions with ⟨hstored, hvers⟩ | hvers
    · rw [hstored, hvers]
      exact h.newest
    · exact ⟨_, hvers⟩
  · rcases hversion v hv with rfl | hv
    · rcases h.owner hok hcase with ⟨huid, hname⟩ | ⟨-, u, hu, -, huid, hname⟩ | ⟨huid, -⟩
      · rw [huid, hname]
        exact howners _ h.stored_mem
      · have hkey := h.known (u.name, u.uid) (mem_map_of_mem hu)
        rw [huid, hname]
        exact .inr ⟨hcase.upgradeUIDs _ hkey.2.2, hkey.1⟩
      · exact .inl huid
    · exact howners v hv
  · rcases hversion v hv with rfl | hv
    · exact hvuid
    rcases hcase.unfinished h.names hu hkept hopen with
      ⟨u', hu', huid', -, hkept', hopen'⟩ | ⟨he, hfresh⟩
    · have hstored := h.unfinished u' hu' hkept' hopen' v hv (hvuid.trans huid'.symm)
      rcases h.owner hok hcase with ⟨huid, -⟩ | ⟨hfree, -⟩ | ⟨-, hdone⟩
      · exact huid.trans (hstored.trans huid')
      · exact absurd (hstored.symm.trans hfree) (h.uid_ne hu')
      have hterminal := hdone u hu hkept (huid'.symm.trans hstored.symm)
      rw [hopen] at hterminal
      cases hterminal
    · rcases h.owners v hv with hfree | ⟨hmem, -⟩
      · have hne := (hkeyed.known (u.name, u.uid) (mem_map_of_mem hu)).2.1
        exact absurd (hvuid.symm.trans hfree) hne
      · exact absurd (hvuid ▸ hmem) hfresh

end Owned

open Machine

/-- Of the upgrades still running, at most one has ever held the instance. -/
def HeldByOne (s : HubState) : Prop :=
  ∀ u ∈ s.upgrades, ∀ v ∈ s.upgrades, u.running → v.running → ∀ i ∈ s.versions, ∀ j ∈ s.versions,
    i.annotations.upgradeUID = u.uid → j.annotations.upgradeUID = v.uid → u = v

theorem heldByOne_of_reach (h : Reach (step config) (Initial config) informed s) : HeldByOne s := by
  have howned : Owned s := h.invariant (fun _ => .initial)
    fun _ _ _ hinv hok hst => hinv.step hok (step_case hst)
  intro u hu v hv hrun hrun' i hi j hj huid hvuid
  have hholds := howned.unfinished u hu hrun.1 hrun.2.1 i hi huid
  exact howned.keyed.eq_of_uid hu hv
    (hholds.symm.trans (howned.unfinished v hv hrun'.1 hrun'.2.1 j hj hvuid))

/-- The older version has not been taken back. -/
def Succeeds (newer older : MultiSitePostgres) : Prop :=
  SpecStands older newer ∧ older.status.activeRevision ≤ newer.status.activeRevision

theorem StepCase.succeeds (h : StepCase config s e t) : Succeeds t.stored s.stored := by
  by_cases he : isReconcile e = false
  · have hstand := (h.plansStand he).2.2
    exact ⟨hstand.toSpecStands, hstand.activeRevision.ge⟩
  cases h with
  | issue =>
    obtain ⟨f, hstored⟩ := s.applyOutcome_finalizer ..
    rw [hstored]
    exact ⟨.of_status .., le_rfl⟩
  | commit => exact ⟨.of_status .., (le_mergeReconciledStatus ..).1⟩
  | abandon => exact ⟨.of_status .., le_rfl⟩
  | _ => exact absurd rfl he

theorem succeeds_of_reach {ok : HubState → HubEvent → Prop}
    (h : Reach (step config) (Initial config) ok s) : Throughout (Succeeds s.stored) s := by
  have hself : ∀ i, Succeeds i i := fun i => ⟨.of_status i i.status i.finalizer, le_rfl⟩
  refine h.invariant (I := fun s => Throughout (Succeeds s.stored) s) (fun s hinit => ?_)
    fun s e t hinv _ hst => ?_
  · refine ⟨hself _, fun v hv => ?_⟩
    rw [hinit.versions, mem_singleton] at hv
    exact hv ▸ hself _
  · have hnext := (step_case hst).succeeds
    refine (step_case hst).throughout ⟨hnext, fun v hv => ?_⟩ (hself _)
    have hold := hinv.versions v hv
    exact ⟨hold.1.trans hnext.1, hold.2.trans hnext.2⟩

open Sample

/-- A second upgrade is requested while the first one holds the instance, and is refused. -/
def contested : HubState :=
  Sample.after ledger informed (upgradeRequested ++
    [upgradeStep, fun _ => .createUpgrade minorUpgrade, minorStep, minorStep] ++ reconciledWith)

/-- Both upgrades are running, and the first has the instance. -/
def Contested (s : HubState) : Prop :=
  s.stored.annotations.upgradeUID = ledgerUpgrade.uid ∧
    s.upgrades.map (fun u => (u.uid, u.deleting, u.terminal, u.finalizer)) =
      [(minorUpgrade.uid, false, false, true), (ledgerUpgrade.uid, false, false, true)]
deriving Decidable

theorem contested_reach :
    Reach (step Sample.hub) (Initial Sample.hub) informed contested ∧ Contested contested :=
  Sample.after_reach (P := Contested) Sample.ledger_initial (by decide +kernel)

theorem contested_heldByOne : Contested contested ∧ HeldByOne contested :=
  ⟨contested_reach.2, heldByOne_of_reach contested_reach.1⟩

theorem contested_succeeds :
    Contested contested ∧ Throughout (Succeeds contested.stored) contested :=
  ⟨contested_reach.2, succeeds_of_reach contested_reach.1⟩

end HubState

end Mspsql
