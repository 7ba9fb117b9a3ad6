import Mspsql.Hub.Entries
import Mspsql.Hub.UpgradeSpec

/-!
# Steps of an upgrade and the plans that carry them

The upgrade controller records a step on the instance together with the revision it
expects to carry it, and goes on when the active revision has reached the expected one
and every entry reports it.  The revision is a guess: the active revision the
controller read, plus one.  `gated_of_reach` says when it is right.
-/

namespace Mspsql

open MultiSitePostgres List

variable {reads : HubReads} {u : PostgresUpgrade} {s t : HubState}

def CarriesStep (uid : String) (phase : UpgradePhaseValue) (member : String)
    (p : SitePlan) : Prop :=
  match phase with
  | .major ph => ∃ m ∈ p.majorUpgrade, m.operationUID = uid ∧ m.phase = ph
  | .minor ph => ∃ m ∈ p.upgrade, m.operationUID = uid ∧ m.phase = ph ∧ m.targetMember = member
  | _ => False

instance (uid : String) (phase : UpgradePhaseValue) (member : String) (p : SitePlan) :
    Decidable (CarriesStep uid phase member p) := by
  unfold CarriesStep
  cases phase <;> infer_instance

/-! ## What a plan carries -/

theorem upgradePlans_carriesStep {i : MultiSitePostgres} {upgrade : Option UpgradePlan}
    {major : Option MajorUpgradePlan} {p : SitePlan}
    (h : upgradePlans reads i = .ok (upgrade, major)) (hname : i.annotations.upgradeName ≠ "")
    (hu : reads.upgrade? i.annotations.upgradeName = some u) (hupgrade : p.upgrade = upgrade)
    (hmajor : p.majorUpgrade = major) :
    CarriesStep u.uid i.annotations.upgradePhase i.annotations.upgradeMember p := by
  unfold upgradePlans at h
  rw [if_neg hname, hu] at h
  dsimp only at h
  split at h
  · rename_i hphase
    split at h
    · cases h
    split at h
    · cases h
    obtain ⟨rfl, rfl⟩ := Prod.mk.inj (Except.ok.inj h)
    rw [hphase]
    exact ⟨_, hmajor, rfl, rfl⟩
  · rename_i hphase
    obtain ⟨rfl, rfl⟩ := Prod.mk.inj (Except.ok.inj h)
    rw [hphase]
    exact ⟨_, hupgrade, rfl, rfl, rfl⟩
  · split at h <;> cases h
  · cases h

def Annotations.upgradePart (a : Annotations) : Annotations :=
  { a with
    restoreUID := "", restoreName := "", restoreSourceUID := "", restorePhase := .absent
    forceOrphan := false }

theorem patchField_self {α : Type} [DecidableEq α] (base modified : α) :
    patchField base modified base = modified := by
  unfold patchField
  split
  · exact (‹_› : modified = base).symm
  · rfl

namespace HubState

/-! ## Upgrades and their names -/

def upgradeKeys (s : HubState) : List (String × String) :=
  s.upgrades.map fun u => (u.name, u.uid)

theorem updateUpgrade_keys (s : HubState) (name : String) {f : PostgresUpgrade → PostgresUpgrade}
    (hf : ∀ u, (f u).name = u.name ∧ (f u).uid = u.uid) :
    (s.updateUpgrade name f).upgradeKeys.Sublist s.upgradeKeys := by
  refine Lists.update_sublist fun u => ?_
  rw [(hf u).1, (hf u).2]

theorem applyUpgradeWrite_keys (name : String) (s : HubState) (w : UpgradeWrite) :
    (applyUpgradeWrite name s w).upgradeKeys.Sublist s.upgradeKeys := by
  cases w with
  | patchInstance kind base modified =>
    unfold applyUpgradeWrite
    dsimp only
    split <;> exact List.Sublist.refl _
  | setStatus status | addFinalizer | removeFinalizer =>
    exact s.updateUpgrade_keys name fun _ => ⟨rfl, rfl⟩
  | createDirective map => exact List.Sublist.refl _

theorem applyUpgradeWrites_keys (s : HubState) (name : String) (writes : List UpgradeWrite) :
    (s.applyUpgradeWrites name writes).upgradeKeys.Sublist s.upgradeKeys := by
  induction writes generalizing s with
  | nil => exact List.Sublist.refl _
  | cons w rest ih => exact (ih _).trans (applyUpgradeWrite_keys name s w)

/-! ## Upgrade writes on the stored instance -/

def recordedStep (s : HubState) : Advance where
  operationUID := s.stored.annotations.upgradeUID
  phase := s.stored.annotations.upgradePhase
  member := s.stored.annotations.upgradeMember
  sites := s.stored.status.sites.map (·.name)

theorem applyUpgradeWrites_of_not_patch (s : HubState) (name : String)
    {writes : List UpgradeWrite} (h : ∀ w ∈ writes, w.isPatch = false) :
    (s.applyUpgradeWrites name writes).stored = s.stored ∧
      (s.applyUpgradeWrites name writes).advances = s.advances ∧
      (s.applyUpgradeWrites name writes).versions = s.versions := by
  induction writes generalizing s with
  | nil => exact ⟨rfl, rfl, rfl⟩
  | cons w rest ih =>
    obtain ⟨hstored, hadvances, hvers⟩ :=
      ih (applyUpgradeWrite name s w) fun w' hw' => h w' (mem_cons_of_mem _ hw')
    rw [applyUpgradeWrites_cons, hstored, hadvances, hvers]
    cases w with
    | patchInstance kind base modified =>
      have hpatch := h _ mem_cons_self
      cases hpatch
    | _ => exact ⟨rfl, rfl, rfl⟩

theorem applyUpgradeWrites_append (s : HubState) (name : String) (before rest : List UpgradeWrite) :
    s.applyUpgradeWrites name (before ++ rest) =
      (s.applyUpgradeWrites name before).applyUpgradeWrites name rest :=
  foldl_append ..

variable {s t : HubState} {u : PostgresUpgrade} {config : HubConfig}

theorem applyUpgradeWrites_spec (name : String) {writes : List UpgradeWrite}
    (h : WritesSpec u s.stored writes) :
    ((s.applyUpgradeWrites name writes).stored = s.stored ∧
        (s.applyUpgradeWrites name writes).advances = s.advances) ∨
      ∃ kind modified, PatchSpec u s.stored kind modified ∧
        (s.applyUpgradeWrites name writes).stored = patchInstance s.stored modified s.stored ∧
        (s.applyUpgradeWrites name writes).advances =
          if kind = .advance ∨ kind = .release then s.recordedStep :: s.advances
          else s.advances := by
  cases h with
  | none h => exact .inl ((applyUpgradeWrites_of_not_patch s name h).imp_right And.left)
  | @one before rest kind modified hbefore hrest hpatch =>
    refine .inr ⟨kind, modified, hpatch, ?_⟩
    obtain ⟨hstored, hadvances, -⟩ := applyUpgradeWrites_of_not_patch s name hbefore
    rw [applyUpgradeWrites_append, applyUpgradeWrites_cons]
    obtain ⟨hstored', hadvances', -⟩ := applyUpgradeWrites_of_not_patch
      (applyUpgradeWrite name (s.applyUpgradeWrites name before)
        (.patchInstance kind s.stored modified)) name hrest
    rw [hstored', hadvances']
    unfold applyUpgradeWrite
    dsimp only
    by_cases hkind : kind = .advance ∨ kind = .release
    · rw [if_pos hkind, if_pos hkind, hstored, hadvances]
      exact ⟨rfl, rfl⟩
    · rw [if_neg hkind, if_neg hkind, ← hadvances]
      exact ⟨by rw [← hstored]; rfl, rfl⟩

/-! ## Recorded steps -/

/-- What the current plans, the recorded step and the upgrades have to do with one
another. -/
structure Tracked (s : HubState) : Prop where
  names : (s.upgradeKeys.map Prod.fst).Nodup
  uids : (s.upgradeKeys.map Prod.snd).Nodup
  known : ∀ k ∈ s.upgradeKeys, k.1 ≠ "" ∧ k.2 ≠ "" ∧ k.2 ∈ s.upgradeUIDs
  owner : s.stored.annotations.upgradeUID = "" ∨ s.stored.annotations.upgradeUID ∈ s.upgradeUIDs
  ownerName : ∀ k ∈ s.upgradeKeys, k.2 = s.stored.annotations.upgradeUID →
    k.1 = s.stored.annotations.upgradeName
  fingerprint : ∀ f, s.currentFingerprint = .sum f →
    f.upgradeUID = "" ∨ f.upgradeUID ∈ s.upgradeUIDs
  /-- Once the expected revision is reached, the fingerprint covers the recorded step. -/
  expected : s.stored.deleting = false → s.stored.annotations.upgradeUID ≠ "" →
    ∀ x, s.stored.annotations.upgradeExpectedRevision = some x → 1 ≤ x ∧
      (x ≤ s.currentRevision → ∃ f, s.currentFingerprint = .sum f ∧
        f.upgradeUID = s.stored.annotations.upgradeUID ∧
        f.upgradePhase = s.stored.annotations.upgradePhase ∧
        f.upgradeMember = s.stored.annotations.upgradeMember)
  /-- While the upgrade exists, the current plans carry the step of the fingerprint. -/
  carried : s.stored.deleting = false → ∀ p ∈ s.written, p.revision = s.currentRevision →
    ∀ f, s.currentFingerprint = .sum f → (∃ k ∈ s.upgradeKeys, k.2 = f.upgradeUID) →
      CarriesStep f.upgradeUID f.upgradePhase f.upgradeMember p

namespace Tracked

theorem initial {config : HubConfig} (h : Initial config s) : Tracked s := by
  have hkeys : s.upgradeKeys = [] := by rw [upgradeKeys, h.upgrades]; rfl
  have hprint : ∀ f, s.currentFingerprint ≠ .sum f := by
    intro f hf
    rw [currentFingerprint_of_none h.pending, h.planFingerprint] at hf
    cases hf
  refine ⟨?_, ?_, ?_, .inl h.upgradeUID, ?_, fun f hf => absurd hf (hprint f), ?_, ?_⟩
  · rw [hkeys]
    exact nodup_nil
  · rw [hkeys]
    exact nodup_nil
  · rw [hkeys]
    exact nofun
  · rw [hkeys]
    exact nofun
  · exact fun _ hne => absurd h.upgradeUID hne
  · exact fun _ p _ _ f hf => absurd hf (hprint f)

/-- The frame rule: the recorded step, the current plans and the known upgrades stay;
upgrades may disappear. -/
theorem frame (h : Tracked s) (hkeys : t.upgradeKeys.Sublist s.upgradeKeys)
    (hknown : t.upgradeUIDs = s.upgradeUIDs)
    (hdel : t.stored.deleting = false → s.stored.deleting = false)
    (hann : t.stored.annotations.upgradePart = s.stored.annotations.upgradePart)
    (hwritten : ∀ p ∈ t.written, p ∈ s.written) (hrev : t.currentRevision = s.currentRevision)
    (hprint : t.currentFingerprint = s.currentFingerprint) : Tracked t := by
  have huid : t.stored.annotations.upgradeUID = s.stored.annotations.upgradeUID :=
    congrArg (·.upgradeUID) hann
  have hname : t.stored.annotations.upgradeName = s.stored.annotations.upgradeName :=
    congrArg (·.upgradeName) hann
  have hphase : t.stored.annotations.upgradePhase = s.stored.annotations.upgradePhase :=
    congrArg (·.upgradePhase) hann
  have hmember : t.stored.annotations.upgradeMember = s.stored.annotations.upgradeMember :=
    congrArg (·.upgradeMember) hann
  have hexpected : t.stored.annotations.upgradeExpectedRevision =
      s.stored.annotations.upgradeExpectedRevision :=
    congrArg (·.upgradeExpectedRevision) hann
  refine ⟨h.names.sublist (hkeys.map _), h.uids.sublist (hkeys.map _),
    fun k hk => hknown ▸ h.known k (hkeys.subset hk), ?_, fun k hk => ?_, ?_, fun hd => ?_,
    fun hd p hp => ?_⟩
  · rw [huid, hknown]
    exact h.owner
  · rw [huid, hname]
    exact h.ownerName k (hkeys.subset hk)
  · rw [hprint, hknown]
    exact h.fingerprint
  · rw [huid, hexpected, hphase, hmember, hrev, hprint]
    exact h.expected (hdel hd)
  rw [hrev, hprint]
  rintro hcur f hf ⟨k, hk, hkuid⟩
  exact h.carried (hdel hd) p (hwritten p hp) hcur f hf ⟨k, hkeys.subset hk, hkuid⟩

theorem patch {kind : PatchKind} {modified : MultiSitePostgres} (h : Tracked s) (hseq : Sequenced s)
    (hu : u ∈ s.upgrades) (hpatch : PatchSpec u s.stored kind modified)
    (hquiet : s.currentRevision = s.stored.status.activeRevision)
    (hstored : t.stored = patchInstance s.stored modified s.stored)
    (hkeys : t.upgradeKeys.Sublist s.upgradeKeys) (hknown : t.upgradeUIDs = s.upgradeUIDs)
    (hwritten : t.written = s.written) (hrev : t.currentRevision = s.currentRevision)
    (hprint : t.currentFingerprint = s.currentFingerprint) : Tracked t := by
  have hkey : (u.name, u.uid) ∈ s.upgradeKeys := mem_map_of_mem hu
  have huid : t.stored.annotations.upgradeUID = modified.annotations.upgradeUID := by
    rw [hstored]
    exact patchField_self ..
  have hname : t.stored.annotations.upgradeName = modified.annotations.upgradeName := by
    rw [hstored]
    exact patchField_self ..
  have hexpected : t.stored.annotations.upgradeExpectedRevision =
      modified.annotations.upgradeExpectedRevision := by
    rw [hstored]
    exact patchField_self ..
  have hdel : t.stored.deleting = s.stored.deleting := by rw [hstored]; rfl
  refine ⟨h.names.sublist (hkeys.map _), h.uids.sublist (hkeys.map _),
    fun k hk => hknown ▸ h.known k (hkeys.subset hk), ?_, fun k hk hkuid => ?_, ?_,
    fun _ hne x hx => ?_, fun hd p hp => ?_⟩
  · rw [huid, hknown]
    rcases hpatch.owner with hnone | ⟨-, ⟨huid', -⟩ | ⟨huid', -⟩⟩
    · exact .inl hnone
    · exact .inr (huid' ▸ (h.known _ hkey).2.2)
    · exact huid' ▸ h.owner
  · rw [huid] at hkuid
    rw [hname]
    rcases hpatch.owner with hnone | ⟨-, ⟨huid', hname'⟩ | ⟨huid', hname'⟩⟩
    · exact absurd (hkuid.trans hnone) (h.known k (hkeys.subset hk)).2.1
    · have hsame : k = (u.name, u.uid) := inj_on_of_nodup_map h.uids
        (hkeys.subset hk) hkey (hkuid.trans huid')
      rw [hsame, hname']
    · rw [hname']
      exact h.ownerName k (hkeys.subset hk) (hkuid.trans huid')
  · rw [hprint, hknown]
    exact h.fingerprint
  · rw [huid] at hne
    rw [hexpected] at hx
    have hnonneg := hseq.nonneg
    -- the expected revision is beyond every plan there is
    rcases hpatch.owner with hnone | ⟨hnext, -⟩
    · exact absurd hnone hne
    · rw [hnext, Option.some.injEq] at hx
      exact ⟨by omega, fun hle => by omega⟩
  · rw [hdel] at hd
    rw [hwritten] at hp
    rw [hrev, hprint]
    rintro hcur f hf ⟨k, hk, hkuid⟩
    exact h.carried hd p hp hcur f hf ⟨k, hkeys.subset hk, hkuid⟩

theorem carriesStep_of_planned {prepared : MultiSitePostgres} {inputs : PlanInputs} {n : Nat}
    {revision : Int} {p : SitePlan} (h : Tracked s) (hreads : reads.upgrades = s.upgrades)
    (hobs : Observed s.stored prepared) (hinputs : planInputs reads prepared n = .ok inputs)
    (hp : PlannedFrom reads s.stored revision inputs p)
    (howned : ∃ k ∈ s.upgradeKeys, k.2 = s.stored.annotations.upgradeUID) :
    CarriesStep s.stored.annotations.upgradeUID s.stored.annotations.upgradePhase
      s.stored.annotations.upgradeMember p := by
  obtain ⟨k, hk, hkuid⟩ := howned
  have hkname := h.ownerName k hk hkuid
  obtain ⟨u, hu, rfl⟩ := mem_map.mp hk
  dsimp only at hkname hkuid
  have hann := annotations_of_core hobs.core
  have hfound : reads.upgrade? prepared.annotations.upgradeName = some u := by
    have hnames : (s.upgrades.map (·.name)).Nodup := by
      have hnodup := h.names
      rwa [upgradeKeys, map_map] at hnodup
    rw [hann, ← hkname, HubReads.upgrade?, hreads]
    exact Lists.find?_of_nodup hnames hu
  have hcarries := upgradePlans_carriesStep (planInputs_ok hinputs).2
    (by rw [hann, ← hkname]; exact (h.known _ hk).1) hfound hp.upgrade hp.majorUpgrade
  rw [hann, hkuid] at hcarries
  exact hcarries

theorem issue {now : Time} {o : Outcome} (h : Tracked s) (hseq : Sequenced s)
    (hnone : s.pending = none) (hissue : IssueSpec s t reads now o) :
    Tracked t := by
  obtain ⟨finalizer, hstored⟩ := hissue.stored
  have hkeys : t.upgradeKeys = s.upgradeKeys := by rw [upgradeKeys, hissue.upgrades]; rfl
  have hann : t.stored.annotations = s.stored.annotations := by rw [hstored]
  have hdeleting : t.stored.deleting = s.stored.deleting := by rw [hstored]
  have hknown : ∀ k ∈ t.upgradeKeys, k.1 ≠ "" ∧ k.2 ≠ "" ∧ k.2 ∈ t.upgradeUIDs := by
    rw [hkeys, hissue.upgradeUIDs]
    exact h.known
  have howner : t.stored.annotations.upgradeUID = "" ∨
      t.stored.annotations.upgradeUID ∈ t.upgradeUIDs := by
    rw [hann, hissue.upgradeUIDs]
    exact h.owner
  cases hissue.plansCase hseq.nonneg with
  | quiet _ written pending =>
    obtain ⟨hrev, hprint⟩ := current_of_keepsPlans hnone hissue.stored pending
    exact h.frame (hkeys ▸ List.Sublist.refl _) hissue.upgradeUIDs (hdeleting ▸ id)
      (congrArg _ hann) written hrev hprint
  | issued deleting observed hinputs pending revision _ hf _ planned =>
    have hprint := (currentFingerprint_of_some pending).trans hf
    refine ⟨hkeys ▸ h.names, hkeys ▸ h.uids, hknown, howner, ?_, ?_, ?_, ?_⟩
    · rw [hkeys, hann]
      exact h.ownerName
    · intro f hf'
      rw [hprint, PlanFingerprint.sum.injEq] at hf'
      rw [← hf', hissue.upgradeUIDs]
      exact h.owner
    · intro hdel huid x hx
      rw [hann] at huid hx ⊢
      refine ⟨(h.expected (hdeleting ▸ hdel) huid x hx).1, fun _ => ?_⟩
      exact ⟨_, hprint, rfl, rfl, rfl⟩
    · intro _ p hp hcur f hf' howned
      rw [hprint, PlanFingerprint.sum.injEq] at hf'
      subst hf'
      rw [hkeys] at howned
      rw [currentRevision_of_some pending] at hcur
      rcases hissue.written p hp with hplan | hin
      · exact h.carriesStep_of_planned hissue.reads observed hinputs (planned p hplan) howned
      · obtain ⟨hsame, hold, -⟩ := hseq.reissued hnone deleting observed hin (hcur.trans revision)
        exact h.carried deleting p hin (hold.trans (currentRevision_of_none hnone).symm) _
          ((currentFingerprint_of_none hnone).trans hsame) howned
  | deletion deleting pending _ fingerprint =>
    have hgone : t.stored.deleting ≠ false := by rw [hdeleting, deleting]; decide
    refine ⟨hkeys ▸ h.names, hkeys ▸ h.uids, hknown, howner, ?_, ?_,
      fun hdel => absurd hdel hgone, fun hdel => absurd hdel hgone⟩
    · rw [hkeys, hann]
      exact h.ownerName
    · intro f hf
      rw [currentFingerprint_of_some pending, fingerprint] at hf
      cases hf

theorem create (h : Tracked s) (huid : u.uid ≠ "") (hname : u.name ≠ "")
    (hfresh : u.uid ∉ s.upgradeUIDs) (hunique : u.name ∉ s.upgrades.map (·.name)) :
    Tracked { s with upgrades := u :: s.upgrades, upgradeUIDs := u.uid :: s.upgradeUIDs } := by
  have hnever : ∀ x, x = "" ∨ x ∈ s.upgradeUIDs → u.uid ≠ x := by
    rintro x (hx | hx) hux
    · exact huid (hux.trans hx)
    · exact hfresh (hux ▸ hx)
  have hkeys : ∀ k ∈ (u.name, u.uid) :: s.upgradeKeys, ∀ x, x = "" ∨ x ∈ s.upgradeUIDs →
      k.2 = x → k ∈ s.upgradeKeys := by
    intro k hk x hx hkx
    rcases mem_cons.mp hk with rfl | hk
    · exact absurd hkx (hnever x hx)
    · exact hk
  refine ⟨?_, ?_, ?_, h.owner.imp id (mem_cons_of_mem _), ?_, ?_, h.expected, ?_⟩
  · refine nodup_cons.mpr ⟨fun hmem => ?_, h.names⟩
    obtain ⟨k, hk, hkname⟩ := mem_map.mp hmem
    obtain ⟨v, hv, rfl⟩ := mem_map.mp hk
    exact hunique (mem_map.mpr ⟨v, hv, hkname⟩)
  · refine nodup_cons.mpr ⟨fun hmem => ?_, h.uids⟩
    obtain ⟨k, hk, hkuid⟩ := mem_map.mp hmem
    have hknown := (h.known k hk).2.2
    rw [hkuid] at hknown
    exact hfresh hknown
  · intro k hk
    rcases mem_cons.mp hk with rfl | hk
    · exact ⟨hname, huid, mem_cons_self⟩
    · obtain ⟨h1, h2, h3⟩ := h.known k hk
      exact ⟨h1, h2, mem_cons_of_mem _ h3⟩
  · intro k hk hkuid
    exact h.ownerName k (hkeys k hk _ h.owner hkuid) hkuid
  · exact fun f hf => (h.fingerprint f hf).imp id (mem_cons_of_mem _)
  · rintro hd p hp hcur f hf ⟨k, hk, hkuid⟩
    exact h.carried hd p hp hcur f hf ⟨k, hkeys k hk _ (h.fingerprint f hf) hkuid, hkuid⟩

end Tracked

/-! ## Every step -/

/-- Besides, the upgrade controller works on the stored instance, not while a plan of a
new revision is in flight, not on an instance that is being deleted, and not for an upgrade
that was finished earlier but still holds the instance. -/
def attended (config : HubConfig) (s : HubState) (e : HubEvent) : Prop :=
  sequential config s e ∧
    match e with
    | .upgrade name view _ _ _ => view = s.stored ∧
        (∀ d ∈ s.pending, d.activeRevision = s.stored.status.activeRevision) ∧
        s.stored.deleting = false ∧
        ∀ u ∈ s.upgrade? name, u.terminal = true → s.stored.annotations.upgradeUID ≠ u.uid
    | _ => True

instance (config : HubConfig) (s : HubState) (e : HubEvent) : Decidable (attended config s e) := by
  unfold attended
  cases_type HubEvent <;> infer_instance

theorem currentRevision_of_settled
    (h : ∀ d ∈ s.pending, d.activeRevision = s.stored.status.activeRevision) :
    s.currentRevision = s.stored.status.activeRevision := by
  rcases hp : s.pending with _ | d
  · exact currentRevision_of_none hp
  · rw [currentRevision, hp]
    exact h d hp

def Gated (s : HubState) : Prop :=
  ∀ a ∈ s.advances, ∀ n ∈ a.sites, ∃ p ∈ s.applied,
    p.site.name = n ∧ CarriesStep a.operationUID a.phase a.member p

instance (s : HubState) : Decidable (Gated s) := by
  unfold Gated
  infer_instance

theorem Tracked.recordedStep_applied {modified : MultiSitePostgres} (h : Tracked s)
    (hreported : Reported s) (hentered : Entered s) (hu : u ∈ s.upgrades)
    (hpatch : PatchSpec u s.stored .advance modified)
    (hsettled : s.currentRevision = s.stored.status.activeRevision)
    (hdel : s.stored.deleting = false) :
    ∀ n ∈ s.recordedStep.sites, ∃ p ∈ s.applied, p.site.name = n ∧
      CarriesStep s.recordedStep.operationUID s.recordedStep.phase s.recordedStep.member p := by
  obtain ⟨howner, -, happlied⟩ := hpatch.gate rfl
  have hkey : (u.name, u.uid) ∈ s.upgradeKeys := mem_map_of_mem hu
  have huid : s.stored.annotations.upgradeUID ≠ "" := howner ▸ (h.known _ hkey).2.1
  unfold majorPhaseApplied at happlied
  split at happlied
  · rename_i x hx
    rw [decide_eq_true_eq] at happlied
    obtain ⟨hpos, hcovers⟩ := h.expected hdel huid x hx
    obtain ⟨f, hf, hfuid, hfphase, hfmember⟩ := hcovers (hsettled ▸ happlied.1)
    have hne : s.stored.status.activeRevision ≠ 0 := by omega
    intro n hn
    obtain ⟨p, hp, hname, hrev⟩ :=
      applied_everywhere hreported hentered happlied.2 hne n hn
    refine ⟨p, hp, hname, ?_⟩
    have hcarries := h.carried hdel p (hreported.applied p hp)
      (hrev.trans hsettled.symm) f hf ⟨_, hkey, howner.symm.trans hfuid.symm⟩
    rw [hfuid, hfphase, hfmember] at hcarries
    exact hcarries
  · cases happlied

/-- An event that is neither part of an instance reconcile nor of an upgrade. -/
def bystands : HubEvent → Bool
  | .issue .. | .commit | .abandon | .upgrade .. | .createUpgrade .. => false
  | _ => true

theorem StepCase.bystands {e : HubEvent} (h : StepCase config s e t) (he : bystands e = true) :
    t.upgradeKeys.Sublist s.upgradeKeys ∧ t.upgradeUIDs = s.upgradeUIDs ∧
      t.stored.annotations.upgradePart = s.stored.annotations.upgradePart ∧
      t.advances = s.advances := by
  cases h with
  | issue | commit | abandon | upgrade | createUpgrade => cases he
  | apply | message | refused | edit | annotate | delete => exact ⟨.refl _, rfl, rfl, rfl⟩
  | backupResult hrecords => exact ⟨.refl _, rfl, congrArg _ hrecords.annotations, rfl⟩
  | upgradeBackupSucceeded hrecords =>
    exact ⟨s.updateUpgrade_keys _ fun _ => ⟨rfl, rfl⟩, rfl, congrArg _ hrecords.annotations, rfl⟩
  | upgradeBackupFailed | deleteUpgrade =>
    exact ⟨s.updateUpgrade_keys _ fun _ => ⟨rfl, rfl⟩, rfl, rfl, rfl⟩

theorem PlansStand.current (hpend : t.pending = s.pending) (h : PlansStand s.stored t.stored) :
    t.currentRevision = s.currentRevision ∧ t.currentFingerprint = s.currentFingerprint := by
  rw [currentRevision, currentFingerprint, hpend, h.activeRevision, h.planFingerprint]
  exact ⟨rfl, rfl⟩

theorem Gated.mono (h : Gated s) (hadvances : t.advances = s.advances)
    (happlied : ∀ p ∈ s.applied, p ∈ t.applied) : Gated t := by
  intro a ha n hn
  rw [hadvances] at ha
  obtain ⟨p, hp, hcarries⟩ := h a ha n hn
  exact ⟨p, happlied p hp, hcarries⟩

/-- Everything known of a run in which both controllers work on what is stored. -/
structure Attended (s : HubState) : Prop extends booked : Booked s where
  tracked : Tracked s
  gated : Gated s

theorem Attended.initial (h : Initial config s) : Attended s := by
  refine ⟨.initial h, .initial h, ?_⟩
  intro a ha
  rw [h.advances] at ha
  cases ha

theorem Attended.upgrade {name : String} {now : Time} {writes : Nat} (h : Attended s)
    (hu : s.upgrade? name = some u)
    (hsettled : ∀ d ∈ s.pending, d.activeRevision = s.stored.status.activeRevision)
    (hdel : s.stored.deleting = false)
    (hholds : u.terminal = true → s.stored.annotations.upgradeUID ≠ u.uid) :
    Tracked (s.applyUpgradeWrites name
        ((reconcileUpgrade (s.readsOf reads) u (some s.stored) now s.directives).take writes)) ∧
      Gated (s.applyUpgradeWrites name
        ((reconcileUpgrade (s.readsOf reads) u (some s.stored) now s.directives).take writes)) := by
  have hmem : u ∈ s.upgrades := mem_of_find?_eq_some hu
  have hcur := currentRevision_of_settled hsettled
  have hspec := (reconcileUpgrade_spec (s.readsOf reads) u s.stored now s.directives).take writes
  generalize (reconcileUpgrade (s.readsOf reads) u (some s.stored) now s.directives).take
    writes = ws at hspec
  have hkeys := s.applyUpgradeWrites_keys name ws
  have hstand := s.applyUpgradeWrites_plansStand name ws
  have hfixed := s.applyUpgradeWrites_eq name ws
  have hpend : (s.applyUpgradeWrites name ws).pending = s.pending := by rw [hfixed]
  have hwritten : (s.applyUpgradeWrites name ws).written = s.written := by rw [hfixed]
  have happlied : (s.applyUpgradeWrites name ws).applied = s.applied := by rw [hfixed]
  have hknown : (s.applyUpgradeWrites name ws).upgradeUIDs = s.upgradeUIDs := by rw [hfixed]
  obtain ⟨hrev, hprint⟩ := PlansStand.current hpend hstand
  rcases applyUpgradeWrites_spec name hspec with ⟨hstored, hadvances⟩ |
    ⟨kind, modified, hpatch, hstored, hadvances⟩
  · refine ⟨h.tracked.frame hkeys hknown (hstored ▸ id) (by rw [hstored])
      (fun p hp => hwritten ▸ hp) hrev hprint, ?_⟩
    exact h.gated.mono hadvances fun p hp => happlied ▸ hp
  · refine ⟨h.tracked.patch h.sequenced hmem hpatch hcur hstored hkeys hknown hwritten
      hrev hprint, ?_⟩
    intro a ha n hn
    rw [hadvances] at ha
    rw [happlied]
    by_cases hkind : kind = .advance ∨ kind = .release
    · rw [if_pos hkind] at ha
      rcases mem_cons.mp ha with rfl | ha
      · rcases hkind with rfl | rfl
        · exact h.tracked.recordedStep_applied h.reported h.entered hmem hpatch hcur hdel n hn
        · obtain ⟨howned, hterminal⟩ := hpatch.release rfl
          exact absurd howned (hholds hterminal)
      · exact h.gated a ha n hn
    · rw [if_neg hkind] at ha
      exact h.gated a ha n hn

theorem Attended.step {e : HubEvent} (h : Attended s) (hok : attended config s e)
    (hst : s.step config e = some t) : Attended t := by
  have hcase := step_case hst
  suffices hrest : Tracked t ∧ Gated t from
    ⟨h.booked.step hok.1 hst, hrest.1, hrest.2⟩
  by_cases he : bystands e = true
  · have hreconcile : isReconcile e = false := by
      cases e <;> first | rfl | cases he
    obtain ⟨hpend, hwritten, hstand⟩ := hcase.plansStand hreconcile
    obtain ⟨hrev, hprint⟩ := PlansStand.current hpend hstand
    obtain ⟨hkeys, hknown, hann, hadvances⟩ := hcase.bystands he
    refine ⟨h.tracked.frame hkeys hknown hstand.deleting hann
      (fun p hp => hwritten ▸ hp) hrev hprint, ?_⟩
    exact h.gated.mono hadvances (hcase.entries hreconcile).2.1
  · cases hcase with
    | issue _ hnone =>
      have hissue := hok.1.issueSpec
      refine ⟨h.tracked.issue h.sequenced hnone hissue, ?_⟩
      exact h.gated.mono hissue.advances fun p hp => hissue.applied ▸ hp
    | commit hdesired =>
      obtain ⟨hrev, hprint⟩ := h.sequenced.current_of_commit hdesired
      exact ⟨h.tracked.frame (.refl _) rfl id rfl (fun _ => id) hrev hprint,
        h.gated.mono rfl fun _ => id⟩
    | abandon =>
      obtain ⟨hrev, hprint⟩ := h.sequenced.current_of_abandon hok.1
      exact ⟨h.tracked.frame (.refl _) rfl id rfl (fun _ => id) hrev hprint,
        h.gated.mono rfl fun _ => id⟩
    | upgrade hu =>
      obtain ⟨-, rfl, hsettled, hdel, hholds⟩ := hok
      exact h.upgrade hu hsettled hdel (hholds _ hu)
    | createUpgrade huid hname hfresh hunique =>
      exact ⟨h.tracked.create huid hname hfresh hunique, h.gated.mono rfl fun _ => id⟩
    | _ => exact absurd rfl he

open Machine

/-- In every run in which both controllers work on the stored instance, instance
reconciles are not interrupted between their plan writes and their status write, and the
upgrade controller rests while a plan of a new revision is in flight, while the instance
is being deleted and for upgrades finished earlier: whenever a recorded step is replaced by
what follows it, every site in the status has applied a plan that carries the step. -/
theorem gated_of_reach {config : HubConfig} {s : HubState}
    (h : Reach (step config) (Initial config) (attended config) s) : Gated s := by
  exact (h.invariant (fun _ => Attended.initial) fun _ _ _ hinv hok hst => hinv.step hok hst :
    Attended s).gated

/-! ## A step that no plan carried -/

open Sample

/-- The plans of an edited specification are in flight when the upgrade takes the
instance: the revision it expects is theirs. -/
def overtakenScript : List (HubState → HubEvent) :=
  upgradeRequested ++ [fun s => .edit { s.stored.spec with postgres := { s.stored.spec.postgres with
        synchronousStandbyCount := 2 } },
      reconcileWith Sample.reads, upgradeStep, Sample.commit] ++
    appliedEverywhere ++ [upgradeStep]

/-- Preflight is replaced by drain although no plan has carried it. -/
theorem overtaken_not_gated : Reach (step Sample.hub) (Initial Sample.hub) anyStep
        (Sample.after ledger anyStep overtakenScript) ∧
      ¬ Gated (Sample.after ledger anyStep overtakenScript) :=
  Sample.after_reach (P := fun s => ¬ Gated s) Sample.ledger_initial (by decide +kernel)

/-- `ledger` after the first phase of its upgrade was carried to every site. -/
def drained : HubState :=
  Sample.after ledger (attended Sample.hub) (upgradeRequested ++
    [upgradeStep, reconcileWith Sample.reads, Sample.commit] ++
    appliedEverywhere ++ [upgradeStep])

theorem drained_reach : Reach (step Sample.hub) (Initial Sample.hub) (attended Sample.hub) drained ∧
      drained.advances.length = 1 :=
  Sample.after_reach (P := fun s => s.advances.length = 1) Sample.ledger_initial (by decide +kernel)

theorem drained_gated : drained.advances.length = 1 ∧ Gated drained :=
  ⟨drained_reach.2, gated_of_reach drained_reach.1⟩

end HubState

end Mspsql
