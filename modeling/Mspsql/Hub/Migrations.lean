import Mspsql.Hub.Replanning

/-!
# Address changes, one at a time

The planner moves an assigned member to a new address in a revision of its own, and keeps
the migration in the plans until all sites have applied it.  It recovers both the
assignment and the migration from the plan stored for the first listed site, so this holds
as long as that plan is one of the active revision.  A reconcile that stops after its first
plan write breaks it (`interrupted_unserialized`).

`Course` runs the hub together with a record of every issue of plans.
-/

namespace Mspsql

open List

variable {s t : HubState} {config : HubConfig} {e : HubEvent} {new : Issue} {w : Course}

structure Issue where
  revision : Int
  addresses : StringMap
  migration : Option AddressMigrationPlan
  /-- The sites of the specification it was made for, and the members it demands. -/
  sites : List String
  demanded : List String
  /-- The plans the sites had applied before it. -/
  applied : List SitePlan
deriving DecidableEq

/-- Every demanded member has an address. -/
def Issue.complete (i : Issue) : Bool := addressesComplete i.addresses i.demanded

def movedMembers (old new : Issue) : List String :=
  old.addresses.keys.filter fun member => addressIn old.addresses member ≠ "" ∧
    addressIn new.addresses member ≠ addressIn old.addresses member

def Announces (old new : Issue) (member : String) : Prop :=
  ∃ m ∈ new.migration, m.member = member ∧ m.oldAddress = addressIn old.addresses member ∧
    m.newAddress = addressIn new.addresses member
deriving Decidable

@[mk_iff] structure Follows (old new : Issue) : Prop where
  one : old.complete = true → (movedMembers old new).length ≤ 1
  announced : old.complete = true → ∀ member ∈ movedMembers old new, Announces old new member
  /-- A migration is dropped only when every site has applied a plan with it. -/
  dropped : ∀ m ∈ old.migration, new.migration ≠ some m → ∀ site ∈ old.sites,
    ∃ p ∈ new.applied, p.site.name = site ∧ p.addressMigration = some m

instance (old new : Issue) : Decidable (Follows old new) :=
  decidable_of_iff _ (follows_iff old new).symm

/-- Each issue follows the one before it; the newest comes first. -/
def Serialized (issued : List Issue) : Prop :=
  issued.IsChain fun new old => Follows old new
deriving Decidable

/-! ## The machine -/

structure Course where
  hub : HubState
  issued : List Issue := []
deriving DecidableEq

namespace Course

/-- The issue that plan writes for `view` make. -/
def issueOf (hub : HubState) (view : MultiSitePostgres) : List SitePlan → Option Issue
  | [] => none
  | plan :: _ => some {
      revision := plan.revision
      addresses := plan.memberAddresses
      migration := plan.addressMigration
      sites := view.spec.sites.map (·.name)
      demanded := expectedAddressMembers view.spec.sites
      applied := hub.applied }

def newIssue (config : HubConfig) (hub : HubState) : HubEvent → Option Issue
  | .issue view reads fails now writes =>
    issueOf hub view ((hub.outcome config view reads fails now).plans.take writes)
  | _ => none

def step (config : HubConfig) (w : Course) (e : HubEvent) : Option Course :=
  (w.hub.step config e).map fun hub =>
    { hub := hub, issued := (newIssue config w.hub e).toList ++ w.issued }

def Initial (config : HubConfig) (w : Course) : Prop :=
  HubState.Initial config w.hub ∧ w.issued = []

def firstCurrent (s : HubState) : Prop :=
  s.stored.status.activeRevision = 0 ∨
    ∃ p ∈ s.activePlan, p.revision = s.stored.status.activeRevision
deriving Decidable

def reportsAgree (s : HubState) : Prop :=
  ∀ member ∈ s.assigned.keys, addressIn s.assigned member ≠ "" →
    addressIn s.observed member = addressIn s.assigned member
deriving Decidable

/-- Instance reconciles work on the stored instance, which is not being deleted, and are not
interrupted; the first listed site has a plan of the active revision; and where the last
revision gave every demanded member an address, either this still is the case or no assigned
member is reported under another address. -/
def orderly (config : HubConfig) (w : Course) (e : HubEvent) : Prop :=
  HubState.sequential config w.hub e ∧ match e with
    | .issue .. => w.hub.stored.deleting = false ∧ firstCurrent w.hub ∧
        ∀ last ∈ w.issued.head?, last.complete = true →
          addressesComplete w.hub.assigned w.hub.demanded = true ∨ reportsAgree w.hub
    | _ => True

instance (config : HubConfig) (w : Course) : Decidable (orderly config w e) := by
  unfold orderly
  cases_type HubEvent <;> infer_instance

/-! ## The last issue -/

/-- The last issue carries what the current fingerprint covers, and every site it was made
for has got a plan of its revision. -/
structure Current (s : HubState) (last : Issue) : Prop where
  positive : 1 ≤ s.currentRevision
  fingerprint : ∃ f, s.currentFingerprint = .sum f ∧ f.addresses = last.addresses ∧
    f.addressMigration = last.migration
  sites : ∀ name ∈ last.sites, ∃ p ∈ s.written, p.site.name = name ∧
    p.revision = s.currentRevision

theorem Current.frame {last : Issue} (h : Current s last)
    (hrev : t.currentRevision = s.currentRevision)
    (hprint : t.currentFingerprint = s.currentFingerprint)
    (hwritten : ∀ p ∈ s.written, p ∈ t.written) : Current t last := by
  refine ⟨hrev ▸ h.positive, hprint ▸ h.fingerprint, fun name hname => ?_⟩
  obtain ⟨p, hp, hsite, hcur⟩ := h.sites name hname
  exact ⟨p, hwritten p hp, hsite, hcur.trans hrev.symm⟩

structure Recorded (w : Course) : Prop extends booked : HubState.Booked w.hub where
  kept : ∀ name p, w.hub.planMaps.get? name = some p → p ∈ w.hub.written
  current : ∀ last ∈ w.issued.head?, Current w.hub last
  serialized : Serialized w.issued

end Course

/-! ## Plan writes are logged -/

namespace HubState

theorem writePlan_kept (plan : SitePlan)
    (h : ∀ name p, s.planMaps.get? name = some p → p ∈ s.written) :
    ∀ name p, (s.writePlan plan).planMaps.get? name = some p → p ∈ (s.writePlan plan).written := by
  intro name p hp
  rw [planMaps_writePlan] at hp
  unfold writePlan
  split at hp
  · rename_i hnew
    rw [if_neg (by rw [hnew.2]; decide)]
    exact Option.some.inj hp ▸ mem_cons_self
  · split
    · exact h name p hp
    · exact mem_cons_of_mem _ (h name p hp)

theorem writePlans_kept (plans : List SitePlan)
    (h : ∀ name p, s.planMaps.get? name = some p → p ∈ s.written) :
    ∀ name p, (s.writePlans plans).planMaps.get? name = some p →
      p ∈ (s.writePlans plans).written := by
  induction plans generalizing s with
  | nil => exact h
  | cons plan rest ih => exact ih (writePlan_kept plan h)

theorem planMaps_kept (h : ∀ name p, s.planMaps.get? name = some p → p ∈ s.written)
    (hst : s.step config e = some t) :
    ∀ name p, t.planMaps.get? name = some p → p ∈ t.written := by
  cases step_case hst with
  | @issue view reads fails now writes =>
    have hplans := writePlans_kept ((s.outcome config view reads fails now).plans.take writes) h
    intro name p hp
    rw [applyOutcome_written]
    rw [applyOutcome_planMaps_eq] at hp
    split at hp
    · exact hplans name p hp
    split at hp
    · cases hp
    · exact hplans name p hp
  | upgrade =>
    rw [applyUpgradeWrites_eq]
    exact h
  | _ => exact h

theorem StepCase.written (h : StepCase config s e t) : t.written = s.written ∨
      s.written ⊆ t.written ∧ ∃ view reads fails now writes,
        e = .issue view reads fails now writes := by
  cases h with
  | issue => exact .inr ⟨fun p => applyOutcome_subset _ _ _ _ p, _, _, _, _, _, rfl⟩
  | upgrade => exact .inl (by rw [applyUpgradeWrites_eq])
  | _ => exact .inl rfl

end HubState

namespace Course

open HubState

/-! ## One issue after another -/

section Next

variable {w : Course} {last : Issue}

theorem Recorded.readBack (h : Recorded w) (hnone : w.hub.pending = none)
    (hdel : w.hub.stored.deleting = false) (hfirst : firstCurrent w.hub)
    (hlast : last ∈ w.issued.head?) :
    w.hub.assigned = last.addresses ∧ w.hub.migration = last.migration := by
  have hcur := h.current last hlast
  have hactive := currentRevision_of_none hnone
  obtain ⟨f, hf, haddr, hmig⟩ := hcur.fingerprint
  have hpositive := hcur.positive
  obtain ⟨p, hp, hrev⟩ : ∃ p ∈ w.hub.activePlan,
      p.revision = w.hub.stored.status.activeRevision := by
    refine hfirst.resolve_left fun hzero => ?_
    omega
  have hwritten : p ∈ w.hub.written := by
    unfold activePlan activeSitePlan at hp
    split at hp
    · cases hp
    · exact h.kept _ p hp
  obtain ⟨f', hf', hcarries⟩ :=
    h.sequenced.current hdel p hwritten (hrev.trans hactive.symm)
  obtain rfl := PlanFingerprint.sum.inj (hf.symm.trans hf')
  have hplan : activeSitePlan { planMaps := w.hub.planMaps } w.hub.stored = some p := hp
  constructor
  · rw [assigned, assignedAddresses, hplan]
    exact hcarries.memberAddresses.trans haddr
  · rw [migration, activeMigration, hplan]
    exact hcarries.addressMigration.trans hmig

theorem Recorded.appliedMigration (h : Recorded w) (hnone : w.hub.pending = none)
    (hdel : w.hub.stored.deleting = false) (hlast : last ∈ w.issued.head?)
    (happlied : w.hub.allApplied = true) {m : AddressMigrationPlan}
    (hm : last.migration = some m) :
    ∀ site ∈ last.sites, ∃ p ∈ w.hub.applied, p.site.name = site ∧
      p.addressMigration = some m := by
  have hcur := h.current last hlast
  have hactive := currentRevision_of_none hnone
  have hpositive := hcur.positive
  obtain ⟨f, hf, -, hmig⟩ := hcur.fingerprint
  intro site hsite
  obtain ⟨q, hq, rfl, hrev⟩ := hcur.sites site hsite
  have hentry := h.entered.stored.covers q hq (hrev.trans hactive)
  obtain ⟨p, hp, hname, hpr⟩ := applied_everywhere h.reported h.entered happlied (by omega)
    q.site.name hentry
  obtain ⟨f', hf', hcarries⟩ := h.sequenced.current hdel p (h.reported.applied p hp)
    (hpr.trans hactive.symm)
  obtain rfl := PlanFingerprint.sum.inj (hf.symm.trans hf')
  exact ⟨p, hp, hname, hcarries.addressMigration.trans (hmig.trans hm)⟩

theorem mem_movedMembers {old : Issue} {member : String} :
    member ∈ movedMembers old new ↔ member ∈ old.addresses.keys ∧
      addressIn old.addresses member ≠ "" ∧
      addressIn new.addresses member ≠ addressIn old.addresses member := by
  rw [movedMembers, mem_filter, decide_eq_true_eq]

theorem Recorded.follows (h : Recorded w) (reads : HubReads) (hnone : w.hub.pending = none)
    (hdel : w.hub.stored.deleting = false) (hfirst : firstCurrent w.hub)
    (hlast : last ∈ w.issued.head?)
    (hdemand : last.complete = true →
      addressesComplete w.hub.assigned w.hub.demanded = true ∨ reportsAgree w.hub)
    {new : Issue} (happlied : new.applied = w.hub.applied) {plan : AddressPlan}
    (hplan : plan = addressPlan (w.hub.readsOf reads) w.hub.stored)
    (haddr : new.addresses = plan.memberAddresses)
    (hmig : new.migration = plan.addressMigration) : Follows last new := by
  obtain ⟨hassigned, hmoving⟩ := h.readBack hnone hdel hfirst hlast
  -- a migration that is gone has been applied everywhere
  have hdropped : MigrationDone (w.hub.readsOf reads) w.hub.stored →
      ∀ m ∈ last.migration, ∀ site ∈ last.sites, ∃ p ∈ new.applied, p.site.name = site ∧
        p.addressMigration = some m := by
    intro hdone m hm
    rw [happlied]
    rcases hdone with hgone | hall
    · have hgone : w.hub.migration = none := hgone
      rw [← hmoving, hgone] at hm
      cases hm
    · exact h.appliedMigration hnone hdel hlast hall hm
  -- nothing moves when the assigned addresses stay
  have hunmoved : (∀ member ∈ last.addresses.keys, addressIn last.addresses member ≠ "" →
      addressIn new.addresses member = addressIn last.addresses member) →
      movedMembers last new = [] := by
    intro hsame
    refine eq_nil_iff_forall_not_mem.mpr fun member hmember => ?_
    obtain ⟨hkey, hne, hmoved⟩ := mem_movedMembers.mp hmember
    exact hmoved (hsame member hkey hne)
  have hcase := addressPlan_case (w.hub.readsOf reads) w.hub.stored
  rw [← hplan] at hcase
  cases hcase with
  | waiting =>
    have hnil := hunmoved fun member _ _ => by
      rw [haddr]
      exact congrArg (addressIn · member) hassigned
    refine ⟨fun _ => by rw [hnil]; exact Nat.zero_le 1, fun _ => ?_, fun m hm hne => ?_⟩
    · rw [hnil]
      exact nofun
    · exact absurd (hmig.trans (hmoving.trans hm)) hne
  | gathering done incomplete =>
    have hnil : last.complete = true → movedMembers last new = [] := by
      intro hcomplete
      have hagree := (hdemand hcomplete).resolve_left fun hstill =>
        absurd (hstill.symm.trans incomplete) (by decide)
      refine hunmoved fun member hkey hne => ?_
      rw [haddr, ← hassigned]
      exact hagree member (hassigned ▸ hkey) (hassigned ▸ hne)
    refine ⟨fun hcomplete => ?_, fun hcomplete => ?_, fun m hm _ => hdropped done m hm⟩
    · rw [hnil hcomplete]
      exact Nat.zero_le 1
    · rw [hnil hcomplete]
      exact nofun
  | settled done =>
    have hnil := hunmoved fun member _ _ => by
      rw [haddr]
      exact congrArg (addressIn · member) hassigned
    refine ⟨fun _ => by rw [hnil]; exact Nat.zero_le 1, fun _ => ?_,
      fun m hm _ => hdropped done m hm⟩
    rw [hnil]
    exact nofun
  | @moves done _ member =>
    have hmoved : ∀ other, addressIn new.addresses other =
        if member = other then addressIn w.hub.observed member
        else addressIn last.addresses other := by
      intro other
      rw [haddr, ← hassigned]
      exact addressIn_insert ..
    have honly : ∀ other ∈ movedMembers last new, other = member := by
      intro other hother
      by_contra hne
      exact (mem_movedMembers.mp hother).2.2 ((hmoved other).trans (if_neg (Ne.symm hne)))
    refine ⟨fun _ => ?_, fun _ other hother => ?_, fun m hm _ => hdropped done m hm⟩
    · have hnodup : (movedMembers last new).Nodup := last.addresses.keys_nodup.filter _
      match hlist : movedMembers last new with
      | [] => exact Nat.zero_le 1
      | [_] => exact le_refl 1
      | a :: b :: rest =>
        rw [hlist] at honly hnodup
        have ha := honly a mem_cons_self
        have hb := honly b (mem_cons_of_mem _ mem_cons_self)
        have hab := (nodup_cons.mp hnodup).1
        rw [ha, ← hb] at hab
        exact absurd mem_cons_self hab
    · obtain rfl := honly other hother
      refine ⟨_, hmig, rfl, congrArg (addressIn · other) hassigned, ?_⟩
      rw [hmoved other, if_pos rfl]
      rfl

end Next

/-! ## Every run -/

theorem newIssue_of_bystander (he : isReconcile e = false) : newIssue config s e = none := by
  cases e with
  | issue => cases he
  | _ => rfl

theorem Recorded.frame {w t : Course} (h : Recorded w) (hissued : t.issued = w.issued)
    (hbooked : Booked t.hub)
    (hkept : ∀ name p, t.hub.planMaps.get? name = some p → p ∈ t.hub.written)
    (hwritten : ∀ p ∈ w.hub.written, p ∈ t.hub.written)
    (hcur : t.hub.currentRevision = w.hub.currentRevision ∧
      t.hub.currentFingerprint = w.hub.currentFingerprint) : Recorded t where
  booked := hbooked
  kept := hkept
  current last hlast := (h.current last (hissued ▸ hlast)).frame hcur.1 hcur.2 hwritten
  serialized := hissued ▸ h.serialized

theorem issueOf_some (s : HubState) (view : MultiSitePostgres) {plans : List SitePlan}
    (h : plans ≠ []) : ∃ p ∈ plans, issueOf s view plans = some {
      revision := p.revision
      addresses := p.memberAddresses
      migration := p.addressMigration
      sites := view.spec.sites.map (·.name)
      demanded := expectedAddressMembers view.spec.sites
      applied := s.applied } := by
  obtain ⟨p, rest, rfl⟩ := exists_cons_of_ne_nil h
  exact ⟨p, mem_cons_self, rfl⟩

theorem Recorded.issued {w : Course} {reads : HubReads} {now : Time} {t : HubState}
    {prepared : MultiSitePostgres} {inputs : PlanInputs} {d : MultiSitePostgresStatus}
    {new : Issue} {p : SitePlan} (h : Recorded w) (hnone : w.hub.pending = none)
    (hdel : w.hub.stored.deleting = false) (hfirst : firstCurrent w.hub)
    (hdemand : ∀ last ∈ w.issued.head?, last.complete = true →
      addressesComplete w.hub.assigned w.hub.demanded = true ∨ reportsAgree w.hub)
    (hbooked : Booked t) (hkept : ∀ name p, t.planMaps.get? name = some p → p ∈ t.written)
    (hprepare : prepare (w.hub.readsOf reads) w.hub.stored = .ok (prepared, inputs))
    (hplanMaps : t.planMaps = (w.hub.writePlans (signedPlans (w.hub.readsOf reads)
      (sitePlan (withRevision prepared inputs) inputs now) w.hub.stored.spec.sites).1).planMaps)
    (hcomplete : (signedPlans (w.hub.readsOf reads)
      (sitePlan (withRevision prepared inputs) inputs now) w.hub.stored.spec.sites).2 = true)
    (hrecords : RecordsPlans (withRevision prepared inputs)
      (.sum (planFingerprint prepared inputs.addresses inputs.rotation)) d)
    (hpend : t.pending = some d)
    (hp : p ∈ (signedPlans (w.hub.readsOf reads)
      (sitePlan (withRevision prepared inputs) inputs now) w.hub.stored.spec.sites).1)
    (hnew : new = {
      revision := p.revision
      addresses := p.memberAddresses
      migration := p.addressMigration
      sites := w.hub.stored.spec.sites.map (·.name)
      demanded := expectedAddressMembers w.hub.stored.spec.sites
      applied := w.hub.applied }) :
    Recorded { hub := t, issued := new :: w.issued } := by
  obtain ⟨hobs, -, haddr, -⟩ := prepare_ok hprepare
  obtain ⟨site, -, registration, -, rfl, hpositive⟩ := signedPlans_mem hp
  have hrev : t.currentRevision = (withRevision prepared inputs).status.activeRevision := by
    rw [currentRevision, hpend]
    exact hrecords.activeRevision
  have hprint : t.currentFingerprint =
      .sum (planFingerprint prepared inputs.addresses inputs.rotation) := by
    rw [currentFingerprint, hpend]
    exact hrecords.planFingerprint
  refine ⟨hbooked, hkept, fun last hlast => ?_, ?_⟩
  · obtain rfl : new = last := Option.some.inj hlast
    refine ⟨hrev ▸ hpositive, ⟨_, hprint, ?_, ?_⟩, fun name hname => ?_⟩
    · rw [hnew]
      rfl
    · rw [hnew]
      rfl
    rw [hnew] at hname
    obtain ⟨other, hother, rfl⟩ := mem_map.mp hname
    obtain ⟨r, -, hplan⟩ := signedPlans_complete hcomplete hother
    have hnames := congrArg (List.map (·.name)) (signedPlans_sites (fun _ _ => rfl) hcomplete)
    rw [map_map] at hnames
    obtain ⟨q, hq, hsame⟩ :=
      stored_of_writePlans (hnames.symm ▸ h.sequenced.names) hplan
    have hcontent : { q with generatedAt := now } =
      sitePlan (withRevision prepared inputs) inputs now r other := hsame
    refine ⟨q, hkept _ q (hplanMaps ▸ hq), ?_, ?_⟩
    · exact congrArg (·.site.name) hcontent
    · rw [hrev]
      exact congrArg SitePlan.revision hcontent
  · cases hissued : w.issued with
    | nil => exact .singleton _
    | cons last rest =>
      have hlast : last ∈ w.issued.head? := by
        rw [hissued]
        rfl
      refine .cons_cons ?_ (hissued ▸ h.serialized)
      refine h.follows reads hnone hdel hfirst hlast (hdemand last hlast) (by rw [hnew])
        (haddr.trans (addressPlan_of_core hobs.core)) ?_ ?_
      · rw [hnew]
        rfl
      · rw [hnew]
        rfl

theorem Recorded.issue {config : HubConfig} {w : Course} {view : MultiSitePostgres}
    {reads : HubReads} {fails : String → Bool} {now : Time} {writes : Nat} (h : Recorded w)
    (hok : orderly config w (.issue view reads fails now writes))
    (hnone : w.hub.pending = none)
    (hbooked : Booked (w.hub.applyOutcome view (w.hub.outcome config view reads fails now) writes))
    (hkept : ∀ name p, (w.hub.applyOutcome view (w.hub.outcome config view reads fails now)
      writes).planMaps.get? name = some p → p ∈ (w.hub.applyOutcome view
        (w.hub.outcome config view reads fails now) writes).written) :
    Recorded {
      hub := w.hub.applyOutcome view (w.hub.outcome config view reads fails now) writes
      issued := (newIssue config w.hub (.issue view reads fails now writes)).toList ++
        w.issued } := by
  have hissue := hok.1.issueSpec
  obtain ⟨⟨rfl, hwrites, -⟩, hdel, hfirst, hdemand⟩ := hok
  rw [newIssue, take_of_length_le hwrites]
  have hcase := hissue.outcome
  generalize ho : w.hub.outcome config w.hub.stored reads fails now = o at *
  have hdelete : o.deletePlans = false := by
    cases hcase with
    | quiet _ _ deletePlans =>
      by_contra hdelete
      rw [deletePlans (Bool.not_eq_false _ ▸ hdelete)] at hdel
      cases hdel
    | issued _ _ _ _ _ _ _ _ _ deletePlans | deletion _ _ _ _ _ deletePlans => exact deletePlans
  have hplanMaps := w.hub.applyOutcome_planMaps w.hub.stored hwrites hdelete
  by_cases hplans : o.plans = []
  · -- no plan, so no new revision either
    have hissued : (issueOf w.hub w.hub.stored o.plans).toList ++ w.issued = w.issued := by
      rw [hplans]
      rfl
    have hquiet : (∀ d, o.status = some d → KeepsPlans w.hub.stored.status d) →
        Recorded ⟨w.hub.applyOutcome w.hub.stored o writes,
          (issueOf w.hub w.hub.stored o.plans).toList ++ w.issued⟩ := fun hkeeps =>
      h.frame hissued hbooked hkept hissue.kept
        (current_of_keepsPlans hnone hissue.stored fun d hd => hkeeps d (hissue.pending ▸ hd))
    cases hcase with
    | quiet _ status _ => exact hquiet status
    | issued prepared inputs n _ _ _ _ plans status _ =>
      rcases hd : o.status with _ | d
      · exact hquiet fun d hd' => by rw [hd] at hd'; cases hd'
      -- a specification without sites, for which nothing was ever issued
      have hsites := signedPlans_sites (fun _ _ => rfl) (status d hd).1
      rw [← plans, hplans] at hsites
      refine ⟨hbooked, hkept, fun last hlast => ?_, (congrArg Serialized hissued).mpr h.serialized⟩
      have hpositive := (h.current last (hissued ▸ hlast)).positive
      rw [currentRevision_of_none hnone] at hpositive
      rcases hfirst with hzero | ⟨p, hp, -⟩
      · omega
      rw [activePlan, activeSitePlan, ← hsites] at hp
      cases hp
    | deletion deleting =>
      rw [hdel] at deleting
      cases deleting
  · obtain ⟨p, hp, hnew⟩ := issueOf_some w.hub w.hub.stored hplans
    rw [hnew]
    cases hcase with
    | quiet plans => exact absurd plans hplans
    | issued prepared inputs n _ hprepare _ _ plans status _ =>
      have hsome : ∃ d, o.status = some d := by
        rcases hd : o.status with _ | d
        · exact absurd (hissue.silent hd) hplans
        · exact ⟨d, rfl⟩
      obtain ⟨d, hd⟩ := hsome
      obtain ⟨hcomplete, hrecords⟩ := status d hd
      rw [plans] at hp hplanMaps
      exact h.issued hnone hdel hfirst hdemand hbooked hkept hprepare hplanMaps hcomplete
        hrecords (hissue.pending.trans hd) hp rfl
    | deletion deleting =>
      rw [hdel] at deleting
      cases deleting

theorem Recorded.step {t : Course} (h : Recorded w) (hok : orderly config w e)
    (hst : w.step config e = some t) : Recorded t := by
  obtain ⟨hub, hhub, rfl⟩ := Option.map_eq_some_iff.mp hst
  have hbooked := h.booked.step hok.1 hhub
  have hkept := planMaps_kept h.kept hhub
  have hcase := step_case hhub
  by_cases he : isReconcile e = false
  · obtain ⟨hpend, hwritten, hstand⟩ := hcase.plansStand he
    refine h.frame ?_ hbooked hkept (fun p hp => hwritten ▸ hp) (PlansStand.current hpend hstand)
    rw [newIssue_of_bystander he]
    rfl
  · cases hcase with
    | issue _ hnone => exact h.issue hok hnone hbooked hkept
    | commit hdesired =>
      exact h.frame rfl hbooked hkept (fun p hp => hp) (h.sequenced.current_of_commit hdesired)
    | abandon =>
      exact h.frame rfl hbooked hkept (fun p hp => hp) (h.sequenced.current_of_abandon hok.1)
    | _ => exact absurd rfl he

theorem Recorded.initial (h : Initial config w) :
    Recorded w where
  booked := .initial h.1
  kept name p hp := by
    rw [h.1.planMaps] at hp
    cases hp
  current last hlast := by
    rw [h.2] at hlast
    cases hlast
  serialized := by
    rw [h.2]
    exact .nil

open Machine

/-- In every run whose instance reconciles are orderly, address changes are serialized. -/
theorem serialized_of_reach {config : HubConfig} {w : Course}
    (h : Reach (step config) (Initial config) (orderly config) w) :
    Serialized w.issued := by
  have hrecorded : Recorded w :=
    h.invariant (fun _ => Recorded.initial) fun _ _ _ hinv hok hst => hinv.step hok hst
  exact hrecorded.serialized

/-! ## Runs of `solo` -/

open Sample

def after (ok : Course → HubEvent → Prop) [∀ w e, Decidable (ok w e)]
    (script : List (HubState → HubEvent)) : Course :=
  reached (step Sample.hub) ok ⟨Sample.created solo, []⟩
    (script.map fun event w => event w.hub)

/-- Two members are reported under new addresses, and move one after the other. -/
def bothMoved : Course :=
  after (orderly Sample.hub) (Sample.readdressed ++ reconciledWith ++
    appliedEverywhere ++ reconciledWith ++ appliedEverywhere ++
    reconciledWith)

def MovesBoth (w : Course) : Prop :=
  (w.issued.take 3).map (fun i => i.migration.map (·.member)) =
    [none, some vic0, some nsw0]
deriving Decidable

theorem bothMoved_reach :
    Reach (step Sample.hub) (Initial Sample.hub) (orderly Sample.hub) bothMoved ∧
      MovesBoth bothMoved := by
  unfold bothMoved after
  exact played (P := MovesBoth) ⟨solo_initial, rfl⟩ (by decide +kernel)

theorem bothMoved_serialized : MovesBoth bothMoved ∧ Serialized bothMoved.issued :=
  ⟨bothMoved_reach.2, serialized_of_reach bothMoved_reach.1⟩

/-- The reconcile that moves the first member stops after the plan of the first site; the
next one runs through. -/
def interrupted : Course :=
  after anyStep (Sample.readdressed ++
    (fun s => .issue s.stored Sample.reads (fun _ => false) 0 1) :: reconciledWith)

/-- The next reconcile reads the first migration back from the plan that was written, finds
that all sites report the revision still recorded as active, and goes on to the second one:
both members move under one revision, and no site has applied the first migration. -/
theorem interrupted_unserialized :
    Reach (step Sample.hub) (Initial Sample.hub) anyStep interrupted ∧
      ¬ Serialized interrupted.issued := by
  unfold interrupted after
  exact played (P := fun w : Course => ¬ Serialized w.issued) ⟨solo_initial, rfl⟩
    (by decide +kernel)

end Course

end Mspsql
