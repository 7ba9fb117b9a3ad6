import Mspsql.Hub.Replanning

/-!
# Reconciles that differ in some members' addresses

Two instances whose entries agree on the addresses outside a set `own` of members, and two
sets of stored plans that do.  Their reconciles issue plans that agree in the same way
(`reconcile_agree`), provided they decide alike: the request is the same, the members of `own`
have an address assigned in both or in neither, and are due to move in both or in neither.

The last two are needed because the planner moves one member at a time: an address of `own`
that is assigned late or that changes keeps the others waiting.
-/

namespace Mspsql

open MultiSitePostgres SortedMap List

/-! ## Entries and plans -/

/-- Entries of one site that agree on the addresses outside `own`. -/
structure EntryAgree (own : String → Prop) (x y : SiteRevisionStatus) : Prop where
  name : x.name = y.name
  addresses : AgreeOff own x.addresses y.addresses

/-- Plans of one site that agree on the addresses outside `own`, and on whether a migration
is under way. -/
structure PlanAgree (own : String → Prop) (p q : SitePlan) : Prop where
  site : p.site = q.site
  addresses : AgreeOff own p.memberAddresses q.memberAddresses
  migration : p.addressMigration.isSome = q.addressMigration.isSome

def MapsAgree (own : String → Prop) (m m' : SortedMap String SitePlan) : Prop :=
  ∀ name, Option.Rel (PlanAgree own) (m.get? name) (m'.get? name)

section

variable {own : String → Prop}

theorem EntryAgree.refl (x : SiteRevisionStatus) : EntryAgree own x x := ⟨rfl, .refl own _⟩

theorem EntryAgree.symm {x y : SiteRevisionStatus} (h : EntryAgree own x y) : EntryAgree own y x :=
  ⟨h.name.symm, h.addresses.symm⟩

theorem EntryAgree.trans {x y z : SiteRevisionStatus} (h : EntryAgree own x y)
    (h' : EntryAgree own y z) : EntryAgree own x z :=
  ⟨h.name.trans h'.name, h.addresses.trans h'.addresses⟩

theorem observedAddresses_agree {l l' : List SiteRevisionStatus}
    (h : List.Forall₂ (EntryAgree own) l l') :
    AgreeOff own (observedAddresses l) (observedAddresses l') :=
  rel_foldl (fun _ _ hacc _ _ hentry => hacc.copyFrom hentry.addresses) (.refl own ∅) h

theorem previousSiteStatus_agree {l l' : List SiteRevisionStatus}
    (h : List.Forall₂ (EntryAgree own) l l') (name : String) :
    EntryAgree own (previousSiteStatus l name) (previousSiteStatus l' name) := by
  have hfound := Lists.forall₂_find? (p := fun s : SiteRevisionStatus => s.name = name)
    (fun x y hxy => by rw [hxy.name]) h
  unfold previousSiteStatus
  generalize l.find? (fun s => s.name = name) = x at hfound
  generalize l'.find? (fun s => s.name = name) = y at hfound
  cases hfound with
  | none => exact .refl _
  | some hxy => exact hxy

theorem mergeReconciledSites_agree {current current' desired desired' : List SiteRevisionStatus}
    (hcur : List.Forall₂ (EntryAgree own) current current')
    (hdesired : List.Forall₂ (EntryAgree own) desired desired') :
    List.Forall₂ (EntryAgree own) (mergeReconciledSites current desired)
      (mergeReconciledSites current' desired') := by
  rw [mergeReconciledSites, mergeReconciledSites, forall₂_map_left_iff,
    forall₂_map_right_iff]
  refine hdesired.imp fun wanted wanted' hwanted => ⟨hwanted.name, ?_⟩
  have hprevious := previousSiteStatus_agree hcur wanted.name
  rw [← hwanted.name, ← hprevious.name]
  split
  · exact hwanted.addresses
  · exact hprevious.addresses

theorem recorded_agree {i j : MultiSitePostgres} (hspec : i.spec.sites = j.spec.sites)
    (h : List.Forall₂ (EntryAgree own) i.status.sites j.status.sites)
    (phases phases' : PostgresSiteSpec → String) :
    List.Forall₂ (EntryAgree own)
      (i.spec.sites.map fun site => { siteStatusFor i site with phase := phases site })
      (j.spec.sites.map fun site => { siteStatusFor j site with phase := phases' site }) := by
  rw [← hspec, forall₂_map_left_iff, forall₂_map_right_iff]
  refine forall₂_same.mpr fun site _ => ⟨rfl, ?_⟩
  exact (previousSiteStatus_agree h site.name).addresses

theorem RecordsPlans.agree {i j : MultiSitePostgres} {f f' : PlanFingerprint}
    {d d' : MultiSitePostgresStatus} (hi : RecordsPlans i f d) (hj : RecordsPlans j f' d')
    (hspec : i.spec.sites = j.spec.sites)
    (h : List.Forall₂ (EntryAgree own) i.status.sites j.status.sites) :
    List.Forall₂ (EntryAgree own) d.sites d'.sites := by
  obtain ⟨phases, hd⟩ := hi.sites
  obtain ⟨phases', hd'⟩ := hj.sites
  rw [hd, hd']
  exact recorded_agree hspec h phases phases'

/-! ## Stored plans -/

theorem PlanAgree.of_sameContent {p q p' q' : SitePlan} (h : PlanAgree own p q)
    (hp : p'.sameContent p) (hq : q'.sameContent q) : PlanAgree own p' q' := by
  rw [← hp, ← hq] at h
  exact ⟨h.site, h.addresses, h.migration⟩

namespace HubState

theorem writePlan_agree {s t : HubState} (h : MapsAgree own s.planMaps t.planMaps)
    {p q : SitePlan} (hpq : PlanAgree own p q) :
    MapsAgree own (s.writePlan p).planMaps (t.writePlan q).planMaps := by
  intro name
  by_cases hname : p.site.name = name
  · have hstored : ∀ (s : HubState) (p : SitePlan),
        ∃ p', (s.writePlan p).planMaps.get? p.site.name = some p' ∧ p'.sameContent p := by
      intro s p
      have hnodup : ([p].map (·.site.name)).Nodup := nodup_singleton _
      exact stored_of_writePlans hnodup (mem_singleton_self p)
    obtain ⟨p', hp', hsame⟩ := hstored s p
    obtain ⟨q', hq', hsame'⟩ := hstored t q
    have hp' : (s.writePlan p).planMaps.get? name = some p' := hname ▸ hp'
    have hq' : (t.writePlan q).planMaps.get? name = some q' := by
      rw [← hname, hpq.site]
      exact hq'
    rw [hp', hq']
    exact .some (hpq.of_sameContent hsame hsame')
  · rw [planMaps_writePlan, planMaps_writePlan, if_neg fun hnew => hname hnew.1,
      if_neg fun hnew => hname (hpq.site ▸ hnew.1)]
    exact h name

theorem writePlans_agree {s t : HubState} (h : MapsAgree own s.planMaps t.planMaps)
    {plans plans' : List SitePlan} (hplans : List.Forall₂ (PlanAgree own) plans plans') :
    MapsAgree own (s.writePlans plans).planMaps (t.writePlans plans').planMaps :=
  rel_foldl (R := PlanAgree own)
    (P := fun s t : HubState => MapsAgree own s.planMaps t.planMaps)
    (fun _ _ hmaps _ _ hpq => writePlan_agree hmaps hpq) h hplans

end HubState

/-! ## Address plans -/

/-- The addresses of `own` let both planners go on alike. -/
@[mk_iff] structure SameMoves (own : String → Prop) (reads reads' : HubReads)
    (i j : MultiSitePostgres) : Prop where
  applied : allSitesApplied i.status.sites i.status.activeRevision =
    allSitesApplied j.status.sites j.status.activeRevision
  assigned : ∀ member, own member → (addressIn (assignedAddresses reads i) member = "" ↔
      addressIn (assignedAddresses reads' j) member = "")
  changed : ∀ member, own member →
    addressChanged (assignedAddresses reads i) (observedAddresses i.status.sites) member =
      addressChanged (assignedAddresses reads' j) (observedAddresses j.status.sites) member

theorem addressPlan_eq (reads : HubReads) (i : MultiSitePostgres) : addressPlan reads i =
      if (activeMigration reads i).isSome = true ∧
          allSitesApplied i.status.sites i.status.activeRevision = false then
        ⟨assignedAddresses reads i, observedAddresses i.status.sites, activeMigration reads i⟩
      else if addressesComplete (assignedAddresses reads i)
          (expectedAddressMembers i.spec.sites) = false then
        ⟨observedAddresses i.status.sites, observedAddresses i.status.sites, none⟩
      else match Text.sortText ((expectedAddressMembers i.spec.sites).filter
          (addressChanged (assignedAddresses reads i) (observedAddresses i.status.sites))) with
        | [] => ⟨assignedAddresses reads i, observedAddresses i.status.sites, none⟩
        | member :: _ => ⟨(assignedAddresses reads i).insert member
            (addressIn (observedAddresses i.status.sites) member),
          observedAddresses i.status.sites,
          some (migrationOf i.uid (assignedAddresses reads i)
            (observedAddresses i.status.sites) member)⟩ := rfl

theorem addressIn_agree {m m' : StringMap} (h : AgreeOff own m m') {member : String}
    (hmember : ¬ own member) : addressIn m member = addressIn m' member := by
  unfold addressIn
  rw [h member hmember]

theorem addressesComplete_congr {m m' : StringMap}
    (h : ∀ member, addressIn m member = "" ↔ addressIn m' member = "") (expected : List String) :
    addressesComplete m expected = addressesComplete m' expected := by
  rw [Bool.eq_iff_iff, addressesComplete_iff, addressesComplete_iff]
  exact and_congr_right fun _ => forall₂_congr fun member _ => not_congr (h member)

section

variable {reads reads' : HubReads} {i j : MultiSitePostgres}

theorem activeSitePlan_agree (hspec : i.spec.sites = j.spec.sites)
    (hmaps : MapsAgree own reads.planMaps reads'.planMaps) :
    Option.Rel (PlanAgree own) (activeSitePlan reads i) (activeSitePlan reads' j) := by
  unfold activeSitePlan
  rw [← hspec]
  split
  · exact .none
  · exact hmaps _

theorem assignedAddresses_agree (hspec : i.spec.sites = j.spec.sites)
    (hmaps : MapsAgree own reads.planMaps reads'.planMaps) :
    AgreeOff own (assignedAddresses reads i) (assignedAddresses reads' j) ∧
      (activeMigration reads i).isSome = (activeMigration reads' j).isSome := by
  unfold assignedAddresses activeMigration
  have hplan := activeSitePlan_agree hspec hmaps
  generalize activeSitePlan reads i = p at hplan
  generalize activeSitePlan reads' j = q at hplan
  cases hplan with
  | none => exact ⟨.refl own _, rfl⟩
  | some hpq => exact ⟨hpq.addresses, hpq.migration⟩

theorem addressPlan_agree (hspec : i.spec.sites = j.spec.sites)
    (hentries : List.Forall₂ (EntryAgree own) i.status.sites j.status.sites)
    (hmaps : MapsAgree own reads.planMaps reads'.planMaps)
    (hmoves : SameMoves own reads reads' i j) :
    AgreeOff own (addressPlan reads i).memberAddresses (addressPlan reads' j).memberAddresses ∧
      (addressPlan reads i).addressMigration.isSome =
        (addressPlan reads' j).addressMigration.isSome := by
  have hobs := observedAddresses_agree hentries
  obtain ⟨hassigned, hmig⟩ := assignedAddresses_agree hspec hmaps
  have hcomplete : addressesComplete (assignedAddresses reads i)
      (expectedAddressMembers i.spec.sites) = addressesComplete (assignedAddresses reads' j)
      (expectedAddressMembers i.spec.sites) := by
    refine addressesComplete_congr (fun member => ?_) _
    by_cases hown : own member
    · exact hmoves.assigned member hown
    · rw [addressIn_agree hassigned hown]
  -- whether a member is due to move is the same in both, so the same one moves
  have hchanged : addressChanged (assignedAddresses reads i) (observedAddresses i.status.sites) =
      addressChanged (assignedAddresses reads' j) (observedAddresses j.status.sites) := by
    funext member
    by_cases hown : own member
    · exact hmoves.changed member hown
    · unfold addressChanged
      rw [addressIn_agree hassigned hown, addressIn_agree hobs hown]
  rw [addressPlan_eq reads i, addressPlan_eq reads' j, hmig, hmoves.applied, hcomplete,
    hchanged, ← hspec]
  split
  · exact ⟨hassigned, hmig⟩
  · split
    · exact ⟨hobs, rfl⟩
    · split
      · exact ⟨hassigned, rfl⟩
      · exact ⟨hassigned.insert fun hown => addressIn_agree hobs hown, rfl⟩

end

/-! ## Signed plans -/

structure Numbered (status : MultiSitePostgresStatus) : Prop where
  nonneg : 0 ≤ status.activeRevision
  issued : status.planFingerprint ≠ .none → 1 ≤ status.activeRevision

theorem Numbered.congr {before after : MultiSitePostgresStatus} (h : Numbered before)
    (hrev : after.activeRevision = before.activeRevision)
    (hprint : after.planFingerprint = before.planFingerprint) : Numbered after :=
  ⟨hrev ▸ h.nonneg, fun hissued => hrev ▸ h.issued (hprint ▸ hissued)⟩

theorem Numbered.revised {i : MultiSitePostgres} (h : Numbered i.status) (inputs : PlanInputs) :
    1 ≤ (withRevision i inputs).status.activeRevision := by
  rw [withRevision_activeRevision]
  split
  · rename_i hsame
    refine h.issued ?_
    rw [hsame]
    exact nofun
  · rw [nextRevision_eq h.nonneg]
    have := h.nonneg
    omega

theorem SitePlan.sign_isOk_iff {p : SitePlan} :
    p.sign.isOk = true ↔ 1 ≤ p.revision ∧ p.siteUID ≠ "" ∧ p.instanceUID ≠ "" := by
  unfold sign
  split
  · rename_i hrefused
    refine ⟨nofun, fun ⟨hrev, hsite, hinstance⟩ => ?_⟩
    rcases hrefused with hlt | hempty | hempty
    · omega
    · exact absurd hempty hsite
    · exact absurd hempty hinstance
  · rename_i haccepted
    obtain ⟨hrev, hids⟩ := not_or.mp haccepted
    exact ⟨fun _ => ⟨by omega, not_or.mp hids⟩, fun _ => rfl⟩

theorem signedPlans_agree (reads : HubReads) (planMaps : SortedMap String SitePlan)
    {build build' : SiteRegistration → PostgresSiteSpec → SitePlan}
    (hbuild : ∀ r site, PlanAgree own (build r site) (build' r site) ∧
      (build r site).siteUID = (build' r site).siteUID ∧
      (build r site).instanceUID = (build' r site).instanceUID ∧
      1 ≤ (build r site).revision ∧ 1 ≤ (build' r site).revision)
    (sites : List PostgresSiteSpec) :
    List.Forall₂ (PlanAgree own) (signedPlans reads build sites).1
        (signedPlans { reads with planMaps := planMaps } build' sites).1 ∧
      (signedPlans reads build sites).2 =
        (signedPlans { reads with planMaps := planMaps } build' sites).2 := by
  have hsign : ∀ r site, (build r site).sign.isOk = (build' r site).sign.isOk := by
    intro r site
    obtain ⟨-, hsite, hinstance, hrev, hrevision'⟩ := hbuild r site
    rw [Bool.eq_iff_iff, SitePlan.sign_isOk_iff, SitePlan.sign_isOk_iff, hsite, hinstance]
    exact and_congr_left fun _ => iff_of_true hrev hrevision'
  have hreg : ∀ name, HubReads.registration? { reads with planMaps := planMaps } name =
      reads.registration? name := fun _ => rfl
  induction sites with
  | nil => exact ⟨.nil, rfl⟩
  | cons site rest ih =>
    rw [signedPlans, signedPlans, hreg]
    split
    · exact ⟨.nil, rfl⟩
    · rename_i r _
      have hsame := hsign r site
      rcases hleft : (build r site).sign with e | p <;>
        rcases hright : (build' r site).sign with e' | q
      · exact ⟨.nil, rfl⟩
      · rw [hleft, hright] at hsame
        cases hsame
      · rw [hleft, hright] at hsame
        cases hsame
      · obtain ⟨rfl, -⟩ := SitePlan.sign_ok hleft
        obtain ⟨rfl, -⟩ := SitePlan.sign_ok hright
        exact ⟨.cons (hbuild r site).1 ih.1, ih.2⟩

/-! ## Reconciles -/

/-- What two reconciles hand to their writes, when they agree outside `own`. -/
structure OutcomeAgree (own : String → Prop) (o o' : Outcome) : Prop where
  plans : List.Forall₂ (PlanAgree own) o.plans o'.plans
  deletePlans : o.deletePlans = o'.deletePlans
  entries : ∀ d d', o.status = some d → o'.status = some d' →
    List.Forall₂ (EntryAgree own) d.sites d'.sites

/-- A deletion has come equally far. -/
@[mk_iff] structure SameRemoval (i j : MultiSitePostgres) : Prop where
  started : i.status.planFingerprint = .deleting ↔ j.status.planFingerprint = .deleting
  backedUp : conditionTrue i.status.conditions "BackupReady" =
    conditionTrue j.status.conditions "BackupReady"
  removed : (∃ entry ∈ i.status.sites, entry.phase ≠ "Deleted") ↔
    ∃ entry ∈ j.status.sites, entry.phase ≠ "Deleted"

/-- Reconciles of the two instances decide alike. -/
@[mk_iff] structure Level (own : String → Prop) (reads reads' : HubReads)
    (i j : MultiSitePostgres) : Prop where
  request : SameRequest i j
  finalizer : i.finalizer = j.finalizer
  removal : i.deleting = true → SameRemoval i j
  moves : i.deleting = false → SameMoves own reads reads' i j

section

variable {reads : HubReads} {planMaps : SortedMap String SitePlan} {i j : MultiSitePostgres}
  {directives directives' : List DirectiveMap} {now : Time}

theorem OutcomeAgree.quiet {o o' : Outcome} (hplans : o.plans = []) (hplans' : o'.plans = [])
    (hdelete : o.deletePlans = o'.deletePlans)
    (hstatus : ∀ d, o.status = some d → d.sites = i.status.sites)
    (hstatus' : ∀ d, o'.status = some d → d.sites = j.status.sites)
    (hentries : List.Forall₂ (EntryAgree own) i.status.sites j.status.sites) :
    OutcomeAgree own o o' := by
  refine ⟨?_, hdelete, fun d d' hd hd' => ?_⟩
  · rw [hplans, hplans']
    exact .nil
  · rw [hstatus d hd, hstatus' d' hd']
    exact hentries

theorem issueDeletionPlans_agree (hrequest : SameRequest i j) (hi : Numbered i.status)
    (hj : Numbered j.status)
    (hentries : List.Forall₂ (EntryAgree own) i.status.sites j.status.sites) :
    OutcomeAgree own (issueDeletionPlans reads directives now i)
      (issueDeletionPlans { reads with planMaps := planMaps } directives' now j) := by
  obtain ⟨status, finalizer, rfl⟩ := hrequest
  have hnext : ∀ {status : MultiSitePostgresStatus}, Numbered status →
      1 ≤ nextRevision status.activeRevision := by
    intro status hstatus
    rw [nextRevision_eq hstatus.nonneg]
    have := hstatus.nonneg
    omega
  let revised (k : MultiSitePostgres) : MultiSitePostgres := { k with status := { k.status with
    activeRevision := nextRevision k.status.activeRevision } }
  have hbuild : ∀ r site, PlanAgree own (deletionPlan (revised i) now r site)
      (deletionPlan (revised { i with status := status, finalizer := finalizer }) now r site) :=
    fun r site => ⟨rfl, observedAddresses_agree hentries, rfl⟩
  obtain ⟨hplans, hcomplete⟩ := signedPlans_agree reads planMaps
    (fun r site => ⟨hbuild r site, rfl, rfl, hnext hi, hnext hj⟩) i.spec.sites
  rw [issueDeletionPlans, issueDeletionPlans]
  dsimp only
  rw [hcomplete]
  split
  · exact ⟨hplans, rfl, fun d d' hd _ => by cases hd⟩
  · refine ⟨hplans, rfl, fun d d' hd hd' => ?_⟩
    obtain rfl := Option.some.inj hd
    obtain rfl := Option.some.inj hd'
    exact recorded_agree (i := revised i)
      (j := revised { i with status := status, finalizer := finalizer }) rfl hentries
      (fun _ => "DeletionPlanIssued") fun _ => "DeletionPlanIssued"

theorem finalize_agree (hrequest : SameRequest i j) (hfin : i.finalizer = j.finalizer)
    (hremoval : SameRemoval i j) (hi : Numbered i.status) (hj : Numbered j.status)
    (hentries : List.Forall₂ (EntryAgree own) i.status.sites j.status.sites) :
    OutcomeAgree own (finalize reads directives now i)
      (finalize { reads with planMaps := planMaps } directives' now j) := by
  have hdeletion : OutcomeAgree own (issueDeletionPlans reads directives now i)
      (issueDeletionPlans { reads with planMaps := planMaps } directives' now j) :=
    issueDeletionPlans_agree hrequest hi hj hentries
  have hchildren : referencingDeclarations { reads with planMaps := planMaps } j =
      referencingDeclarations reads i := by
    obtain ⟨status, finalizer, rfl⟩ := hrequest
    rfl
  have hann : j.annotations = i.annotations := by
    obtain ⟨status, finalizer, rfl⟩ := hrequest
    rfl
  -- every exit but the one that issues deletion plans keeps the entries
  have hblocked : ∀ operation reason message operation' reason' message', OutcomeAgree own
        { directives := directives, status := some (((i.setPhase "Deleting").setOperation
            operation).setCondition "DeletionBlocked" .true reason message).status }
        { directives := directives', status := some (((j.setPhase "Deleting").setOperation
            operation').setCondition "DeletionBlocked" .true reason' message').status } := by
    intro operation reason message operation' reason' message'
    exact .quiet rfl rfl rfl (fun d hd => Option.some.inj hd ▸ rfl)
      (fun d hd => Option.some.inj hd ▸ rfl) hentries
  have hstops : ∀ o o' : Outcome, o.plans = [] → o'.plans = [] → o.deletePlans = o'.deletePlans →
      o.status = none → o'.status = none → OutcomeAgree own o o' :=
    fun o o' hplans hplans' hdelete hnone hnone' => .quiet hplans hplans' hdelete
      (fun d hd => by rw [hnone] at hd; cases hd) (fun d hd => by rw [hnone'] at hd; cases hd)
      hentries
  have hwaiting : ∀ l : List SiteRevisionStatus,
      ((l.filter (·.phase ≠ "Deleted")).map (·.name)).length > 0 ↔
        ∃ entry ∈ l, entry.phase ≠ "Deleted" := by
    intro l
    rw [length_map, gt_iff_lt, length_pos_iff_exists_mem]
    simp only [mem_filter, decide_eq_true_eq]
  rw [finalize, finalize]
  dsimp only
  rw [← hfin, hann, hchildren, hrequest.spec]
  split
  · exact hstops _ _ rfl rfl rfl rfl rfl
  · split
    · exact hstops _ _ rfl rfl rfl rfl rfl
    · split
      · exact hblocked ..
      · by_cases hstarted : i.status.planFingerprint = .deleting
        · rw [if_neg (not_not.mpr hstarted), if_neg (not_not.mpr (hremoval.started.mp hstarted))]
          by_cases hleft : ∃ entry ∈ i.status.sites, entry.phase ≠ "Deleted"
          · rw [if_pos ((hwaiting _).mpr hleft),
              if_pos ((hwaiting _).mpr (hremoval.removed.mp hleft))]
            exact hblocked ..
          · rw [if_neg fun h => hleft ((hwaiting _).mp h),
              if_neg fun h => hleft (hremoval.removed.mpr ((hwaiting _).mp h))]
            exact hstops _ _ rfl rfl rfl rfl rfl
        · rw [if_pos hstarted, if_pos fun h => hstarted (hremoval.started.mpr h),
            ← hremoval.backedUp]
          split
          · exact hblocked ..
          · exact hdeletion

theorem issue_agree (config : BackupConfig) (fails : String → Bool)
    {prepared prepared' : MultiSitePostgres} {inputs inputs' : PlanInputs}
    (hrequest : SameRequest i j) (hobs : Observed i prepared)
    (hobserved' : Observed j prepared') (hi : Numbered i.status) (hj : Numbered j.status)
    (haddr : AgreeOff own inputs.addresses.memberAddresses inputs'.addresses.memberAddresses)
    (hmig : inputs.addresses.addressMigration.isSome =
      inputs'.addresses.addressMigration.isSome)
    (hentries : List.Forall₂ (EntryAgree own) i.status.sites j.status.sites) :
    OutcomeAgree own (issue config reads directives fails now prepared inputs)
      (issue config { reads with planMaps := planMaps } directives' fails now prepared'
        inputs') := by
  have hkeeps := hobs.keepsPlans
  have hkeeps' := hobserved'.keepsPlans
  obtain ⟨hplans, hdelete, hstatus⟩ :=
    issue_spec config reads directives fails now inputs hobs
  obtain ⟨hplans', hdelete', hstatus'⟩ :=
    issue_spec config { reads with planMaps := planMaps } directives' fails now inputs' hobserved'
  have huid : (withRevision prepared inputs).uid = (withRevision prepared' inputs').uid := by
    have hsame : j.uid = i.uid := by
      obtain ⟨status, finalizer, rfl⟩ := hrequest
      rfl
    rw [withRevision_eq, withRevision_eq prepared']
    exact (uid_of_core hobs.core).trans (hsame.symm.trans (uid_of_core hobserved'.core).symm)
  have hbuild : ∀ r site, PlanAgree own (sitePlan (withRevision prepared inputs) inputs now r site)
      (sitePlan (withRevision prepared' inputs') inputs' now r site) :=
    fun r site => ⟨rfl, haddr, hmig⟩
  obtain ⟨hsigned, -⟩ := signedPlans_agree reads planMaps
    (fun r site => ⟨hbuild r site, rfl, huid,
      (hi.congr hkeeps.activeRevision hkeeps.planFingerprint).revised inputs,
      (hj.congr hkeeps'.activeRevision hkeeps'.planFingerprint).revised inputs'⟩) i.spec.sites
  refine ⟨?_, hdelete.trans hdelete'.symm, fun d d' hd hd' => ?_⟩
  · rw [hplans, hplans', hrequest.spec]
    exact hsigned
  · refine (hstatus d hd).2.agree (hstatus' d' hd').2 ?_ ?_
    · rw [withRevision_spec, withRevision_spec, spec_of_core hobs.core,
        spec_of_core hobserved'.core, hrequest.spec]
    · rw [withRevision_sites, withRevision_sites, sites_of_core hobs.core,
        sites_of_core hobserved'.core]
      exact hentries

/-- Reconciles that decide alike issue plans, and leave entries, that agree outside `own`. -/
theorem reconcile_agree (config : BackupConfig) (fails : String → Bool)
    (h : Level own reads { reads with planMaps := planMaps } i j) (hi : Numbered i.status)
    (hj : Numbered j.status) (hmaps : MapsAgree own reads.planMaps planMaps)
    (hentries : List.Forall₂ (EntryAgree own) i.status.sites j.status.sites) :
    OutcomeAgree own (reconcile config reads directives fails now i)
      (reconcile config { reads with planMaps := planMaps } directives' fails now j) := by
  rw [reconcile, reconcile, h.request.deleting, ← h.finalizer]
  split
  · rename_i hdel
    exact finalize_agree h.request h.finalizer (h.removal hdel) hi hj hentries
  · rename_i hdel
    split
    · exact .quiet rfl rfl rfl (fun d hd => by cases hd) (fun d hd => by cases hd) hentries
    · have hmoves := h.moves (Bool.not_eq_true _ ▸ hdel)
      have hplan := addressPlan_agree (congrArg (·.sites) h.request.spec.symm) hentries hmaps hmoves
      have hexit : ∀ {reads : HubReads} {k e : MultiSitePostgres},
          prepare reads k = .error e → e.status.sites = k.status.sites := by
        intro reads k e he
        have hspec := prepare_spec reads k
        rw [he] at hspec
        exact sites_of_core (hspec : Withdrawn k e).core
      rcases hleft : prepare reads i with e | ⟨prepared, inputs⟩ <;>
        rcases hright : prepare { reads with planMaps := planMaps } j with e' | ⟨prepared', inputs'⟩
      · refine .quiet rfl rfl rfl (fun d hd => ?_) (fun d hd => ?_) hentries
        · exact Option.some.inj hd ▸ hexit hleft
        · exact Option.some.inj hd ▸ hexit hright
      · obtain ⟨r, hr⟩ := prepare_of_accepts
          ((Accepts.congr h.request planMaps).mp (prepare_ok hright).2.1)
        rw [hleft] at hr
        cases hr
      · obtain ⟨r, hr⟩ := prepare_of_accepts
          ((Accepts.congr h.request planMaps).mpr (prepare_ok hleft).2.1)
        rw [hright] at hr
        cases hr
      · obtain ⟨hobs, -, haddr, -⟩ := prepare_ok hleft
        obtain ⟨hobserved', -, haddresses', -⟩ := prepare_ok hright
        rw [addressPlan_of_core hobs.core] at haddr
        rw [addressPlan_of_core hobserved'.core] at haddresses'
        rw [← haddr, ← haddresses'] at hplan
        exact issue_agree config fails h.request hobs hobserved' hi hj hplan.1 hplan.2 hentries

end

end

end Mspsql
