import Mspsql.Hub.Revisions
import Mspsql.Lib.Lists

/-!
# Status entries and applied plans

The entries of `Status.Sites` are named after the sites the current plans were written
for, but the server records a report in the entry that carries the name of the
registration it came from.  Along runs without stale or interrupted reconciles this is
still enough to count: when every entry reports the active revision, then as many sites
have applied it as there are entries, so all of them have.
-/

namespace Mspsql

open MultiSitePostgres List

variable {applied : List SitePlan} {reads : HubReads} {now : Time} {o : Outcome} {s t : HubState}
  {config : HubConfig} {e : HubEvent}

/-! ## Entries -/

/-- The revision an entry reports belongs to a plan that a site of the entry's name as a
registration has applied. -/
def ReportsApplied (applied : List SitePlan) (entries : List SiteRevisionStatus) : Prop :=
  ∀ e ∈ entries, e.appliedRevision ≠ 0 →
    ∃ p ∈ applied, p.revision = e.appliedRevision ∧ p.site.siteRegistrationRef = e.name

theorem ReportsApplied.mono {applied' : List SitePlan} {entries : List SiteRevisionStatus}
    (h : ReportsApplied applied entries) (hsub : ∀ p ∈ applied, p ∈ applied') :
    ReportsApplied applied' entries := by
  intro e he hne
  obtain ⟨p, hp, hreport⟩ := h e he hne
  exact ⟨p, hsub p hp, hreport⟩

theorem ReportsApplied.previous {entries : List SiteRevisionStatus}
    (h : ReportsApplied applied entries) (name : String)
    (hne : (previousSiteStatus entries name).appliedRevision ≠ 0) :
    ∃ p ∈ applied, p.revision = (previousSiteStatus entries name).appliedRevision ∧
      p.site.siteRegistrationRef = name := by
  rcases hfind : entries.find? (fun s => s.name = name) with _ | e
  · rw [previousSiteStatus, hfind] at hne
    exact absurd rfl hne
  rw [previousSiteStatus, hfind] at hne ⊢
  obtain ⟨p, hp, hrev, href⟩ := h e (mem_of_find?_eq_some hfind) hne
  have hname : e.name = name := by simpa using find?_some hfind
  exact ⟨p, hp, hrev, href.trans hname⟩

theorem ReportsApplied.recorded {i : MultiSitePostgres} (h : ReportsApplied applied i.status.sites)
    (phases : PostgresSiteSpec → String) :
    ReportsApplied applied (i.spec.sites.map fun site =>
      { siteStatusFor i site with phase := phases site }) := by
  intro e he hne
  obtain ⟨site, -, rfl⟩ := mem_map.mp he
  exact h.previous site.name hne

theorem ReportsApplied.merged {current desired : List SiteRevisionStatus}
    (hcur : ReportsApplied applied current) (hdesired : ReportsApplied applied desired) :
    ReportsApplied applied (mergeReconciledSites current desired) := by
  intro e he hne
  obtain ⟨wanted, hwanted, rfl⟩ := mem_map.mp he
  by_cases hmissing : (previousSiteStatus current wanted.name).name = ""
  · rw [if_pos hmissing] at hne ⊢
    exact hdesired wanted hwanted hne
  · rw [if_neg hmissing] at hne ⊢
    exact hcur.previous wanted.name hne

theorem OutcomeCase.reportsApplied {view : MultiSitePostgres} {d : MultiSitePostgresStatus}
    (hcase : OutcomeCase reads now view o) (hd : o.status = some d)
    (h : ReportsApplied applied view.status.sites) : ReportsApplied applied d.sites := by
  cases hcase with
  | quiet _ status _ =>
    rw [(status d hd).sites]
    exact h
  | issued prepared inputs n _ _ observed _ _ status _ =>
    obtain ⟨phases, hsites⟩ := (status d hd).2.sites
    rw [hsites]
    refine ReportsApplied.recorded ?_ phases
    rw [withRevision_sites, sites_of_core observed.core]
    exact h
  | deletion _ revised hrevised _ status _ =>
    obtain ⟨phases, hsites⟩ := (status d hd).2.sites
    rw [hsites]
    refine ReportsApplied.recorded ?_ phases
    rw [hrevised]
    exact h

theorem mergeReconciledSites_names (current desired : List SiteRevisionStatus) :
    (mergeReconciledSites current desired).map (·.name) = desired.map (·.name) := by
  unfold mergeReconciledSites
  rw [map_map]
  rfl

namespace HubState

/-- A message is recorded in the entry named after its registration, so an honest result
reports a plan applied under that name. -/
theorem reportsApplied_message {registration : String} {message : PlanMessage} {entry : Nat}
    (h : ReportsApplied s.applied s.stored.status.sites)
    (honest : s.reportsHonestly registration message = true)
    (found : siteIndex? s.stored.status.sites registration = some entry) :
    ReportsApplied s.applied (s.stored.status.sites.modify entry fun site =>
      stampGeneration s.stored.generation (message.update now site)) := by
  intro e he hne
  rcases Lists.mem_modify he with hin | ⟨site, hsite, rfl⟩
  · exact h e hin hne
  have hname : site.name = registration := by
    have hfound := siteIndex?_some found
    rw [hsite] at hfound
    exact Option.some.inj hfound
  have hkept : (stampGeneration s.stored.generation (message.update now site)).name =
      registration := (message.update_spec now site).name.trans hname
  rw [hkept]
  rcases (message.update_spec now site).appliedRevision with hsame | ⟨result, rfl, hrev, -⟩
  · have hmem : site ∈ s.stored.status.sites := mem_of_getElem? hsite
    obtain ⟨p, hp, hpr, href⟩ := h site hmem (hsame ▸ hne)
    exact ⟨p, hp, hpr.trans hsame.symm, href.trans hname⟩
  · rw [reportsHonestly, decide_eq_true_eq] at honest
    obtain ⟨p, hp, hreport⟩ := any_eq_true.mp honest.2
    rw [decide_eq_true_eq] at hreport
    exact ⟨p, hp, hreport.1.trans hrev.symm, hreport.2⟩

theorem StepCase.entries (h : StepCase config s e t) (he : isReconcile e = false) :
    t.stored.status.sites.map (·.name) = s.stored.status.sites.map (·.name) ∧
      (∀ p ∈ s.applied, p ∈ t.applied) ∧ (∀ p ∈ t.applied, p ∈ s.applied ∨ p ∈ s.written) ∧
      (ReportsApplied s.applied s.stored.status.sites →
        ReportsApplied s.applied t.stored.status.sites) := by
  cases h with
  | issue | commit | abandon => cases he
  | @upgrade name _ _ _ _ _ _ _ =>
    have hstatus := s.applyUpgradeWrites_status name
    rw [applyUpgradeWrites_eq]
    rw [hstatus]
    exact ⟨rfl, fun _ => id, fun _ => .inl, id⟩
  | @apply plan hwritten =>
    refine ⟨rfl, fun p => mem_cons_of_mem plan, fun p hp => ?_, id⟩
    rcases mem_cons.mp hp with rfl | hp
    · exact .inr hwritten
    · exact .inl hp
  | message honest found =>
    refine ⟨Lists.map_modify fun site => ?_, fun _ => id, fun _ => .inl, fun h => ?_⟩
    · exact (PlanMessage.update_spec ..).name
    · exact reportsApplied_message h honest found
  | refused | upgradeBackupFailed | edit | annotate | delete | createUpgrade | deleteUpgrade =>
    exact ⟨rfl, fun _ => id, fun _ => .inl, id⟩
  | backupResult hrecords | upgradeBackupSucceeded hrecords =>
    exact ⟨congrArg _ hrecords.sites, fun _ => id, fun _ => .inl, fun h => hrecords.sites ▸ h⟩

/-! ## Reports -/

structure Reported (s : HubState) : Prop where
  applied : ∀ p ∈ s.applied, p ∈ s.written
  stored : ReportsApplied s.applied s.stored.status.sites
  pending : ∀ d, s.pending = some d → ReportsApplied s.applied d.sites

theorem reported_initial (h : Initial config s) : Reported s where
  applied p hp := by rw [h.applied] at hp; cases hp
  stored := by
    rw [h.sites]
    exact nofun
  pending d hd := by rw [h.pending] at hd; cases hd

theorem Reported.issue (h : Reported s) (hissue : IssueSpec s t reads now o) : Reported t := by
  obtain ⟨finalizer, hstored⟩ := hissue.stored
  refine ⟨fun p hp => ?_, ?_, fun d hd => ?_⟩
  · rw [hissue.applied] at hp
    exact hissue.kept p (h.applied p hp)
  · rw [hissue.applied, hstored]
    exact h.stored
  · rw [hissue.applied]
    exact hissue.outcome.reportsApplied (hissue.pending ▸ hd) h.stored

theorem Reported.step (h : Reported s) (hok : sequential config s e)
    (hst : s.step config e = some t) : Reported t := by
  have hcase := step_case hst
  by_cases he : isReconcile e = false
  · obtain ⟨-, hkept, hnew, hstored⟩ := hcase.entries he
    obtain ⟨hpend, hwritten, -⟩ := hcase.plansStand he
    refine ⟨fun p hp => ?_, (hstored h.stored).mono hkept, fun d hd => ?_⟩
    · rw [hwritten]
      exact (hnew p hp).elim (h.applied p) id
    · exact (h.pending d (hpend ▸ hd)).mono hkept
  · cases hcase with
    | issue => exact h.issue (sequential.issueSpec hok)
    | commit hdesired =>
      exact ⟨h.applied, h.stored.merged (h.pending _ hdesired), fun d hd => by cases hd⟩
    | abandon => exact ⟨h.applied, h.stored, fun d hd => by cases hd⟩
    | _ => exact absurd rfl he

/-! ## Names -/

structure EntriesMatch (written : List SitePlan) (i : MultiSitePostgres)
    (status : MultiSitePostgresStatus) : Prop where
  covers : ∀ p ∈ written, p.revision = status.activeRevision →
    p.site.name ∈ status.sites.map (·.name)
  names : ∀ f, status.planFingerprint = .sum f → f.generation = i.generation →
    status.sites.map (·.name) = i.spec.sites.map (·.name)
  generation : ∀ f, status.planFingerprint = .sum f → f.generation ≤ i.generation

theorem EntriesMatch.frame {written written' : List SitePlan} {i j : MultiSitePostgres}
    {status status' : MultiSitePostgresStatus} (h : EntriesMatch written i status)
    (hstand : SpecStands i j) (hwritten : ∀ p ∈ written', p.revision = status.activeRevision →
      p ∈ written) (hrev : status'.activeRevision = status.activeRevision)
    (hprint : status'.planFingerprint = status.planFingerprint)
    (hnames : status'.sites.map (·.name) = status.sites.map (·.name)) :
    EntriesMatch written' j status' where
  covers p hp hcur := by
    rw [hrev] at hcur
    rw [hnames]
    exact h.covers p (hwritten p hp hcur) hcur
  names f hf hgen := by
    rw [hprint] at hf
    have hsame : j.generation = i.generation :=
      le_antisymm (hgen ▸ h.generation f hf) hstand.generation
    rw [hnames, hstand.spec hsame]
    exact h.names f hf (hgen.trans hsame)
  generation f hf := (h.generation f (hprint ▸ hf)).trans hstand.generation

structure Entered (s : HubState) : Prop where
  stored : EntriesMatch s.written s.stored s.stored.status
  pending : ∀ d, s.pending = some d → EntriesMatch s.written s.stored d
  /-- Plans of one revision agree on what a site is. -/
  agree : ∀ p ∈ s.written, ∀ q ∈ s.written, p.revision = q.revision →
    p.site.name = q.site.name → p.site = q.site

namespace Entered

theorem initial (h : Initial config s) : Entered s where
  stored := by
    refine ⟨fun p hp => ?_, fun f hf => ?_, fun f hf => ?_⟩
    · rw [h.written] at hp
      cases hp
    · rw [h.planFingerprint] at hf
      cases hf
    · rw [h.planFingerprint] at hf
      cases hf
  pending d hd := by rw [h.pending] at hd; cases hd
  agree p hp := by rw [h.written] at hp; cases hp

theorem issued {s t : HubState} {d : MultiSitePostgresStatus} (h : Entered s)
    (hnodup : (s.stored.spec.sites.map (·.name)).Nodup)
    (hstored : ∃ f, t.stored = { s.stored with finalizer := f }) (hpend : t.pending = some d)
    (hnames : d.sites.map (·.name) = s.stored.spec.sites.map (·.name))
    (hgen : ∀ f, d.planFingerprint = .sum f → f.generation ≤ s.stored.generation)
    (hsame : d.activeRevision = s.stored.status.activeRevision →
      s.stored.status.sites.map (·.name) = s.stored.spec.sites.map (·.name))
    (hsite : ∀ p ∈ t.written, p.revision = d.activeRevision → p.site ∈ s.stored.spec.sites)
    (hnew : ∀ p ∈ t.written, p ∉ s.written → p.revision = d.activeRevision) : Entered t := by
  obtain ⟨finalizer, hstored⟩ := hstored
  refine ⟨⟨fun p hp hcur => ?_, ?_, ?_⟩, fun d' hd' => ?_, fun p hp q hq hrev hname => ?_⟩
  · rw [hstored] at hcur ⊢
    by_cases hin : p ∈ s.written
    · exact h.stored.covers p hin hcur
    have hd := hnew p hp hin
    rw [hsame (hd.symm.trans hcur)]
    exact mem_map_of_mem (hsite p hp hd)
  · rw [hstored]
    exact h.stored.names
  · rw [hstored]
    exact h.stored.generation
  · obtain rfl := Option.some.inj (hd'.symm.trans hpend)
    refine ⟨fun p hp hcur => ?_, fun f _ _ => ?_, ?_⟩
    · rw [hnames]
      exact mem_map_of_mem (hsite p hp hcur)
    · rw [hstored]
      exact hnames
    · rw [hstored]
      exact hgen
  · by_cases hcur : p.revision = d.activeRevision
    · exact inj_on_of_nodup_map hnodup (hsite p hp hcur) (hsite q hq (hrev ▸ hcur)) hname
    have hp' : p ∈ s.written := by
      by_contra hnot
      exact hcur (hnew p hp hnot)
    have hq' : q ∈ s.written := by
      by_contra hnot
      exact hcur (hrev.trans (hnew q hq hnot))
    exact h.agree p hp' q hq' hrev hname

theorem issue (h : Entered s) (hseq : Sequenced s) (hnone : s.pending = none)
    (hissue : IssueSpec s t reads now o) :
    Entered t := by
  cases hissue.plansCase hseq.nonneg with
  | quiet _ written pending =>
    obtain ⟨finalizer, hstored⟩ := hissue.stored
    have hstand : SpecStands s.stored t.stored := hstored ▸ .of_status ..
    refine ⟨?_, fun d hd => ?_, fun p hp q hq => h.agree p (written p hp) q (written q hq)⟩
    · exact h.stored.frame hstand (fun p hp _ => written p hp) (by rw [hstored]) (by rw [hstored])
        (by rw [hstored])
    · have hkeeps := pending d hd
      exact h.stored.frame hstand (fun p hp _ => written p hp) hkeeps.activeRevision
        hkeeps.planFingerprint (by rw [hkeeps.sites])
  | issued deleting observed _ pending revision moves fingerprint names planned =>
    refine h.issued hseq.names hissue.stored pending names ?_ ?_ ?_ ?_
    · intro f hf
      rw [fingerprint] at hf
      rw [← PlanFingerprint.sum.inj hf]
      exact le_refl s.stored.generation
    · intro hsame
      split at moves
      · rename_i hunmoved
        exact h.stored.names _ hunmoved rfl
      · omega
    · intro p hp hcur
      rcases hissue.written p hp with hplan | hin
      · exact (planned p hplan).site
      · exact ((hseq.reissued hnone deleting observed hin (hcur.trans revision)).2.2.spec rfl).site
    · exact fun p hp hnot => (planned p ((hissue.written p hp).resolve_right hnot)).revision
  | deletion _ pending moves fingerprint names planned =>
    refine h.issued hseq.names hissue.stored pending names ?_ (by omega) ?_ ?_
    · intro f hf
      rw [fingerprint] at hf
      cases hf
    · intro p hp hcur
      rcases hissue.written p hp with hplan | hin
      · obtain ⟨registration, site, hsite, rfl⟩ := planned p hplan
        exact hsite
      · have hbound := hseq.bounded p hin
        rw [currentRevision_of_none hnone] at hbound
        omega
    · intro p hp hnot
      obtain ⟨registration, site, -, rfl⟩ := planned p ((hissue.written p hp).resolve_right hnot)
      rfl

theorem step (h : Entered s) (hseq : Sequenced s) (hok : sequential config s e)
    (hst : s.step config e = some t) :
    Entered t := by
  have hcase := step_case hst
  by_cases he : isReconcile e = false
  · obtain ⟨hnames, -⟩ := hcase.entries he
    obtain ⟨hpend, hwritten, hstand⟩ := hcase.plansStand he
    refine ⟨?_, fun d hd => ?_, ?_⟩
    · exact h.stored.frame hstand.toSpecStands (fun p hp _ => hwritten ▸ hp)
        hstand.activeRevision hstand.planFingerprint hnames
    · exact (h.pending d (hpend ▸ hd)).frame hstand.toSpecStands
        (fun p hp _ => hwritten ▸ hp) rfl rfl rfl
    · rw [hwritten]
      exact h.agree
  · cases hcase with
    | issue _ hnone => exact h.issue hseq hnone hok.issueSpec
    | @commit desired hdesired =>
      have hmerged := mergeReconciledStatus_activeRevision (hseq.pending desired hdesired)
      refine ⟨?_, fun d hd => (by cases hd), h.agree⟩
      exact (h.pending desired hdesired).frame (.of_status ..) (fun p hp _ => hp) hmerged rfl
        (mergeReconciledSites_names ..)
    | abandon => exact ⟨h.stored, fun d hd => (by cases hd), h.agree⟩
    | _ => exact absurd rfl he

end Entered

/-- What holds when reconciles are not interrupted. -/
structure Booked (s : HubState) : Prop where
  sequenced : Sequenced s
  reported : Reported s
  entered : Entered s

theorem Booked.initial (h : Initial config s) : Booked s :=
  ⟨.initial h, reported_initial h, .initial h⟩

theorem Booked.step (h : Booked s) (hok : sequential config s e)
    (hst : s.step config e = some t) : Booked t :=
  ⟨h.sequenced.step hok hst, h.reported.step hok hst, h.entered.step h.sequenced hok hst⟩

/-! ## Counting -/

/-- When every entry reports the active revision, every site that has an entry has applied
a plan of that revision. -/
theorem applied_everywhere (hreported : Reported s) (hentered : Entered s)
    (happlied : allSitesApplied s.stored.status.sites s.stored.status.activeRevision = true)
    (hrev : s.stored.status.activeRevision ≠ 0) :
    ∀ n ∈ s.stored.status.sites.map (·.name), ∃ p ∈ s.applied,
      p.site.name = n ∧ p.revision = s.stored.status.activeRevision := by
  have hreport : ∀ n ∈ s.stored.status.sites.map (·.name), ∃ p ∈ s.applied,
      p.revision = s.stored.status.activeRevision ∧ p.site.siteRegistrationRef = n := by
    intro n hn
    obtain ⟨e, he, rfl⟩ := mem_map.mp hn
    have hall := allSitesApplied_mem happlied he
    obtain ⟨p, hp, hpr, href⟩ := hreported.stored e he (hall ▸ hrev)
    exact ⟨p, hp, hpr.trans hall, href⟩
  intro n hn
  obtain ⟨p, -⟩ := hreport n hn
  have : Nonempty SitePlan := ⟨p⟩
  -- each entry name is the registration of a site whose own name is an entry name
  choose! plan hplan hcur href using hreport
  have hmaps : Set.MapsTo (fun n => (plan n).site.name)
      (s.stored.status.sites.map (·.name)).toFinset
      (s.stored.status.sites.map (·.name)).toFinset := by
    intro n hn
    rw [Finset.mem_coe, mem_toFinset] at hn ⊢
    exact hentered.stored.covers _ (hreported.applied _ (hplan n hn)) (hcur n hn)
  have hinj : Set.InjOn (fun n => (plan n).site.name)
      (s.stored.status.sites.map (·.name)).toFinset := by
    intro n hn m hm hname
    rw [Finset.mem_coe, mem_toFinset] at hn hm
    have hsite := hentered.agree _ (hreported.applied _ (hplan n hn)) _
      (hreported.applied _ (hplan m hm)) ((hcur n hn).trans (hcur m hm).symm) hname
    rw [← href n hn, ← href m hm, hsite]
  have hsurj := Finset.surjOn_of_injOn_of_card_le _ hmaps hinj (le_refl _)
  obtain ⟨m, hm, hname⟩ := hsurj (Finset.mem_coe.mpr (mem_toFinset.mpr hn))
  rw [Finset.mem_coe, mem_toFinset] at hm
  exact ⟨plan m, hplan m hm, hname, hcur m hm⟩

end HubState

end Mspsql
