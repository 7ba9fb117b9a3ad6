import Mspsql.Agent.MemberSites
import Mspsql.Hub.Acceptance
import Mspsql.Hub.Consensus

/-!
# Three views of where PostgreSQL runs

In most phases of a restore or a major upgrade PostgreSQL does not run everywhere.  The hub
knows this when it counts topology observations, the agent when it decides to observe, and the
renderer when it stops members.  The three agree except in three phases of a major upgrade:
while the primary alone is started the test on its name decides, and when writes are restored
or a rollback has started the agents of the other data sites do not observe although the hub
waits for them.
-/

namespace Mspsql

open Sample List

/-! ## The members a plan runs -/

namespace SitePlan

variable {desired : SitePlan}

/-- The PostgreSQL members whose StatefulSet has a replica. -/
def runningMembers (desired : SitePlan) : List String :=
  if desired.site.role = .witness ∨
      desired.seedRestore.any (·.seedSite ≠ desired.site.name) then []
  else desired.postgresMembers.filter fun name =>
    desired.seedRestore.all (·.seedMember = name) && !desired.majorMemberStopped name

theorem etcdMember_not_postgres {name : String} (hetcd : name ∈ desired.etcdMembers) :
    name ∉ desired.postgresMembers := by
  intro hpg
  obtain ⟨n, -, rfl⟩ := mem_map.mp hetcd
  obtain ⟨m, -, hname⟩ := mem_map.mp hpg
  rw [String.append_assoc, String.append_assoc, String.append_assoc,
    String.append_assoc, String.append_assoc] at hname
  exact Text.append_ne_append _ _ 4 (by decide) (by decide) (by decide) hname

theorem mem_runningMembers_iff {r : Renderer} {objects : List SiteObject}
    (h : r.workloads desired = .ok objects) (name : String) :
    name ∈ desired.runningMembers ↔ name ∈ desired.postgresMembers ∧
      ∃ o ∈ objects, o.kind = .statefulSet ∧ o.name = name ∧ 0 < o.replicas := by
  have hrendered := Renderer.workloads_spec h
  unfold runningMembers
  constructor
  · intro hmem
    split at hmem
    · cases hmem
    rename_i hruns
    obtain ⟨hmember, hseed, hrunning⟩ : name ∈ desired.postgresMembers ∧
        desired.seedRestore.all (·.seedMember = name) = true ∧
          desired.majorMemberStopped name = false := by
      simpa using hmem
    refine ⟨hmember, _, hrendered.postgres hruns name hmember hseed, rfl, rfl, ?_⟩
    simp [hrunning]
  · rintro ⟨hname, o, ho, hkind, rfl, hreplicas⟩
    cases hrendered.case o ho with
    | plain hother =>
      rw [hkind] at hother
      simp at hother
    | etcd _ hmember => exact absurd hname (etcdMember_not_postgres hmember)
    | @postgres member hruns hmember hseed =>
      have hrunning : desired.majorMemberStopped member = false := by
        by_contra hstopped
        rw [Bool.not_eq_false] at hstopped
        simp [hstopped] at hreplicas
      rw [if_neg hruns]
      refine mem_filter.mpr ⟨hmember, ?_⟩
      show (_ && !desired.majorMemberStopped member) = true
      rw [hrunning, Bool.and_eq_true]
      exact ⟨hseed, rfl⟩
    | pgpool => cases hkind

end SitePlan

/-! ## The views -/

theorem name_eq_of_member {kind member : String} {s t : PostgresSiteSpec} {m n : Nat}
    (hs : member ∈ siteMembers kind s m) (ht : member ∈ siteMembers kind t n) :
    s.name = t.name := by
  have hown : ∀ {site : PostgresSiteSpec} {k : Nat}, member ∈ siteMembers kind site k →
      carriesSite kind member site.name = true := fun h => (carriesSite_iff h _).mpr (.inl rfl)
  rcases (carriesSite_iff hs t.name).mp (hown ht) with hsame | hlonger
  · exact hsame.symm
  · rcases (carriesSite_iff ht s.name).mp (hown hs) with hsame | hlonger'
    · exact hsame
    · -- neither name can continue the other
      have hlength := (Text.hasPrefix_iff.mp hlonger).length_le
      have hlength' := (Text.hasPrefix_iff.mp hlonger').length_le
      simp only [String.toList_append, length_append] at hlength hlength'
      have hdash : ("-" : String).toList.length = 1 := rfl
      omega

namespace MultiSitePostgres

variable (i : MultiSitePostgres) (inputs : PlanInputs)

def dataSites : List PostgresSiteSpec := i.spec.sites.filter (·.role = .data)

/-- How many data sites the hub wants an observation from. -/
def requiredSites : Nat :=
  if postgresStopped i.annotations.upgradePhase then 0 else requiredObservations i

structure ViewsAgree (plan : PostgresSiteSpec → SitePlan) : Prop where
  required : i.requiredSites =
    (i.dataSites.filter fun site => Agent.restoreExpectsPostgres (plan site)).length
  running : ∀ site ∈ i.spec.sites, Agent.restoreExpectsPostgres (plan site) = true ↔
    (plan site).runningMembers ≠ []

/-- Restores and upgrades leave their name together with their phase. -/
structure Named : Prop where
  restore : i.annotations.restoreName = "" → i.annotations.restorePhase ≠ .active .seed
  upgrade : i.annotations.upgradeName = "" → ∀ phase, i.annotations.upgradePhase ≠ .major phase

def seed? (restore : Option RestorePlan) : Option RestorePlan := restore.filter (·.phase = .seed)

/-- The primary of the upgrade is a member of one data site, no other data site's test takes
it for its own, and a restore starts from no other member. -/
def PrimaryPlaced (restore : Option RestorePlan) (primary : String) : Prop :=
  (i.dataSites.filter fun site => memberBelongsToSite primary site.name).length = 1 ∧
    ∃ site ∈ i.dataSites,
      primary ∈ siteMembers "postgres" site site.components.postgresReplicas ∧
        (seed? restore).all (·.seedMember = primary) = true

def ViewsMatch : Prop :=
  match inputs.major with
  | none => True
  | some upgrade =>
    match upgrade.phase with
    | .startPrimary => i.PrimaryPlaced inputs.restore upgrade.primary
    | .rollbackStart => ((seed? inputs.restore).isSome = true ∨ i.dataSites.length = 1) ∧
        i.PrimaryPlaced inputs.restore upgrade.primary
    | .restoreWrites => ∀ site ∈ i.dataSites, memberBelongsToSite upgrade.primary site.name =
        (seed? inputs.restore).all (·.seedSite = site.name)
    | _ => True

end MultiSitePostgres

/-! ## What the contracts say about the phases -/

structure PhaseInputs (i : MultiSitePostgres) (inputs : PlanInputs) : Prop where
  seed : i.annotations.restorePhase = .active .seed ↔
    (MultiSitePostgres.seed? inputs.restore).isSome = true
  seedSite : ∀ r, MultiSitePostgres.seed? inputs.restore = some r → ∃ site ∈ i.dataSites,
    site.name = r.seedSite ∧
      r.seedMember ∈ siteMembers "postgres" site site.components.postgresReplicas
  major : ∀ upgrade, inputs.major = some upgrade →
    i.annotations.upgradePhase = .major upgrade.phase
  noMajor : inputs.major = none → ∀ phase, i.annotations.upgradePhase ≠ .major phase

theorem foldl_better {better : Option PostgresSiteSpec → PostgresSiteSpec → Option PostgresSiteSpec}
    (hbetter : ∀ selected site s, better selected site = some s →
      selected = some s ∨ s = site ∧ site.role = .data ∧ 0 < site.components.postgresReplicas)
    (sites : List PostgresSiteSpec) (selected : Option PostgresSiteSpec) (s : PostgresSiteSpec)
    (h : sites.foldl better selected = some s) :
    selected = some s ∨ s ∈ sites ∧ s.role = .data ∧ 0 < s.components.postgresReplicas := by
  induction sites generalizing selected with
  | nil => exact .inl h
  | cons site rest ih =>
    rcases ih (better selected site) h with hselected | ⟨hmem, hdata⟩
    · rcases hbetter selected site s hselected with hsame | ⟨rfl, hdata⟩
      · exact .inl hsame
      · exact .inr ⟨mem_cons_self, hdata⟩
    · exact .inr ⟨mem_cons_of_mem _ hmem, hdata⟩

theorem selectRestoreSeed_ok {sites : List PostgresSiteSpec} {seedSite seedMember : String}
    (h : selectRestoreSeed sites = .ok (seedSite, seedMember)) :
    ∃ site ∈ sites, site.role = .data ∧ 0 < site.components.postgresReplicas ∧
      site.name = seedSite ∧ seedMember = "postgres-" ++ site.name ++ "-0" := by
  unfold selectRestoreSeed at h
  simp only at h
  split at h
  · cases h
  · rename_i site hselected
    have hseed := Except.ok.inj h
    have hchosen := foldl_better ?_ sites none site hselected
    · rcases hchosen with hnone | ⟨hmem, hrole, hpos⟩
      · cases hnone
      · exact ⟨site, hmem, hrole, hpos, congrArg Prod.fst hseed, (congrArg Prod.snd hseed).symm⟩
    · intro selected candidate s hs
      by_cases hskip : candidate.role ≠ .data ∨ candidate.components.postgresReplicas < 1
      · rw [if_pos hskip] at hs
        exact .inl hs
      · rw [if_neg hskip] at hs
        push Not at hskip
        cases selected with
        | none => exact .inr ⟨(Option.some.inj hs).symm, hskip⟩
        | some old =>
          simp only at hs
          split at hs
          · exact .inr ⟨(Option.some.inj hs).symm, hskip⟩
          · exact .inl hs

theorem upgradePlans_major {reads : HubReads} {i : MultiSitePostgres}
    {upgrade : Option UpgradePlan} {major : Option MajorUpgradePlan}
    (h : upgradePlans reads i = .ok (upgrade, major)) :
    (∀ u, major = some u → i.annotations.upgradePhase = .major u.phase) ∧
      (major = none → i.annotations.upgradeName = "" ∨
        ∀ phase, i.annotations.upgradePhase ≠ .major phase) := by
  unfold upgradePlans at h
  simp only at h
  split at h
  · rename_i hname
    cases h
    exact ⟨fun _ h => (nomatch h), fun _ => .inl hname⟩
  split at h
  · cases h
  cases hphase : i.annotations.upgradePhase with
  | major phase =>
    rw [hphase] at h
    simp only at h
    split at h
    · cases h
    split at h
    · cases h
    · cases h
      refine ⟨fun u hu => ?_, fun hnone => (nomatch hnone)⟩
      rw [← Option.some.inj hu]
  | minor phase =>
    rw [hphase] at h
    cases h
    exact ⟨fun _ h => (nomatch h), fun _ => .inr fun _ h => (nomatch h)⟩
  | other text =>
    rw [hphase] at h
    simp only at h
    split at h <;> cases h
  | absent =>
    rw [hphase] at h
    cases h

theorem restorePlan_seed {reads : HubReads} {i : MultiSitePostgres} {restore : Option RestorePlan}
    (h : restorePlan reads i = .ok restore) :
    (restore = none → i.annotations.restoreName = "" ∨
        i.annotations.restorePhase = .completed) ∧
      ∀ r, restore = some r → i.annotations.restorePhase = .active r.phase ∧
        selectRestoreSeed i.spec.sites = .ok (r.seedSite, r.seedMember) := by
  unfold restorePlan at h
  simp only at h
  split at h
  · rename_i hnone
    cases h
    exact ⟨fun _ => hnone, fun _ h => (nomatch h)⟩
  split at h
  · cases h
  split at h
  · cases h
  split at h
  · cases h
  split at h
  · cases h
  rename_i hseed
  split at h
  · rename_i hphase
    cases h
    refine ⟨fun h => (nomatch h), fun r hr => ?_⟩
    rw [← Option.some.inj hr]
    exact ⟨hphase, hseed⟩
  · cases h
  · cases h

theorem phaseInputs_of_planInputs {reads : HubReads} {i : MultiSitePostgres} {n : Nat}
    {inputs : PlanInputs} (hnamed : i.Named) (h : planInputs reads i n = .ok inputs) :
    PhaseInputs i inputs := by
  obtain ⟨hrestore, hupgrade⟩ := planInputs_ok h
  obtain ⟨hnoRestore, hsome⟩ := restorePlan_seed hrestore
  obtain ⟨hmajor, hnoMajor⟩ := upgradePlans_major hupgrade
  refine ⟨?_, ?_, hmajor, fun hnone => ?_⟩
  · cases hr : inputs.restore with
    | none =>
      refine ⟨fun hseed => ?_, fun h => (nomatch h)⟩
      rcases hnoRestore hr with hname | hcompleted
      · exact absurd hseed (hnamed.restore hname)
      · rw [hcompleted] at hseed
        cases hseed
    | some r =>
      rw [(hsome r hr).1]
      simp [MultiSitePostgres.seed?]
  · intro r hseed
    have hr : inputs.restore = some r := (Option.filter_eq_some_iff.mp hseed).1
    obtain ⟨site, hsite, hrole, hpos, hname, hmember⟩ := selectRestoreSeed_ok (hsome r hr).2
    refine ⟨site, mem_filter.mpr ⟨hsite, decide_eq_true hrole⟩, hname, ?_⟩
    have hfirst := @first_mem_siteMembers "postgres" site _ hpos
    rw [String.append_assoc] at hfirst
    rw [hmember]
    exact hfirst
  · rcases hnoMajor hnone with hname | hphase
    · exact hnamed.upgrade hname
    · exact hphase

/-! ## When the views agree -/

theorem SitePlan.runningMembers_ne_nil_iff {desired : SitePlan}
    (hdata : desired.site.role = .data) : desired.runningMembers ≠ [] ↔
      desired.seedRestore.all (·.seedSite = desired.site.name) = true ∧
        ∃ name ∈ desired.postgresMembers, desired.seedRestore.all (·.seedMember = name) = true ∧
          desired.majorMemberStopped name = false := by
  unfold runningMembers
  have hwitness : desired.site.role ≠ .witness := by
    rw [hdata]
    decide
  by_cases hseed : desired.seedRestore.all (·.seedSite = desired.site.name) = true
  · have hhere : ¬ (desired.site.role = .witness ∨
        desired.seedRestore.any (·.seedSite ≠ desired.site.name) = true) := by
      cases hrestore : desired.seedRestore with
      | none => simp [hwitness]
      | some r =>
        rw [hrestore] at hseed
        simpa [hwitness] using hseed
    rw [if_neg hhere]
    simp [hseed]
  · have helsewhere : desired.seedRestore.any (·.seedSite ≠ desired.site.name) = true := by
      cases hrestore : desired.seedRestore with
      | none => simp [hrestore] at hseed
      | some r =>
        rw [hrestore] at hseed
        simpa using hseed
    rw [if_pos (.inr helsewhere)]
    simp [hseed]

namespace MultiSitePostgres

structure Plans (inputs : PlanInputs) (plan : PostgresSiteSpec → SitePlan) : Prop where
  site : ∀ s, (plan s).site = s
  restore : ∀ s, (plan s).restore = inputs.restore
  major : ∀ s, (plan s).majorUpgrade = inputs.major

variable {lib : AdmissionLibrary} {i : MultiSitePostgres} {inputs : PlanInputs}
  {plan : PostgresSiteSpec → SitePlan} {s : PostgresSiteSpec}

theorem mem_dataSites : s ∈ i.dataSites ↔ s ∈ i.spec.sites ∧ s.role = .data := by
  simp [dataSites]

theorem Plans.seedRestore (h : Plans inputs plan) (s : PostgresSiteSpec) :
    (plan s).seedRestore = seed? inputs.restore := by
  rw [SitePlan.seedRestore, h.restore]
  rfl

theorem Plans.members (h : Plans inputs plan) (s : PostgresSiteSpec) :
    (plan s).postgresMembers = siteMembers "postgres" s s.components.postgresReplicas := by
  rw [SitePlan.postgresMembers, h.site]

theorem eq_of_name (hadm : Admitted lib i.spec) {s t : PostgresSiteSpec}
    (hs : s ∈ i.dataSites) (ht : t ∈ i.dataSites) (h : s.name = t.name) : s = t :=
  inj_on_of_nodup_map hadm.names_nodup (mem_dataSites.mp hs).1 (mem_dataSites.mp ht).1 h

theorem runs_iff_reached (hadm : Admitted lib i.spec) (hphase : PhaseInputs i inputs)
    (hplans : Plans inputs plan) (hs : s ∈ i.dataSites)
    (hrunning : ∀ name, (plan s).majorMemberStopped name = false) :
    (plan s).runningMembers ≠ [] ↔ (seed? inputs.restore).all (·.seedSite = s.name) = true := by
  obtain ⟨hsite, hrole⟩ := mem_dataSites.mp hs
  rw [SitePlan.runningMembers_ne_nil_iff (by rw [hplans.site]; exact hrole), hplans.seedRestore,
    hplans.site, hplans.members]
  refine ⟨fun h => h.1, fun hreached => ⟨hreached, ?_⟩⟩
  cases hseed : seed? inputs.restore with
  | none =>
    have hfirst := @first_mem_siteMembers "postgres" s _ ((hadm.data_iff hsite).mp hrole)
    exact ⟨_, hfirst, rfl, hrunning _⟩
  | some r =>
    obtain ⟨site, hdata, hname, hmember⟩ := hphase.seedSite r hseed
    have hhere : r.seedSite = s.name := by
      rw [hseed] at hreached
      simpa using hreached
    have hsame : site = s := eq_of_name hadm hdata hs (hname.trans hhere)
    rw [hsame] at hmember
    exact ⟨r.seedMember, hmember, by simp, hrunning _⟩

theorem runs_iff_primary (hphase : PhaseInputs i inputs) (hplans : Plans inputs plan)
    (hs : s ∈ i.dataSites) {primary : String}
    (honly : ∀ name, (plan s).majorMemberStopped name = decide (name ≠ primary)) :
    (plan s).runningMembers ≠ [] ↔
      primary ∈ siteMembers "postgres" s s.components.postgresReplicas ∧
        (seed? inputs.restore).all (·.seedMember = primary) = true := by
  rw [SitePlan.runningMembers_ne_nil_iff (by rw [hplans.site]; exact (mem_dataSites.mp hs).2),
    hplans.seedRestore, hplans.site, hplans.members]
  constructor
  · rintro ⟨-, name, hmember, hseed, hstopped⟩
    rw [honly] at hstopped
    have hname : name = primary := by simpa using hstopped
    rw [← hname]
    exact ⟨hmember, hseed⟩
  · rintro ⟨hmember, hseed⟩
    refine ⟨?_, primary, hmember, hseed, by simp [honly]⟩
    cases hrestore : seed? inputs.restore with
    | none => rfl
    | some r =>
      obtain ⟨site, -, hname, hseedMember⟩ := hphase.seedSite r hrestore
      have hprimary : r.seedMember = primary := by
        rw [hrestore] at hseed
        simpa using hseed
      rw [hprimary] at hseedMember
      rw [Option.all_some, decide_eq_true_eq, ← hname]
      exact name_eq_of_member hseedMember hmember

theorem count_reached (hadm : Admitted lib i.spec) (hphase : PhaseInputs i inputs) :
    (i.dataSites.filter fun s => (seed? inputs.restore).all (·.seedSite = s.name)).length =
      if (seed? inputs.restore).isSome then 1 else i.dataSites.length := by
  cases hseed : seed? inputs.restore with
  | none => simp
  | some r =>
    obtain ⟨site, hdata, hname, -⟩ := hphase.seedSite r hseed
    have hnames : (i.dataSites.map (·.name)).Nodup :=
      hadm.names_nodup.sublist (filter_sublist.map _)
    have hmem : r.seedSite ∈ i.dataSites.map (·.name) := hname ▸ mem_map_of_mem hdata
    have hcount := count_eq_one_of_mem hnames hmem
    rw [count_eq_countP, countP_map, countP_eq_length_filter] at hcount
    rw [Option.isSome_some, if_pos rfl, ← hcount]
    congr 1
    refine filter_congr fun t _ => ?_
    rw [Option.all_some, Bool.eq_iff_iff, decide_eq_true_eq, Function.comp_apply, beq_iff_eq]
    exact eq_comm

theorem requiredSites_eq (hphase : PhaseInputs i inputs)
    (hruns : postgresStopped i.annotations.upgradePhase = false)
    (hmore : i.annotations.upgradePhase ≠ .major .startPrimary) :
    i.requiredSites = if (seed? inputs.restore).isSome then 1 else i.dataSites.length := by
  rw [requiredSites, hruns, requiredObservations]
  simp only [hphase.seed, hmore, or_false]
  rfl

theorem viewsAgree_iff_data (hplans : Plans inputs plan) : i.ViewsAgree plan ↔
    i.requiredSites =
        (i.dataSites.filter fun site => Agent.restoreExpectsPostgres (plan site)).length ∧
      ∀ site ∈ i.dataSites, Agent.restoreExpectsPostgres (plan site) = true ↔
        (plan site).runningMembers ≠ [] := by
  constructor
  · exact fun h => ⟨h.required, fun site hsite => h.running site (mem_dataSites.mp hsite).1⟩
  · rintro ⟨hrequired, hrunning⟩
    refine ⟨hrequired, fun site hsite => ?_⟩
    by_cases hrole : site.role = .data
    · exact hrunning site (mem_dataSites.mpr ⟨hsite, hrole⟩)
    · have hwitness : site.role = .witness := by
        cases h : site.role with
        | witness => rfl
        | data => exact absurd h hrole
      have hnone : (plan site).runningMembers = [] := by
        rw [SitePlan.runningMembers, if_pos (.inl (by rw [hplans.site]; exact hwitness))]
      rw [hnone, Agent.restoreExpectsPostgres, hplans.site, hwitness]
      simp

theorem expects_eq (hplans : Plans inputs plan) (hs : s ∈ i.dataSites) :
    Agent.restoreExpectsPostgres (plan s) =
      match inputs.major with
      | none => (seed? inputs.restore).all (·.seedSite = s.name)
      | some upgrade =>
        match upgrade.phase with
        | .stop | .snapshot | .upgradePrimary | .stanzaUpgrade | .rollback => false
        | .startPrimary | .rollbackStart | .restoreWrites =>
          memberBelongsToSite upgrade.primary s.name
        | _ => (seed? inputs.restore).all (·.seedSite = s.name) := by
  rw [Agent.restoreExpectsPostgres, hplans.site, hplans.seedRestore, hplans.major,
    (mem_dataSites.mp hs).2]
  rfl

theorem exists_dataSite (hadm : Admitted lib i.spec) : ∃ site, site ∈ i.dataSites := by
  obtain ⟨site, hsite, hrole⟩ := hadm.exists_data
  exact ⟨site, mem_dataSites.mpr ⟨hsite, hrole⟩⟩

theorem viewsAgree_reached (hadm : Admitted lib i.spec) (hphase : PhaseInputs i inputs)
    (hplans : Plans inputs plan) (hruns : postgresStopped i.annotations.upgradePhase = false)
    (hmore : i.annotations.upgradePhase ≠ .major .startPrimary)
    (hrunning : ∀ s name, (plan s).majorMemberStopped name = false)
    (hexpects : ∀ s ∈ i.dataSites, Agent.restoreExpectsPostgres (plan s) =
      (seed? inputs.restore).all (·.seedSite = s.name)) : i.ViewsAgree plan := by
  rw [viewsAgree_iff_data hplans]
  constructor
  · rw [requiredSites_eq hphase hruns hmore, ← count_reached hadm hphase]
    congr 1
    exact filter_congr fun s hs => (hexpects s hs).symm
  · intro s hs
    rw [hexpects s hs, runs_iff_reached hadm hphase hplans hs (hrunning s)]

theorem viewsAgree_stopped (hplans : Plans inputs plan)
    (hstopped : postgresStopped i.annotations.upgradePhase = true)
    (hmembers : ∀ s name, (plan s).majorMemberStopped name = true)
    (hexpects : ∀ s ∈ i.dataSites, Agent.restoreExpectsPostgres (plan s) = false) :
    i.ViewsAgree plan := by
  rw [viewsAgree_iff_data hplans]
  constructor
  · rw [requiredSites, if_pos hstopped, filter_eq_nil_iff.mpr]
    · rfl
    · intro s hs
      rw [hexpects s hs]
      decide
  · intro s hs
    rw [hexpects s hs, SitePlan.runningMembers_ne_nil_iff
      (by rw [hplans.site]; exact (mem_dataSites.mp hs).2)]
    simp [hmembers]

theorem viewsAgree_primary_iff (hphase : PhaseInputs i inputs) (hplans : Plans inputs plan)
    {primary : String}
    (honly : ∀ s name, (plan s).majorMemberStopped name = decide (name ≠ primary))
    (hexpects : ∀ s ∈ i.dataSites, Agent.restoreExpectsPostgres (plan s) =
      memberBelongsToSite primary s.name) :
    i.ViewsAgree plan ↔
      i.requiredSites =
          (i.dataSites.filter fun site => memberBelongsToSite primary site.name).length ∧
        ∀ s ∈ i.dataSites, memberBelongsToSite primary s.name = true →
          primary ∈ siteMembers "postgres" s s.components.postgresReplicas ∧
            (seed? inputs.restore).all (·.seedMember = primary) = true := by
  have hcount : (i.dataSites.filter fun site => Agent.restoreExpectsPostgres (plan site)) =
      i.dataSites.filter fun site => memberBelongsToSite primary site.name :=
    filter_congr fun s hs => hexpects s hs
  rw [viewsAgree_iff_data hplans, hcount]
  refine and_congr_right fun _ => ?_
  constructor
  · intro h s hs htest
    rw [← runs_iff_primary hphase hplans hs (honly s), ← h s hs, hexpects s hs]
    exact htest
  · intro h s hs
    rw [hexpects s hs, runs_iff_primary hphase hplans hs (honly s)]
    refine ⟨h s hs, fun hmember => ?_⟩
    exact (carriesSite_iff hmember.1 s.name).mpr (.inl rfl)

theorem primaryPlaced_iff {primary : String} : i.PrimaryPlaced inputs.restore primary ↔
    1 = (i.dataSites.filter fun site => memberBelongsToSite primary site.name).length ∧
      ∀ s ∈ i.dataSites, memberBelongsToSite primary s.name = true →
        primary ∈ siteMembers "postgres" s s.components.postgresReplicas ∧
          (seed? inputs.restore).all (·.seedMember = primary) = true := by
  unfold PrimaryPlaced
  rw [eq_comm]
  refine and_congr_right fun hone => ?_
  obtain ⟨found, hfound⟩ := length_eq_one_iff.mp hone.symm
  have hfilter : ∀ s, s ∈ i.dataSites ∧ memberBelongsToSite primary s.name = true ↔ s = found := by
    intro s
    have hmem : s ∈ i.dataSites.filter (fun site => memberBelongsToSite primary site.name) ↔
        s ∈ [found] := by rw [hfound]
    rwa [mem_filter, mem_singleton] at hmem
  constructor
  · rintro ⟨site, hsite, hmember, hseed⟩ s hs htest
    have hsite : site = found := (hfilter site).mp ⟨hsite, by
      exact (carriesSite_iff hmember site.name).mpr (.inl rfl)⟩
    rw [(hfilter s).mp ⟨hs, htest⟩, ← hsite]
    exact ⟨hmember, hseed⟩
  · intro h
    obtain ⟨hs, htest⟩ := (hfilter found).mpr rfl
    exact ⟨found, hs, h found hs htest⟩

/-- After the rollback the hub waits for all data sites, so that only an instance with one
data site, or one that is being seeded, gets through. -/
theorem rollbackStart_iff (hadm : Admitted lib i.spec) {primary : String} :
    (if (seed? inputs.restore).isSome then 1 else i.dataSites.length) =
          (i.dataSites.filter fun site => memberBelongsToSite primary site.name).length ∧
        (∀ s ∈ i.dataSites, memberBelongsToSite primary s.name = true →
          primary ∈ siteMembers "postgres" s s.components.postgresReplicas ∧
            (seed? inputs.restore).all (·.seedMember = primary) = true) ↔
      ((seed? inputs.restore).isSome = true ∨ i.dataSites.length = 1) ∧
        i.PrimaryPlaced inputs.restore primary := by
  rw [primaryPlaced_iff]
  by_cases hseed : (seed? inputs.restore).isSome = true
  · simp only [hseed, if_true, true_or, true_and]
  · simp only [hseed, false_or, Bool.false_eq_true]
    constructor
    · rintro ⟨hall, hmembers⟩
      have htests : ∀ s ∈ i.dataSites, memberBelongsToSite primary s.name = true :=
        length_filter_eq_length_iff.mp hall.symm
      -- the primary would be a member of all of them
      obtain ⟨first, hfirst⟩ := exists_dataSite hadm
      have hsame : ∀ s ∈ i.dataSites, s = first := fun s hs =>
        eq_of_name hadm hs hfirst (name_eq_of_member (hmembers s hs (htests s hs)).1
          (hmembers first hfirst (htests first hfirst)).1)
      have hone : i.dataSites.length = 1 := by
        have hnodup : i.dataSites.Nodup :=
          (hadm.names_nodup.of_map _).filter _
        have hlist := eq_replicate_of_mem hsame
        rw [hlist, nodup_replicate] at hnodup
        have hpos := length_pos_of_mem hfirst
        omega
      exact ⟨hone, hone.symm.trans hall, hmembers⟩
    · rintro ⟨hone, hcount, hmembers⟩
      exact ⟨hone.trans hcount, hmembers⟩

/-- When writes are restored the renderer runs all members, but only the agents that take the
primary for theirs observe. -/
theorem viewsAgree_restoreWrites_iff (hadm : Admitted lib i.spec)
    (hphase : PhaseInputs i inputs) (hplans : Plans inputs plan)
    (hruns : postgresStopped i.annotations.upgradePhase = false)
    (hmore : i.annotations.upgradePhase ≠ .major .startPrimary) {primary : String}
    (hrunning : ∀ s name, (plan s).majorMemberStopped name = false)
    (hexpects : ∀ s ∈ i.dataSites, Agent.restoreExpectsPostgres (plan s) =
      memberBelongsToSite primary s.name) :
    i.ViewsAgree plan ↔ ∀ s ∈ i.dataSites, memberBelongsToSite primary s.name =
      (seed? inputs.restore).all (·.seedSite = s.name) := by
  constructor
  · intro h s hs
    rw [← hexpects s hs, Bool.eq_iff_iff, ← runs_iff_reached hadm hphase hplans hs (hrunning s)]
    exact h.running s (mem_dataSites.mp hs).1
  · intro h
    exact viewsAgree_reached hadm hphase hplans hruns hmore hrunning
      fun s hs => (hexpects s hs).trans (h s hs)

theorem stopped_eq (hplans : Plans inputs plan) (s : PostgresSiteSpec) (name : String) :
    (plan s).majorMemberStopped name =
      match inputs.major with
      | none => false
      | some upgrade =>
        match upgrade.phase with
        | .stop | .snapshot | .upgradePrimary | .stanzaUpgrade | .rollback => true
        | .startPrimary | .rollbackStart => decide (name ≠ upgrade.primary)
        | _ => false := by
  rewrite [SitePlan.majorMemberStopped, hplans.major]
  rfl

/-- For every admitted instance and the plans of its phase, the three views agree exactly
under `ViewsMatch`; and the members that a view runs are those that are rendered. -/
theorem viewsAgree_iff (hadm : Admitted lib i.spec) (hnamed : i.Named) {reads : HubReads}
    {n : Nat} (hinputs : planInputs reads i n = .ok inputs) (now : Time)
    (registration : PostgresSiteSpec → SiteRegistration) :
    (i.ViewsAgree (fun site => sitePlan i inputs now (registration site) site) ↔
        i.ViewsMatch inputs) ∧
      ∀ site, ∀ (r : Renderer) (objects : List SiteObject),
        r.workloads (sitePlan i inputs now (registration site) site) = .ok objects →
          ((sitePlan i inputs now (registration site) site).runningMembers ≠ [] ↔
            ∃ o ∈ objects, o.kind = .statefulSet ∧ 0 < o.replicas ∧
              o.name ∈ siteMembers "postgres" site site.components.postgresReplicas) := by
  have hphase := phaseInputs_of_planInputs hnamed hinputs
  have hplans : Plans inputs (fun site => sitePlan i inputs now (registration site) site) :=
    ⟨fun _ => rfl, fun _ => rfl, fun _ => rfl⟩
  refine ⟨?_, ?_⟩
  · have hexpects := fun s (hs : s ∈ i.dataSites) => expects_eq hplans hs
    have hstopped := stopped_eq hplans
    unfold ViewsMatch
    cases hmajor : inputs.major with
    | none =>
      simp only [hmajor] at hexpects hstopped
      have hphases := hphase.noMajor hmajor
      have hruns : postgresStopped i.annotations.upgradePhase = false := by
        by_contra h
        obtain ⟨phase, -, hphaseNow⟩ := of_postgresStopped (Bool.not_eq_false _ ▸ h)
        exact hphases phase hphaseNow
      exact iff_of_true (viewsAgree_reached hadm hphase hplans hruns (hphases _) hstopped
        hexpects) trivial
    | some upgrade =>
      have hphaseNow := hphase.major upgrade hmajor
      simp only [hmajor] at hexpects hstopped
      cases hp : upgrade.phase
      all_goals simp only [hp] at hexpects hstopped hphaseNow ⊢
      case startPrimary =>
        rw [viewsAgree_primary_iff hphase hplans hstopped hexpects, primaryPlaced_iff]
        have hrequired : i.requiredSites = 1 := by
          simp [requiredSites, requiredObservations, hphaseNow, postgresStopped]
        rw [hrequired]
      case rollbackStart =>
        rw [viewsAgree_primary_iff hphase hplans hstopped hexpects,
          requiredSites_eq hphase (by rw [hphaseNow]; rfl) (by rw [hphaseNow]; decide)]
        exact rollbackStart_iff hadm
      case restoreWrites =>
        exact viewsAgree_restoreWrites_iff hadm hphase hplans (by rw [hphaseNow]; rfl)
          (by rw [hphaseNow]; decide) hstopped hexpects
      case stop | snapshot | upgradePrimary | stanzaUpgrade | rollback =>
        exact iff_of_true (viewsAgree_stopped hplans (by rw [hphaseNow]; rfl) hstopped hexpects)
          trivial
      all_goals exact iff_of_true (viewsAgree_reached hadm hphase hplans
        (by rw [hphaseNow]; rfl) (by rw [hphaseNow]; decide) hstopped hexpects) trivial
  · intro site r objects hrendered
    have hmembers := fun name => SitePlan.mem_runningMembers_iff hrendered name
    constructor
    · intro hne
      obtain ⟨name, hname⟩ := exists_mem_of_ne_nil _ hne
      obtain ⟨hmember, o, ho, hkind, rfl, hreplicas⟩ := (hmembers name).mp hname
      exact ⟨o, ho, hkind, hreplicas, hmember⟩
    · rintro ⟨o, ho, hkind, hreplicas, hmember⟩
      exact ne_nil_of_mem ((hmembers o.name).mpr ⟨hmember, o, ho, hkind, rfl, hreplicas⟩)

end MultiSitePostgres

namespace Sample

/-- The shipped instance in a phase of a major upgrade that began with `postgres-vic-0` as
primary. -/
def upgradingOrders (phase : MajorUpgradePhase) : MultiSitePostgres :=
  { orders with annotations := {
      upgradeUID := "orders-18-uid"
      upgradeName := "orders-18"
      upgradePhase := .major phase
      upgradeFromPrimary := "postgres-vic-0"
      upgradeSourceMajor := some 17 } }

def upgradeReads : HubReads :=
  { reads with upgrades := [{ ledgerUpgrade with name := "orders-18", uid := "orders-18-uid" }] }

def upgradePlanFor (i : MultiSitePostgres) (inputs : PlanInputs) (site : PostgresSiteSpec) :
    SitePlan :=
  sitePlan i inputs 0 (registration site.name) site

def observers (phase : MajorUpgradePhase) (inputs : PlanInputs) : List PostgresSiteSpec :=
  (upgradingOrders phase).dataSites.filter fun site =>
    Agent.restoreExpectsPostgres (upgradePlanFor (upgradingOrders phase) inputs site)

theorem exists_inputs {i : MultiSitePostgres} {p : PlanInputs → Bool}
    (h : (planInputs upgradeReads i 0).toOption.any p = true) :
    ∃ inputs, planInputs upgradeReads i 0 = .ok inputs ∧ p inputs = true := by
  cases hinputs : planInputs upgradeReads i 0 with
  | error e =>
    rw [hinputs] at h
    cases h
  | ok inputs =>
    rw [hinputs] at h
    exact ⟨inputs, rfl, h⟩

theorem upgradingOrders_named (phase : MajorUpgradePhase) : (upgradingOrders phase).Named :=
  ⟨fun _ h => (nomatch h), fun h => absurd h (show "orders-18" ≠ "" by decide)⟩

end Sample

theorem startPrimary_views_agree :
    Admitted library (upgradingOrders .startPrimary).spec ∧
      ∃ inputs, planInputs upgradeReads (upgradingOrders .startPrimary) 0 =
          .ok inputs ∧
        (upgradingOrders .startPrimary).ViewsAgree
          (upgradePlanFor (upgradingOrders .startPrimary) inputs) := by
  have hadm : Admitted library (upgradingOrders .startPrimary).spec := by
    decide +kernel
  obtain ⟨inputs, hinputs, hmatch⟩ := @exists_inputs
    (upgradingOrders .startPrimary) (fun inputs => inputs.restore = none ∧
      (inputs.major.map fun u => (u.phase, u.primary)) = some (.startPrimary, "postgres-vic-0"))
    (by decide +kernel)
  refine ⟨hadm, inputs, hinputs, (MultiSitePostgres.viewsAgree_iff hadm
    (upgradingOrders_named _) hinputs 0 (fun site => registration site.name)).1.mpr ?_⟩
  obtain ⟨hrestore, hmajor⟩ := of_decide_eq_true hmatch
  obtain ⟨upgrade, hupgrade, heq⟩ := Option.map_eq_some_iff.mp hmajor
  have hphase : upgrade.phase = .startPrimary := congrArg Prod.fst heq
  have hprimary : upgrade.primary = "postgres-vic-0" := congrArg Prod.snd heq
  simp only [MultiSitePostgres.ViewsMatch, hupgrade, hphase, hprimary, hrestore]
  refine ⟨by decide +kernel, vic, by decide +kernel, by decide +kernel, rfl⟩

/-- When writes are restored the agent of `nsw` does not observe, although its members run
and the hub waits for two sites; after a rollback the hub waits for two sites while the
members of one run. -/
theorem restoreWrites_views_differ :
    Admitted library orders.spec ∧
      (upgradingOrders .restoreWrites).Named ∧
      (∃ inputs, planInputs upgradeReads (upgradingOrders .restoreWrites) 0 =
          .ok inputs ∧
        (upgradingOrders .restoreWrites).requiredSites = 2 ∧
        observers .restoreWrites inputs = [vic] ∧
        (upgradePlanFor (upgradingOrders .restoreWrites) inputs
          nsw).runningMembers = ["postgres-nsw-0", "postgres-nsw-1"]) ∧
      ∃ inputs, planInputs upgradeReads (upgradingOrders .rollbackStart) 0 =
          .ok inputs ∧
        (upgradingOrders .rollbackStart).requiredSites = 2 ∧
        observers .rollbackStart inputs = [vic] := by
  refine ⟨by decide +kernel, upgradingOrders_named _, ?_, ?_⟩
  · obtain ⟨inputs, hinputs, h⟩ := @exists_inputs (upgradingOrders .restoreWrites)
      (fun inputs => observers .restoreWrites inputs = [vic] ∧
        (upgradePlanFor (upgradingOrders .restoreWrites) inputs
          nsw).runningMembers = ["postgres-nsw-0", "postgres-nsw-1"]) (by decide +kernel)
    exact ⟨inputs, hinputs, by decide +kernel, of_decide_eq_true h⟩
  · obtain ⟨inputs, hinputs, h⟩ := @exists_inputs (upgradingOrders .rollbackStart)
      (fun inputs => observers .rollbackStart inputs = [vic]) (by decide +kernel)
    exact ⟨inputs, hinputs, by decide +kernel, of_decide_eq_true h⟩

end Mspsql
