import Mspsql.Agent.MemberSites
import Mspsql.Hub.Chronicle
import Mspsql.Hub.Migrations
import Mspsql.Hub.Rollout

/-!
# Rotating credentials

The planner moves the members to new credentials one at a time.  Which of them have moved it
reads back from the entries: the agent of a target's site reports the members that its plan
lists as moved together with the target, and the planner takes the union of these reports.
-/

namespace Mspsql

open MultiSitePostgres List

/-- `setCredentialMemberCondition`: what the agent of the target's site reports. -/
def setCredentialMemberCondition (desired : SitePlan) : Option Condition :=
  match desired.credentialRotation with
  | none => none
  | some rotation =>
    if rotation.phase ≠ .member ∨
        memberBelongsToSite rotation.targetMember desired.site.name = false then none
    else some {
      type := "CredentialMembersUpdated", status := .true, reason := "MemberReloaded"
      message := toString rotation.version ++ ":" ++ Text.join ","
        (compact (Text.sortText (rotation.updatedMembers ++ [rotation.targetMember]))) }

/-! ## One report -/

section Report

variable {p : SitePlan} {c : Condition} {rotation : CredentialRotationPlan}

theorem setCredentialMemberCondition_some (h : setCredentialMemberCondition p = some c) :
    ∃ rotation, p.credentialRotation = some rotation ∧ rotation.phase = .member ∧
      memberBelongsToSite rotation.targetMember p.site.name = true ∧
      c.message = toString rotation.version ++ ":" ++ Text.join ","
        (compact (Text.sortText (rotation.updatedMembers ++ [rotation.targetMember]))) := by
  unfold setCredentialMemberCondition at h
  split at h
  · cases h
  · rename_i rotation hrotation
    split at h
    · cases h
    · rename_i htarget
      obtain ⟨hphase, hsite⟩ := not_or.mp htarget
      cases h
      exact ⟨rotation, hrotation, not_not.mp hphase, by simpa using hsite, rfl⟩

theorem mem_of_report {message : String}
    (hmessage : message = toString rotation.version ++ ":" ++ Text.join "," (compact (Text.sortText
      (rotation.updatedMembers ++ [rotation.targetMember]))))
    (hseparable : ∀ m ∈ rotation.updatedMembers ++ [rotation.targetMember], ',' ∉ m.toList)
    {version : Int} (htag : Text.hasPrefix message (toString version ++ ":") = true) {m : String}
    (hm : m ∈ splitMembers (Text.trimPrefix message (toString version ++ ":"))) :
    rotation.version = version ∧ m ∈ rotation.updatedMembers ++ [rotation.targetMember] := by
  have hcolon : ∀ n : Int, ':' ∉ (toString n).toList :=
    Text.not_mem_toString_int (by decide) (by decide)
  have hchars : ∀ (n : Int) (s : String),
      (toString n ++ ":" ++ s).toList = (toString n).toList ++ ':' :: s.toList := by
    intro n s
    rw [String.toList_append, String.toList_append, append_assoc]
    rfl
  obtain ⟨rest, hrest⟩ := Text.hasPrefix_iff.mp htag
  have htext : (toString version).toList ++ ':' :: rest = message.toList := by
    rw [← hrest, String.toList_append, append_assoc]
    rfl
  rw [hmessage, hchars] at htext
  obtain ⟨hversion, rfl⟩ := Text.separated_inj (hcolon _) (hcolon _) htext
  have hlist : Text.trimPrefix message (toString version ++ ":") = Text.join ","
      (compact (Text.sortText (rotation.updatedMembers ++ [rotation.targetMember]))) := by
    rw [Text.trimPrefix, if_pos htag, ← hrest, drop_left, String.ofList_toList]
  refine ⟨(Text.toString_int_inj (String.toList_inj.mp hversion)).symm, ?_⟩
  have hmembers : ∀ x, x ∈ compact (Text.sortText
      (rotation.updatedMembers ++ [rotation.targetMember])) ↔
        x ∈ rotation.updatedMembers ++ [rotation.targetMember] := fun x => by
    rw [mem_compact, Text.mem_sortText]
  have htarget := (hmembers rotation.targetMember).mpr (mem_append_right _ mem_cons_self)
  rw [hlist, mem_splitMembers] at hm
  have hsplit := Text.splitOnChar_join (ne_nil_of_mem htarget)
    fun x hx => hseparable x ((hmembers x).mp hx)
  exact (hmembers m).mp (hsplit ▸ hm.2)

end Report

/-! ## One plan -/

section Plan

variable {reads : HubReads} {i view : MultiSitePostgres} {rotation : CredentialRotationPlan}

theorem credentialRotationPlan_cases {operationPending : Bool}
    (h : credentialRotationPlan reads i operationPending = some rotation) :
    (activeSitePlan reads i).bind (·.credentialRotation) = some rotation ∨
      (∀ m ∈ rotation.updatedMembers, m ∈ credentialUpdatedMembers i rotation.version) ∧
      (rotation.phase = .revoke ∨ rotation.phase = .finalize →
        ∀ m ∈ credentialMemberOrder i, m ∈ credentialUpdatedMembers i rotation.version) ∧
      (rotation.phase = .finalize → previousCredentialsRevoked i rotation.version = true) := by
  unfold credentialRotationPlan at h
  extract_lets at h
  split at h
  · exact .inl h
  · right
    split at h
    · cases h
    · split at h
      · cases h
      · extract_lets at h
        split at h
        · cases h
        · split at h
          · cases h
            exact ⟨fun m hm => (not_mem_nil hm).elim, by simp, by simp⟩
          · split at h
            · cases h
              exact ⟨fun m hm => hm, by simp, by simp⟩
            · rename_i hnone
              cases h
              refine ⟨fun m hm => hm, fun _ m hm => ?_, fun hphase => ?_⟩
              · simpa using find?_eq_none.mp hnone m hm
              · by_contra hnot
                rw [if_neg hnot] at hphase
                cases hphase

theorem mem_credentialMemberOrder {site : PostgresSiteSpec} (hsite : site ∈ i.spec.sites)
    {m : String} (hm : m ∈ siteMembers "postgres" site site.components.postgresReplicas) :
    m ∈ credentialMemberOrder i := by
  have hkind : Text.hasPrefix m "postgres-" = true := by
    obtain ⟨ordinal, -, rfl⟩ := mem_map.mp hm
    rw [Text.hasPrefix_iff]
    simp only [String.toList_append, append_assoc]
    exact ⟨site.name.toList ++ ("-".toList ++ (toString ordinal).toList), rfl⟩
  have hexpected : m ∈ expectedAddressMembers i.spec.sites :=
    Text.mem_sortText.mpr (mem_flatMap.mpr ⟨site, hsite,
      mem_append_left _ (mem_append_right _ hm)⟩)
  unfold credentialMemberOrder
  rw [mem_append, mem_append]
  by_cases hstandby : m ∈ Text.sortText i.status.synchronousStandbys
  · exact .inl (.inl hstandby)
  · by_cases hprimary : m = i.status.primary
    · right
      rw [if_neg]
      · exact mem_singleton.mpr hprimary
      · rintro hempty
        rw [hprimary, hempty] at hkind
        cases hkind
    · left
      right
      rw [mem_compact, mem_filter]
      exact ⟨hexpected, by simp [hkind, hprimary, hstandby]⟩

theorem prepare_primary {prepared : MultiSitePostgres} {inputs : PlanInputs}
    (h : prepare reads i = .ok (prepared, inputs)) :
    prepared.status.primary = i.status.primary := by
  rw [prepare] at h
  dsimp only at h
  split at h
  · cases h
  · split at h
    · cases h
    · split at h
      · cases h
      · split at h
        · cases h
        · cases h
          unfold withConnections aggregateDeclarationAndUpgradeStatus
          dsimp only
          split <;> split <;> split <;> rfl

theorem rotation_of_mem {config : BackupConfig} {directives : List DirectiveMap}
    {fails : String → Bool} {now : Time} {p : SitePlan}
    (hp : p ∈ (reconcile config reads directives fails now view).plans) :
    p.site ∈ view.spec.sites ∧ ∀ rotation, p.credentialRotation = some rotation →
      ∃ i pending, i.spec = view.spec ∧ i.status.sites = view.status.sites ∧
        i.status.primary = view.status.primary ∧
        credentialRotationPlan reads i pending = some rotation := by
  cases reconcile_case config reads directives fails now view with
  | quiet plans _ _ =>
    rw [plans] at hp
    cases hp
  | issued prepared inputs n _ hprepare observed hinputs plans _ _ =>
    have hplanned := plannedFrom_of_mem observed (plans ▸ hp)
    refine ⟨hplanned.site, fun rotation hrotation => ?_⟩
    rw [hplanned.carries.credentialRotation] at hrotation
    exact ⟨prepared, _, spec_of_core observed.core, sites_of_core observed.core,
      prepare_primary hprepare, (planInputs_ok_iff.mp hinputs).2.2.symm.trans hrotation⟩
  | deletion _ revised _ plans _ _ =>
    rw [plans] at hp
    obtain ⟨site, hsite, registration, -, rfl, -⟩ := signedPlans_mem hp
    exact ⟨hsite, fun rotation hrotation => by cases hrotation⟩

end Plan

/-! ## Whole runs -/

namespace Chronicle

open HubState

/-- The agent of the site has reported that the member runs with the credentials of the
version, as the target of a plan that it got. -/
def Moved (w : Chronicle) (version : Int) (member site : String) : Prop :=
  ∃ p ∈ w.hub.written, p.site.name = site ∧
    (∃ r ∈ p.credentialRotation, r.phase = .member ∧ r.version = version ∧
      r.targetMember = member) ∧
    ∃ m, (p.site.siteRegistrationRef, m) ∈ w.messages ∧
      ∃ c ∈ setCredentialMemberCondition p, c ∈ m.conditions

/-- The agent of the registration has computed the condition for a plan that it got.  The
names of Pods have no commas. -/
def Computed (written : List SitePlan) (registration : String) (c : Condition) : Prop :=
  ∃ p ∈ written, p.site.siteRegistrationRef = registration ∧
    setCredentialMemberCondition p = some c ∧
    ∀ r ∈ p.credentialRotation, ',' ∉ r.targetMember.toList
deriving Decidable

/-- Edits keep the sites, and agents report the moved members as they compute them. -/
def faithful (w : Chronicle) : HubEvent → Prop
  | .message registration _ message => ∀ c ∈ message.conditions,
      c.type = "CredentialMembersUpdated" → Computed w.hub.written registration c
  | .edit spec => spec.sites.map (·.name) = w.hub.stored.spec.sites.map (·.name)
  | _ => True

instance (w : Chronicle) (e : HubEvent) : Decidable (faithful w e) := by
  cases_type HubEvent <;> unfold faithful <;> infer_instance

structure Founded (names : List String) (w : Chronicle) : Prop where
  sourced : Sourced w
  fixed : Throughout (fun i => i.spec.sites.map (·.name) = names) w.hub
  sites : ∀ p ∈ w.hub.written, p.site.name ∈ names
  kept : ∀ name p, w.hub.planMaps.get? name = some p → p ∈ w.hub.written
  computed : ∀ registration m, (registration, m) ∈ w.messages → ∀ c ∈ m.conditions,
    c.type = "CredentialMembersUpdated" → Computed w.hub.written registration c
  echoed : ∀ p ∈ w.hub.written, ∀ r ∈ p.credentialRotation, ∀ member ∈ r.updatedMembers,
    ',' ∉ member.toList ∧ ∃ site, Moved w r.version member site

variable {config : HubConfig} {w v : Chronicle} {e : HubEvent} {names : List String}

theorem Moved.mono {version : Int} {member site : String} (h : Moved w version member site)
    (hwritten : w.hub.written ⊆ v.hub.written) (hmessages : w.messages ⊆ v.messages) :
    Moved v version member site := by
  obtain ⟨p, hp, hsite, htarget, m, hm, hreport⟩ := h
  exact ⟨p, hwritten hp, hsite, htarget, m, hmessages hm, hreport⟩

theorem Founded.updated (h : Founded names w) {i : MultiSitePostgres}
    (hi : AllTold w.messages i.status.sites) {version : Int} {member : String}
    (hmember : member ∈ credentialUpdatedMembers i version) :
    ',' ∉ member.toList ∧ ∃ site, Moved w version member site := by
  unfold credentialUpdatedMembers at hmember
  rw [mem_compact, Text.mem_sortText] at hmember
  obtain ⟨x, hx, hmember⟩ := mem_flatMap.mp hmember
  split at hmember
  · rename_i c hc
    split at hmember
    · rename_i htag
      have htype : c.type = "CredentialMembersUpdated" := by simpa using find?_some hc
      obtain ⟨m, hm, generation, hreported⟩ := (hi x hx).conditions c
        (mem_of_find?_eq_some hc) (by rw [htype]; decide)
      obtain ⟨p, hp, hreg, hcond, hseparable⟩ :=
        h.computed _ m hm _ hreported htype
      obtain ⟨r, hr, hphase, -, hmessage⟩ := setCredentialMemberCondition_some hcond
      have hcommas : ∀ x ∈ r.updatedMembers ++ [r.targetMember], ',' ∉ x.toList := by
        intro x hx
        rcases mem_append.mp hx with hx | hx
        · exact (h.echoed p hp r hr x hx).1
        · exact mem_singleton.mp hx ▸ hseparable r hr
      obtain ⟨rfl, hlisted⟩ := mem_of_report hmessage hcommas htag.2 hmember
      refine ⟨hcommas member hlisted, ?_⟩
      rcases mem_append.mp hlisted with hold | hnew
      · exact (h.echoed p hp r hr member hold).2
      · exact ⟨p.site.name, p, hp, rfl, ⟨r, hr, hphase, rfl, (mem_singleton.mp hnew).symm⟩,
          m, hreg ▸ hm, _, hcond, hreported⟩
    · cases hmember
  · cases hmember

theorem Founded.issued (h : Founded names w) {view : MultiSitePostgres} {reads : HubReads}
    {fails : String → Bool} {now : Time} {writes : Nat}
    (hst : w.step config (.issue view reads fails now writes) = some v) {p : SitePlan}
    (hp : p ∈ v.hub.written) (hnot : p ∉ w.hub.written) :
    view ∈ w.hub.versions ∧ p.site ∈ view.spec.sites ∧ ∀ r, p.credentialRotation = some r →
      (∃ q ∈ w.hub.written, q.credentialRotation = some r) ∨
      ∃ i, i.spec = view.spec ∧ i.status.sites = view.status.sites ∧
        i.status.primary = view.status.primary ∧
        (∀ m ∈ r.updatedMembers, m ∈ credentialUpdatedMembers i r.version) ∧
        (r.phase = .revoke ∨ r.phase = .finalize →
          ∀ m ∈ credentialMemberOrder i, m ∈ credentialUpdatedMembers i r.version) ∧
        (r.phase = .finalize → previousCredentialsRevoked i r.version = true) := by
  have hstep := step_hub hst
  generalize v.hub = t at hstep hp
  cases step_case hstep with
  | issue hview _ =>
    rw [applyOutcome_written] at hp
    have hnew := mem_of_mem_take ((mem_writePlans hp).resolve_right hnot)
    obtain ⟨hsite, hrotation⟩ := rotation_of_mem hnew
    refine ⟨hview, hsite, fun r hr => ?_⟩
    obtain ⟨i, pending, hspec, hsites, hprimary, hplan⟩ := hrotation r hr
    refine (credentialRotationPlan_cases hplan).imp (fun hactive => ?_)
      fun hfresh => ⟨i, hspec, hsites, hprimary, hfresh⟩
    obtain ⟨q, hq, hcarried⟩ := Option.bind_eq_some_iff.mp hactive
    unfold activeSitePlan at hq
    split at hq
    · cases hq
    · exact ⟨q, h.kept _ q hq, hcarried⟩

theorem Founded.initial (h : Initial config w) :
    Founded (w.hub.stored.spec.sites.map (·.name)) w := by
  have hnone : ∀ p, p ∉ w.hub.written := fun p hp => by
    rw [h.1.written] at hp
    cases hp
  refine ⟨.initial h, ⟨rfl, fun i hi => ?_⟩, fun p hp => absurd hp (hnone p), fun name p hp => ?_,
    fun registration m hm => ?_, fun p hp => absurd hp (hnone p)⟩
  · rw [h.1.versions, mem_singleton] at hi
    rw [hi]
  · rw [h.1.planMaps] at hp
    cases hp
  · rw [h.2] at hm
    cases hm

theorem Founded.step (h : Founded names w) (hok : faithful w e)
    (hst : w.step config e = some v) : Founded names v := by
  have hmessages := messages_subset hst
  have hcase := step_case (step_hub hst)
  have hstored : v.hub.stored.spec.sites.map (·.name) = names := by
    by_cases hedit : ∃ spec, e = .edit spec
    · obtain ⟨spec, rfl⟩ := hedit
      generalize v.hub = t at hcase
      cases hcase with
      | edit => exact Eq.trans hok h.fixed.stored
    · rw [hcase.specSites fun spec he => hedit ⟨spec, he⟩]
      exact h.fixed.stored
  have hwritten : w.hub.written ⊆ v.hub.written := by
    rcases hcase.written with hsame | ⟨hsub, -⟩
    · exact fun p hp => hsame ▸ hp
    · exact hsub
  have hnew : ∀ p ∈ v.hub.written, p ∈ w.hub.written ∨ p.site.name ∈ names ∧
      ∀ r ∈ p.credentialRotation, (∃ q ∈ w.hub.written, r ∈ q.credentialRotation) ∨
        ∀ member ∈ r.updatedMembers,
          ',' ∉ member.toList ∧ ∃ site, Moved w r.version member site := by
    intro p hp
    rcases hcase.written with hsame | ⟨-, view, reads, fails, now, writes, rfl⟩
    · exact .inl (hsame ▸ hp)
    · refine or_iff_not_imp_left.mpr fun hnot => ?_
      obtain ⟨hview, hsite, hrotation⟩ := h.issued hst hp hnot
      refine ⟨h.fixed.versions view hview ▸ mem_map_of_mem hsite, fun r hr => ?_⟩
      refine (hrotation r hr).imp id ?_
      rintro ⟨i, -, hsites, -, hupdated, -⟩ member hmember
      exact h.updated (hsites ▸ h.sourced.throughout.versions view hview) (hupdated member hmember)
  have hechoed : ∀ p ∈ w.hub.written, ∀ r ∈ p.credentialRotation, ∀ member ∈ r.updatedMembers,
      ',' ∉ member.toList ∧ ∃ site, Moved v r.version member site := by
    intro p hp r hr member hmember
    obtain ⟨hcomma, site, hmoved⟩ := h.echoed p hp r hr member hmember
    exact ⟨hcomma, site, hmoved.mono hwritten hmessages⟩
  refine ⟨h.sourced.step hst, hcase.throughout h.fixed hstored, fun p hp => ?_,
    planMaps_kept h.kept (step_hub hst), fun registration m hm c hc htype => ?_,
    fun p hp r hr member hmember => ?_⟩
  · exact (hnew p hp).elim (h.sites p) And.left
  · have hcomputed : Computed w.hub.written registration c := by
      rw [step_messages hst] at hm
      cases e with
      | message =>
        rcases mem_cons.mp hm with heq | hold
        · cases heq
          exact hok c hc htype
        · exact h.computed registration m hold c hc htype
      | _ => exact h.computed registration m hm c hc htype
    obtain ⟨p, hp, hreport⟩ := hcomputed
    exact ⟨p, hwritten hp, hreport⟩
  · rcases hnew p hp with hold | ⟨-, hrotation⟩
    · exact hechoed p hold r hr member hmember
    · rcases hrotation r hr with ⟨q, hq, hrq⟩ | hupdated
      · exact hechoed q hq r hrq member hmember
      · obtain ⟨hcomma, site, hmoved⟩ := hupdated member hmember
        exact ⟨hcomma, site, hmoved.mono hwritten hmessages⟩

def Revoked (w : Chronicle) (site : String) (version : Int) : Prop :=
  ∃ m, (site, m) ∈ w.messages ∧ ∃ c ∈ m.conditions, c.type = "PreviousCredentialsRevoked" ∧
    c.status = .true ∧ c.message = toString version

theorem Founded.revoked (h : Founded names w) {view i : MultiSitePostgres}
    (hview : view ∈ w.hub.versions) (hsites : i.status.sites = view.status.sites)
    (hprimary : i.status.primary = view.status.primary) {version : Int}
    (hrevoked : previousCredentialsRevoked i version = true) :
    ∃ entry ∈ primarySite? view, Revoked w entry.name version := by
  have hsame : primarySite? i = primarySite? view := by
    unfold primarySite?
    rw [hsites, hprimary]
  unfold previousCredentialsRevoked primaryReports at hrevoked
  rw [hsame] at hrevoked
  split at hrevoked
  · rename_i entry hentry
    split at hrevoked
    · rename_i c hc
      obtain ⟨hstatus, hmessage⟩ := of_decide_eq_true hrevoked
      have htype : c.type = "PreviousCredentialsRevoked" := by simpa using find?_some hc
      obtain ⟨m, hm, generation, hreported⟩ :=
        (h.sourced.throughout.versions view hview entry (mem_of_find?_eq_some hentry)).conditions
          c (mem_of_find?_eq_some hc) (by rw [htype]; decide)
      exact ⟨entry, hentry, m, hm, _, hreported, htype, hstatus, hmessage⟩
    · cases hrevoked
  · cases hrevoked

/-- In every run with fixed sites whose names are apart: when the first plan with a rotation
that revokes or finalizes is written, every member of the specification it was made from has
moved, as its own site reports, and before the rotation is finalized the site of the primary
has revoked the previous credentials. -/
theorem revokes_after_moves {view : MultiSitePostgres} {reads : HubReads}
    {fails : String → Bool} {now : Time} {writes : Nat} {p : SitePlan}
    {r : CredentialRotationPlan}
    (hs : Machine.Reach (step config) (Initial config) faithful w)
    (hapart : ∀ site ∈ view.spec.sites, ∀ other ∈ view.spec.sites,
      Text.hasPrefix site.name (other.name ++ "-") = false)
    (hst : w.step config (.issue view reads fails now writes) = some v)
    (hp : p ∈ v.hub.written) (hr : p.credentialRotation = some r)
    (hfirst : ∀ q ∈ w.hub.written, q.credentialRotation ≠ some r)
    (hphase : r.phase = .revoke ∨ r.phase = .finalize) :
    (∀ site ∈ view.spec.sites,
      ∀ member ∈ siteMembers "postgres" site site.components.postgresReplicas,
        Moved w r.version member site.name) ∧
      (r.phase = .finalize → ∃ entry ∈ primarySite? view, Revoked w entry.name r.version) := by
  obtain ⟨names, h⟩ := hs.invariant (I := fun w => ∃ names, Founded names w)
    (fun _ hinit => ⟨_, .initial hinit⟩) fun _ _ _ ⟨names, hw⟩ hok hst => ⟨names, hw.step hok hst⟩
  have hnot : p ∉ w.hub.written := fun hold => hfirst p hold hr
  obtain ⟨hview, -, hrotation⟩ := h.issued hst hp hnot
  rcases hrotation r hr with ⟨q, hq, hold⟩ | ⟨i, hspec, hsites, hprimary, -, hmoved, hrevoked⟩
  · exact absurd hold (hfirst q hq)
  · refine ⟨fun site hsite member hmember => ?_, fun hfinal =>
      h.revoked hview hsites hprimary (hrevoked hfinal)⟩
    have horder := mem_credentialMemberOrder (hspec ▸ hsite) hmember
    have htold := hsites ▸ h.sourced.throughout.versions view hview
    obtain ⟨-, own, q, hq, rfl, htarget, m, hm, c, hc, hreported⟩ :=
      h.updated htold (hmoved hphase member horder)
    refine ⟨q, hq, ?_, htarget, m, hm, c, hc, hreported⟩
    obtain ⟨r', hr', -, -, htarget'⟩ := htarget
    obtain ⟨r'', hr'', -, hbelongs, -⟩ := setCredentialMemberCondition_some hc
    obtain rfl := Option.some.inj (hr''.symm.trans hr')
    rw [htarget', memberBelongsToSite_eq, carriesSite_iff hmember] at hbelongs
    refine hbelongs.resolve_right fun hextends => ?_
    have hname := h.sites q hq
    rw [← h.fixed.versions view hview] at hname
    obtain ⟨other, hother, hothername⟩ := mem_map.mp hname
    rw [← hothername, hapart site hsite other hother] at hextends
    cases hextends

/-! ## A rotation of `solo` -/

open Sample

/-- A data site reports the topology, and that it holds version 2 of the credentials and
still runs with version 1. -/
def stagedFrom (site : String) (s : HubState) : HubEvent :=
  .message site 0 (.progress {
    instanceUID := s.stored.uid
    revision := s.stored.status.activeRevision
    phase := "Applying"
    conditions := [Sample.reported "PostgresCredentialsActive" "1",
      Sample.reported "CredentialRotationPending" "2"]
    primary := some vic0
    synchronousStandbys := [nsw0] })

/-- A site applies its plan and reports what it has done for the rotation. -/
def rotatedAt (site : String) : List (HubState → HubEvent) :=
  [applyAt site, fun s =>
    let plan := s.planMaps.get? site
    .message site 0 (.result {
      instanceUID := s.stored.uid
      appliedRevision := s.stored.status.activeRevision
      conditions := (plan.bind setCredentialMemberCondition).toList ++
        if (plan.bind (·.credentialRotation)).any (·.phase = .catalog) then
          [Sample.reported "CredentialCatalogUpdated" "2"] else [] })]

def rotated : List (HubState → HubEvent) :=
  rotatedAt "production-vic" ++ rotatedAt "production-nsw" ++ rotatedAt "production-qld"

def bothRotated : Chronicle :=
  Machine.reached (step Sample.hub) faithful { hub := Sample.created solo }
    ((reconciledWith ++ [stagedFrom "production-vic", stagedFrom "production-nsw"] ++
      (List.replicate 3 (rotated ++ reconciledWith)).flatten ++ rotated).map
        fun event w => event w.hub)

/-- The next reconcile plans to revoke the previous credentials. -/
def RevokesNext (w : Chronicle) : Prop :=
  (∀ site ∈ w.hub.stored.spec.sites, ∀ other ∈ w.hub.stored.spec.sites,
    Text.hasPrefix site.name (other.name ++ "-") = false) ∧
  w.hub.stored.spec.sites = solo.spec.sites ∧
  ∃ v ∈ w.step Sample.hub (reconcileWith Sample.reads w.hub), ∃ p ∈ v.hub.written,
    ∃ r ∈ p.credentialRotation, (∀ q ∈ w.hub.written, q.credentialRotation ≠ some r) ∧
      r.version = 2 ∧ r.phase = .revoke
deriving Decidable

theorem bothRotated_reach :
    Machine.Reach (step Sample.hub) (Initial Sample.hub) faithful bothRotated ∧
      RevokesNext bothRotated :=
  Machine.played (P := RevokesNext) ⟨solo_initial, rfl⟩ (by decide +kernel)

theorem solo_revokes_after_moves : RevokesNext bothRotated ∧
    Moved bothRotated 2 vic0 "production-vic" ∧
    Moved bothRotated 2 nsw0 "production-nsw" := by
  obtain ⟨hs, hnext⟩ := bothRotated_reach
  obtain ⟨hapart, hsites, v, hst, p, hp, r, hr, hfirst, hversion, hphase⟩ := hnext
  have hmoved := (revokes_after_moves hs hapart hst hp hr hfirst (.inl hphase)).1
  rw [hversion, hsites] at hmoved
  refine ⟨bothRotated_reach.2, hmoved _ mem_cons_self _ ?_,
    hmoved _ (mem_cons_of_mem _ mem_cons_self) _ ?_⟩ <;> decide

end Chronicle

end Mspsql
