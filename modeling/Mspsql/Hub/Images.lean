import Mspsql.Agent.Render
import Mspsql.Hub.Rollout
import Mspsql.Hub.Settling

/-!
# The images of a rollout

Which image a member runs depends on the phase, the target member, the list of upgraded
members and the specification, which change in different steps.  As long as every step of
the upgrade controller is planned before the next one, consecutive plans differ in the image
of one member at most.
-/

namespace Mspsql

open List

variable {i : MultiSitePostgres} {s t : HubState} {u : PostgresUpgrade} {name : String}
  {e : HubEvent} {config : HubConfig} {reads : HubReads}

variable {targets : String → String}

/-- The image a member runs when the owner's plan is made from the instance; `targets` are the
target images of the upgrades. -/
def memberImage (targets : String → String) (i : MultiSitePostgres) (member : String) : String :=
  match i.annotations.upgradePhase with
  | .minor _ =>
    if i.annotations.upgradeUID ≠ "" ∧ member ∈ upgradedMembersWithTarget i then
      targets i.annotations.upgradeUID
    else i.spec.postgres.image
  | _ => i.spec.postgres.image

def inMajorUpgrade (i : MultiSitePostgres) : Prop :=
  i.annotations.upgradeUID ≠ "" ∧ ∃ phase, i.annotations.upgradePhase = .major phase

theorem memberImage_of_free (h : i.annotations.upgradeUID = "") (member : String) :
    memberImage targets i member = i.spec.postgres.image := by
  unfold memberImage
  split
  · rw [if_neg fun hne => hne.1 h]
  · rfl

theorem memberImage_of_minor {phase : UpgradePhase}
    (hphase : i.annotations.upgradePhase = .minor phase) (huid : i.annotations.upgradeUID ≠ "")
    (member : String) :
    memberImage targets i member =
      if member ∈ upgradedMembersWithTarget i then targets i.annotations.upgradeUID
      else i.spec.postgres.image := by
  unfold memberImage
  rw [hphase]
  by_cases hmem : member ∈ upgradedMembersWithTarget i
  · rw [if_pos ⟨huid, hmem⟩, if_pos hmem]
  · rw [if_neg fun h => hmem h.2, if_neg hmem]

theorem memberImage_of_major {phase : MajorUpgradePhase}
    (hphase : i.annotations.upgradePhase = .major phase) (member : String) :
    memberImage targets i member = i.spec.postgres.image := by
  unfold memberImage
  rw [hphase]

structure SameImages (i j : MultiSitePostgres) : Prop where
  uid : i.annotations.upgradeUID = j.annotations.upgradeUID
  phase : i.annotations.upgradePhase = j.annotations.upgradePhase
  member : i.annotations.upgradeMember = j.annotations.upgradeMember
  upgraded : i.annotations.upgradedMembers = j.annotations.upgradedMembers
  image : i.spec.postgres.image = j.spec.postgres.image

namespace SameImages

variable {i j k : MultiSitePostgres}

theorem refl (i : MultiSitePostgres) : SameImages i i := ⟨rfl, rfl, rfl, rfl, rfl⟩

theorem trans (h : SameImages i j) (h' : SameImages j k) : SameImages i k :=
  ⟨h.uid.trans h'.uid, h.phase.trans h'.phase, h.member.trans h'.member,
    h.upgraded.trans h'.upgraded, h.image.trans h'.image⟩

theorem of_upgradePart (hpart : i.annotations.upgradePart = j.annotations.upgradePart)
    (hspec : i.spec = j.spec) : SameImages i j :=
  have hsame := sameUpgrade hpart
  ⟨hsame.uid, hsame.phase, hsame.member, hsame.upgraded, by rw [hspec]⟩

theorem memberImage (h : SameImages i j) (targets : String → String) (member : String) :
    Mspsql.memberImage targets i member = Mspsql.memberImage targets j member := by
  unfold Mspsql.memberImage upgradedMembersWithTarget
  rw [h.uid, h.phase, h.member, h.upgraded, h.image]

theorem inMajorUpgrade (h : SameImages i j) :
    Mspsql.inMajorUpgrade i ↔ Mspsql.inMajorUpgrade j := by
  unfold Mspsql.inMajorUpgrade
  rw [h.uid, h.phase]

end SameImages

theorem memberImage_congr {targets' : String → String}
    (h : i.annotations.upgradeUID ≠ "" →
      targets i.annotations.upgradeUID = targets' i.annotations.upgradeUID) (member : String) :
    memberImage targets i member = memberImage targets' i member := by
  by_cases hfree : i.annotations.upgradeUID = ""
  · rw [memberImage_of_free hfree, memberImage_of_free hfree]
  · unfold memberImage
    rw [h hfree]

/-! ## One step of the owner -/

namespace HubState

structure ImagesSettled (targets : String → String) (s : HubState) : Prop where
  known : ∀ u ∈ s.upgrades, targets u.uid = u.spec.targetImage
  unforced : ∀ u ∈ s.upgrades, u.deleting = true → u.forceAbandon = false
  /-- The member switched over to is recorded as upgraded. -/
  switching : s.stored.annotations.upgradeUID ≠ "" →
    s.stored.annotations.upgradePhase = .minor .switchover →
      s.stored.annotations.upgradeMember ∈ splitMembers s.stored.annotations.upgradedMembers
  /-- In the final phase the specification has the target image. -/
  final : s.stored.annotations.upgradeUID ≠ "" →
    s.stored.annotations.upgradePhase = .minor .finalize →
      s.stored.spec.postgres.image = targets s.stored.annotations.upgradeUID

theorem patched_image {base modified : MultiSitePostgres}
    (hstored : i = patchInstance base modified base) :
    i.spec.postgres.image = modified.spec.postgres.image := by
  rw [hstored]
  exact patchField_self _ _

/-- At most one member runs another image. -/
def MovesOne (targets : String → String) (sites : List PostgresSiteSpec)
    (i j : MultiSitePostgres) : Prop :=
  ∃ moved, ∀ m ∈ postgresMembers sites,
    memberImage targets i m ≠ memberImage targets j m → m = moved

variable {among : List PostgresSiteSpec}

theorem MovesOne.of_eq {i j : MultiSitePostgres}
    (h : ∀ m, memberImage targets i m = memberImage targets j m) : MovesOne targets among i j :=
  ⟨"", fun m _ hne => absurd (h m) hne⟩

/-- In a last phase every member runs the image of the specification. -/
theorem movesOne_of_cleared (hsettled : Settled s) (himages : ImagesSettled targets s)
    (hheld : s.stored.annotations.upgradeUID ≠ "")
    (hlast : s.stored.annotations.upgradePhase.last = true)
    (hstored : i = patchInstance s.stored (clearUpgradeAnnotations s.stored) s.stored) :
    inMajorUpgrade s.stored ∨ MovesOne targets among s.stored i := by
  rcases hsettled.phases hheld with hmajor | ⟨phase, hphase⟩
  · exact .inl ⟨hheld, hmajor⟩
  have hfinal : s.stored.annotations.upgradePhase = .minor .finalize := by
    rw [hphase] at hlast ⊢
    cases phase <;> first | rfl | cases hlast
  refine .inr (.of_eq fun m => ?_)
  rw [memberImage_of_free (patched hstored rfl).uid, memberImage_of_minor hfinal hheld,
    patched_image hstored, ← himages.final hheld hfinal, ite_self]
  rfl

/-- The owner goes on within the rollout: only members that enter the list change. -/
theorem movesOne_of_rolled {j : MultiSitePostgres} {before after : UpgradePhase} (moved : String)
    (hheld : i.annotations.upgradeUID ≠ "") (hbefore : i.annotations.upgradePhase = .minor before)
    (huid : j.annotations.upgradeUID = i.annotations.upgradeUID)
    (hafter : j.annotations.upgradePhase = .minor after)
    (himage : j.spec.postgres.image = i.spec.postgres.image)
    (hlist : ∀ m, m ∈ upgradedMembersWithTarget j ↔ m ∈ upgradedMembersWithTarget i ∨ m = moved) :
    MovesOne targets among i j := by
  refine ⟨moved, fun m _ hne => ?_⟩
  by_contra hother
  have hmem : m ∈ upgradedMembersWithTarget j ↔ m ∈ upgradedMembersWithTarget i :=
    (hlist m).trans ⟨fun h => h.resolve_right hother, .inl⟩
  refine hne ?_
  rw [memberImage_of_minor hbefore hheld, memberImage_of_minor hafter (huid ▸ hheld), himage, huid]
  simp only [hmem]

theorem one_of_moved (hmoved : Moved u s.stored name s t) (howned : Owned s) (hrolls : RollsOut s)
    (hsettled : Settled s) (himages : ImagesSettled targets s) (hu : u ∈ s.upgrades) :
    inMajorUpgrade s.stored ∨ MovesOne targets s.stored.spec.sites s.stored t.stored := by
  have hheld : s.stored.annotations.upgradeUID = u.uid → s.stored.annotations.upgradeUID ≠ "" :=
    fun howner => howner ▸ howned.uid_ne hu
  cases hmoved with
  | none stored => exact .inr (.of_eq fun m => by rw [stored])
  | finish _ owned last _ stored =>
    exact movesOne_of_cleared hsettled himages (hheld owned) last stored
  | @move kind modified hmove stored =>
    have himage := patched_image stored
    obtain ⟨huid, -, hphase, hmember, hupgraded⟩ := patched stored rfl
    have hmajor : ∀ {phase}, s.stored.annotations.upgradeUID = u.uid →
        s.stored.annotations.upgradePhase = .major phase → inMajorUpgrade s.stored :=
      fun howner hrecorded => ⟨hheld howner, _, hrecorded⟩
    have htarget : ∀ {phase}, s.stored.annotations.upgradeUID = u.uid →
        s.stored.annotations.upgradePhase = .minor phase →
        ∀ m, m ∈ splitMembers (Text.join "," (upgradedMembersWithTarget s.stored)) ↔
          m ∈ upgradedMembersWithTarget s.stored := by
      intro phase howner hrecorded m
      obtain ⟨hseparable, hne⟩ := hrolls.separable phase (hheld howner) hrecorded
      exact mem_splitMembers_upgradedMembersWithTarget hseparable hne
    cases hmove with
    | claimMajor _ free =>
      refine .inr (.of_eq fun m => ?_)
      rw [memberImage_of_free free, memberImage_of_major hphase, himage]
      rfl
    | advance _ owned recorded | finalizeMajor _ owned recorded | rollBack owned recorded =>
      exact .inl (hmajor owned recorded)
    | release owned terminal =>
      exact movesOne_of_cleared hsettled himages (hheld owned) (hsettled.last u hu terminal owned)
        stored
    | abandon owned deleting allowed =>
      rcases allowed with hforce | hpreflight
      · rw [himages.unforced u hu deleting] at hforce
        cases hforce
      · exact .inl (hmajor owned hpreflight)
    | claimMinor _ free =>
      refine .inr ⟨selectUpgradeCandidate s.stored [], fun m _ hne => ?_⟩
      by_contra hother
      refine hne ?_
      rw [memberImage_of_free free, memberImage_of_minor hphase (huid ▸ howned.uid_ne hu), himage,
        if_neg]
      · rfl
      rw [mem_upgradedMembersWithTarget, hmember, hupgraded, mem_splitMembers]
      rintro (⟨hne, -⟩ | hsame)
      · exact hne rfl
      · exact hother hsame
    | switching _ owned recorded =>
      refine .inr (movesOne_of_rolled s.stored.annotations.upgradeMember (hheld owned) recorded huid
        hphase himage fun m => ?_)
      rw [mem_upgradedMembersWithTarget, hmember, hupgraded]
      exact or_congr (htarget owned recorded m) Iff.rfl
    | nextMember _ owned recorded =>
      refine .inr (movesOne_of_rolled
        (selectUpgradeCandidate s.stored (upgradedMembersWithTarget s.stored)) (hheld owned)
        recorded huid (hphase.trans recorded) himage fun m => ?_)
      rw [mem_upgradedMembersWithTarget, hmember, hupgraded]
      exact or_congr (htarget owned recorded m) Iff.rfl
    | switchedOver _ owned recorded =>
      refine .inr (movesOne_of_rolled
        (selectUpgradeCandidate s.stored (splitMembers s.stored.annotations.upgradedMembers))
        (hheld owned) recorded huid hphase himage fun m => ?_)
      have hlisted := himages.switching (hheld owned) recorded
      rw [mem_upgradedMembersWithTarget, hmember, hupgraded, mem_upgradedMembersWithTarget]
      refine or_congr ⟨.inl, fun h => h.elim id fun h => ?_⟩ Iff.rfl
      rw [h]
      exact hlisted
    | finalizeMinor _ owned recorded _ _ noneLeft =>
      refine .inr ⟨s.stored.status.primary, fun m hm hne => ?_⟩
      by_contra hother
      have hin : s.stored.annotations.upgradeMember ∈ upgradedMembersWithTarget s.stored :=
        mem_upgradedMembersWithTarget.mpr (.inr rfl)
      have hmem := (upgraded_of_no_candidate noneLeft (ne_nil_of_mem hin) hm).resolve_left hother
      refine hne ?_
      have htlist : m ∈ upgradedMembersWithTarget t.stored := by
        rw [mem_upgradedMembersWithTarget, hmember, hupgraded]
        exact mem_upgradedMembersWithTarget.mp hmem
      rw [memberImage_of_minor recorded (hheld owned), if_pos hmem,
        memberImage_of_minor hphase (huid ▸ hheld owned), if_pos htlist, huid]
      rfl

/-! ## Every step -/

/-- The specification is left alone and nobody force-abandons. -/
def gentle : HubEvent → Prop
  | .edit _ => False
  | .deleteUpgrade _ force => force = false
  | _ => True

instance : Decidable (gentle e) := by
  unfold gentle
  cases_type HubEvent <;> infer_instance

theorem gentle.not_edit (h : gentle e) : ∀ spec, e ≠ .edit spec := by
  rintro spec rfl
  exact h

namespace ImagesSettled

variable {targets : String → String} {s t : HubState}

/-- What `ImagesSettled` says of the upgrades. -/
def Requests (targets : String → String) (s : HubState) : Prop :=
  ∀ u ∈ s.upgrades, targets u.uid = u.spec.targetImage ∧
    (u.deleting = true → u.forceAbandon = false)

theorem requests (h : ImagesSettled targets s) (hok : gentle e) (hcase : StepCase config s e t)
    (he : ∀ u, e ≠ .createUpgrade u) : Requests targets t := by
  intro u hu
  cases hcase.origin hu with
  | same mem | marked mem => exact ⟨(h.known _ mem :), (h.unforced _ mem :)⟩
  | written _ mem request =>
    obtain ⟨huid, -, hspec, hdel, hforce⟩ := request
    rw [huid, hspec, hdel, hforce]
    exact ⟨h.known _ mem, h.unforced _ mem⟩
  | created => exact absurd rfl (he u)
  | deleted mem => exact ⟨(h.known _ mem :), fun _ => hok⟩

theorem frame (h : ImagesSettled targets s) (hrequests : Requests targets t)
    (hpart : t.stored.annotations.upgradePart = s.stored.annotations.upgradePart)
    (hspec : t.stored.spec = s.stored.spec) : ImagesSettled targets t := by
  obtain ⟨huid, -, hphase, hmember, hupgraded⟩ := sameUpgrade hpart
  refine ⟨fun u hu => (hrequests u hu).1, fun u hu => (hrequests u hu).2, ?_, ?_⟩
  · rw [huid, hphase, hmember, hupgraded]
    exact h.switching
  · rw [huid, hphase, hspec]
    exact h.final

theorem of_moved (h : ImagesSettled targets s) (hrolls : RollsOut s) (hu : u ∈ s.upgrades)
    (hheld : u.uid ≠ "") (hrequests : Requests targets t) (hmoved : Moved u s.stored name s t) :
    ImagesSettled targets t := by
  have hother : t.stored.annotations.upgradePhase ≠ .minor .switchover →
      t.stored.annotations.upgradePhase ≠ .minor .finalize → ImagesSettled targets t :=
    fun hswitch hfinal => ⟨fun u hu => (hrequests u hu).1, fun u hu => (hrequests u hu).2,
      fun _ hphase => absurd hphase hswitch, fun _ hphase => absurd hphase hfinal⟩
  cases hmoved with
  | none stored => exact h.frame hrequests (by rw [stored]) (by rw [stored])
  | finish _ _ _ _ stored =>
    have hphase := (patched stored rfl).phase
    exact hother (hphase ▸ nofun) (hphase ▸ nofun)
  | @move kind modified hmove stored =>
    obtain ⟨huid, -, hphase, hmember, hupgraded⟩ := patched stored rfl
    cases hmove with
    | switching _ owned recorded =>
      refine ⟨fun u hu => (hrequests u hu).1, fun u hu => (hrequests u hu).2, fun _ _ => ?_,
        fun _ hfinal => by cases hphase.symm.trans hfinal⟩
      obtain ⟨hseparable, hne⟩ := hrolls.separable _ (owned ▸ hheld) recorded
      rw [hmember, hupgraded]
      exact (mem_splitMembers_upgradedMembersWithTarget hseparable hne).mpr
        (mem_upgradedMembersWithTarget.mpr (.inr rfl))
    | finalizeMinor _ owned =>
      refine ⟨fun u hu => (hrequests u hu).1, fun u hu => (hrequests u hu).2,
        fun _ hswitch => (by cases hphase.symm.trans hswitch), fun _ _ => ?_⟩
      rw [patched_image stored, huid]
      show u.spec.targetImage = targets s.stored.annotations.upgradeUID
      rw [owned, h.known u hu]
    | nextMember _ _ recorded =>
      refine hother (fun h => ?_) fun h => ?_
      · cases recorded.symm.trans (hphase.symm.trans h)
      · cases recorded.symm.trans (hphase.symm.trans h)
    | _ => exact hother (hphase ▸ nofun) (hphase ▸ nofun)

end ImagesSettled

/-- What is known of the recorded upgrade in a run of rollouts. -/
structure Rolled (targets : String → String) (s : HubState) : Prop where
  sequenced : Sequenced s
  owned : Owned s
  rollsOut : RollsOut s
  settled : Settled s
  images : ImagesSettled targets s
  sites : ∀ p ∈ s.written, p.site ∈ s.stored.spec.sites

theorem Rolled.step (h : Rolled targets s) (hgentle : gentle e) (hseq : sequential config s e)
    (hrolls : rollsOn s e) (hst : s.step config e = some t) :
    ∃ targets', Rolled targets' t ∧ (∀ uid ∈ s.upgradeUIDs, targets' uid = targets uid) ∧
      ((∀ u, e ≠ .createUpgrade u) → targets' = targets) := by
  have hcase := step_case hst
  have hview : ∀ name view reads now writes, e = .upgrade name view reads now writes →
      view = s.stored := by
    rintro name view reads now writes rfl
    exact hrolls.1
  have hinformed : informed s e := by
    cases e with
    | upgrade => exact congrArg (·.annotations.upgradePart) hrolls.1
    | _ => trivial
  have hsites := hcase.specSites hgentle.not_edit
  have hwritten := written_sites h.sites hseq hsites hcase
  suffices himages : ∃ targets', ImagesSettled targets' t ∧
      (∀ uid ∈ s.upgradeUIDs, targets' uid = targets uid) ∧
      ((∀ u, e ≠ .createUpgrade u) → targets' = targets) by
    obtain ⟨targets', himages, htargets⟩ := himages
    exact ⟨targets', ⟨h.sequenced.step hseq hst, h.owned.step hinformed hcase,
      h.rollsOut.step (fun u hu => h.owned.uid_ne hu) hrolls hcase,
      h.settled.step h.owned hview hcase, himages, hwritten⟩, htargets⟩
  have hrequests := h.images.requests hgentle hcase
  have hpart := hcase.upgradePart
  have hspec := fun he => (hcase.spec he).resolve_right (hgentle.not_edit _)
  cases hcase with
  | @upgrade name view reads now writes u hu =>
    obtain ⟨rfl, -⟩ := hrolls
    have hmem : u ∈ s.upgrades := mem_of_find?_eq_some hu
    exact ⟨targets, h.images.of_moved h.rollsOut hmem (h.owned.uid_ne hmem)
      (hrequests fun _ h => by cases h) upgrade_moved, fun _ _ => rfl,
      fun _ => rfl⟩
  | @createUpgrade u _ _ fresh _ deleting =>
    -- the target of a new upgrade is entered under its UID
    have hold : ∀ uid ∈ s.upgradeUIDs,
        Function.update targets u.uid u.spec.targetImage uid = targets uid := by
      intro uid hmem
      refine Function.update_of_ne ?_ ..
      rintro rfl
      exact fresh hmem
    refine ⟨Function.update targets u.uid u.spec.targetImage, ⟨?_, ?_, h.images.switching, ?_⟩,
      hold, fun he => absurd rfl (he u)⟩
    · intro v hv
      rcases mem_cons.mp hv with rfl | hv
      · exact Function.update_self ..
      · rw [hold _ (h.owned.known (v.name, v.uid) (mem_map_of_mem hv)).2.2]
        exact h.images.known v hv
    · intro v hv hdel
      rcases mem_cons.mp hv with rfl | hv
      · rw [deleting] at hdel
        cases hdel
      · exact h.images.unforced v hv hdel
    · intro huid hphase
      rcases h.owned.owners _ h.owned.stored_mem with hfree | ⟨hknown, -⟩
      · exact absurd hfree huid
      · exact (h.images.final huid hphase).trans (hold _ hknown).symm
  | _ =>
    exact ⟨targets, h.images.frame (hrequests fun _ h => by cases h)
      (hpart fun _ _ _ _ _ h => by cases h) (hspec fun _ _ _ _ _ h => by cases h),
      fun _ _ => rfl, fun _ => rfl⟩

/-! ## The images in a plan -/

def matched (s : HubState) : HubEvent → Prop
  | .issue .. => ∀ u ∈ s.upgrades, u.name = s.stored.annotations.upgradeName →
      u.uid = s.stored.annotations.upgradeUID
  | _ => True

instance (s : HubState) : Decidable (matched s e) := by
  unfold matched
  cases_type HubEvent <;> infer_instance

end HubState

def SitePlan.Ordinary (p : SitePlan) : Prop := p.majorUpgrade = none ∧ p.deletion = none
deriving Decidable

theorem SitePlan.mem_postgresMembers {p : SitePlan} {sites : List PostgresSiteSpec}
    (h : p.site ∈ sites) {m : String} (hm : m ∈ p.postgresMembers) :
    m ∈ Mspsql.postgresMembers sites := by
  rw [Mspsql.postgresMembers, Text.mem_sortText]
  exact mem_flatMap.mpr ⟨p.site, h, hm⟩

namespace HubState

/-- The members of an ordinary plan run the images of the instance it is made from. -/
theorem Rolled.plan_images {prepared : MultiSitePostgres} {inputs : PlanInputs} {n : Nat}
    {revision : Int} {p : SitePlan} (h : Rolled targets s) (hreads : reads.upgrades = s.upgrades)
    (hmatched : ∀ u ∈ s.upgrades, u.name = s.stored.annotations.upgradeName →
      u.uid = s.stored.annotations.upgradeUID) (hobs : Observed s.stored prepared)
    (hinputs : planInputs reads prepared n = .ok inputs)
    (hp : PlannedFrom reads s.stored revision inputs p) (hordinary : p.majorUpgrade = none) :
    ¬ inMajorUpgrade s.stored ∧
      ∀ m, p.postgresMemberImage m = memberImage targets s.stored m := by
  have hann := MultiSitePostgres.annotations_of_core hobs.core
  have himage : p.postgres.image = s.stored.spec.postgres.image :=
    congrArg (·.image) (hp.carries.spec rfl).postgres
  have hplans := (planInputs_ok hinputs).2
  rw [← hp.upgrade, ← hp.majorUpgrade, hordinary] at hplans
  unfold upgradePlans at hplans
  dsimp only at hplans
  rw [hann] at hplans
  unfold SitePlan.postgresMemberImage
  rw [hordinary]
  split at hplans
  · -- no upgrade is recorded
    rename_i hname
    have hfree : s.stored.annotations.upgradeUID = "" := by
      rcases h.owned.owners _ h.owned.stored_mem with hfree | ⟨-, hne⟩
      · exact hfree
      · exact absurd hname hne
    rw [← (Prod.mk.inj (Except.ok.inj hplans)).1]
    refine ⟨fun hmajor => hmajor.1 hfree, fun m => ?_⟩
    rw [memberImage_of_free hfree]
    exact himage
  · split at hplans
    · cases hplans
    rename_i u hu
    rw [HubReads.upgrade?, hreads] at hu
    have hmem : u ∈ s.upgrades := mem_of_find?_eq_some hu
    have huid : u.uid = s.stored.annotations.upgradeUID :=
      hmatched u hmem (by simpa using find?_some hu)
    have hheld : s.stored.annotations.upgradeUID ≠ "" := huid ▸ h.owned.uid_ne hmem
    split at hplans
    · split at hplans
      · cases hplans
      split at hplans
      · cases hplans
      · cases (Prod.mk.inj (Except.ok.inj hplans)).2
    · rename_i hphase
      rw [← (Prod.mk.inj (Except.ok.inj hplans)).1]
      refine ⟨?_, fun m => ?_⟩
      · rintro ⟨_, major, hmajor⟩
        cases hphase.symm.trans hmajor
      rw [memberImage_of_minor hphase hheld, ← huid, h.images.known u hmem, himage]
      refine if_congr ?_ rfl rfl
      rw [mem_upgradedMembersWithTarget, or_comm]
    · split at hplans <;> cases hplans
    · cases hplans

/-- Ordinary plans of a revision and of the next one differ in the image of one member at
most, over all sites. -/
def OneMoved (s : HubState) (r : Int) : Prop :=
  ∃ moved, ∀ p ∈ s.written, ∀ q ∈ s.written, p.revision = r → q.revision = r + 1 →
    p.Ordinary → q.Ordinary → ∀ m ∈ p.postgresMembers, m ∈ q.postgresMembers →
      p.postgresMemberImage m ≠ q.postgresMemberImage m → m = moved

/-- Members change their image one at a time. -/
def OneAtATime (s : HubState) : Prop := ∀ r, s.OneMoved r

/-- `last` is the instance the current plans are made from, and `stepped` tells whether the
upgrade controller has gone on since. -/
structure Planned (targets : String → String) (last : MultiSitePostgres) (s : HubState)
    (stepped : Bool) : Prop where
  rolled : Rolled targets s
  known : last.annotations.upgradeUID = "" ∨ last.annotations.upgradeUID ∈ s.upgradeUIDs
  stands : SpecStands last s.stored
  fingerprint : ∀ f, s.currentFingerprint = .sum f → f.generation = last.generation ∧
    f.upgradeUID = last.annotations.upgradeUID ∧
    f.upgradePhase = last.annotations.upgradePhase ∧
    f.upgradeMember = last.annotations.upgradeMember ∧
    f.upgradedMembers = last.annotations.upgradedMembers
  current : ∀ p ∈ s.written, p.revision = s.currentRevision → p.Ordinary →
    ¬ inMajorUpgrade last ∧ ∀ m, p.postgresMemberImage m = memberImage targets last m
  near : s.stored.deleting = false → inMajorUpgrade last ∨
    ∃ moved, ∀ m ∈ postgresMembers s.stored.spec.sites,
      memberImage targets last m ≠ memberImage targets s.stored m → m = moved
  clean : s.stored.deleting = false → stepped = false → SameImages last s.stored
  previous : inMajorUpgrade last ∨ ∃ moved, ∀ p ∈ s.written, p.revision + 1 = s.currentRevision →
    p.Ordinary → ∀ m ∈ p.postgresMembers,
      p.postgresMemberImage m ≠ memberImage targets last m → m = moved
  earlier : ∀ r, r + 1 < s.currentRevision → s.OneMoved r

namespace Planned

variable {targets targets' : String → String} {last : MultiSitePostgres} {s t : HubState}
  {stepped : Bool}

theorem initial (h : Initial config s) : Planned (fun _ => "") s.stored s stepped := by
  have hnone : ∀ p, p ∉ s.written := by
    rw [h.written]
    exact fun _ => not_mem_nil
  have himages : ImagesSettled (fun _ => "") s := by
    refine ⟨?_, ?_, fun huid => absurd h.upgradeUID huid, fun huid => absurd h.upgradeUID huid⟩
    · rw [h.upgrades]
      exact fun u hu => by cases hu
    · rw [h.upgrades]
      exact fun u hu => by cases hu
  refine ⟨⟨.initial h, .initial h, .initial h, .initial h, himages,
      fun p hp => absurd hp (hnone p)⟩,
    .inl h.upgradeUID, (PlansStand.refl _).toSpecStands, ?_, fun p hp => absurd hp (hnone p),
    fun _ => .inr ⟨"", fun m _ hne => absurd rfl hne⟩, fun _ _ => .refl _,
    .inr ⟨"", fun p hp => absurd hp (hnone p)⟩, fun r _ => ⟨"", fun p hp => absurd hp (hnone p)⟩⟩
  intro f hf
  rw [currentFingerprint_of_none h.pending, h.planFingerprint] at hf
  cases hf

theorem oneAtATime (h : Planned targets last s stepped) : OneAtATime s := by
  intro r
  rcases lt_trichotomy (r + 1) s.currentRevision with hlt | heq | hgt
  · exact h.earlier r hlt
  · -- the plans of the current revision all have the images of `last`
    rcases h.previous with hmajor | ⟨moved, hmoved⟩
    · refine ⟨"", fun p _ q hq _ hqr _ hordinary => ?_⟩
      exact absurd hmajor (h.current q hq (hqr.trans heq) hordinary).1
    refine ⟨moved, fun p hp q hq hpr hqr hpo hqo m hm _ hne => hmoved p hp (hpr ▸ heq) hpo m hm ?_⟩
    rw [← (h.current q hq (hqr.trans heq) hqo).2 m]
    exact hne
  · refine ⟨"", fun p _ q hq _ hqr => ?_⟩
    have hbound := h.rolled.sequenced.bounded q hq
    omega

section Frame

variable (h : Planned targets last s stepped) (hrolled : Rolled targets' t)
  (htargets : ∀ uid ∈ s.upgradeUIDs, targets' uid = targets uid)
  (huids : ∀ uid ∈ s.upgradeUIDs, uid ∈ t.upgradeUIDs) (hstands : SpecStands s.stored t.stored)
  (hwritten : ∀ p ∈ t.written, p ∈ s.written) (hrevision : t.currentRevision = s.currentRevision)
  (hfingerprint : t.currentFingerprint = s.currentFingerprint)

include h hrolled htargets huids hstands hwritten hrevision hfingerprint

theorem frame {stepped' : Bool}
    (hnear : t.stored.deleting = false → inMajorUpgrade last ∨
      MovesOne targets t.stored.spec.sites last t.stored)
    (hclean : t.stored.deleting = false → stepped' = false → SameImages last t.stored)
    (howner : t.stored.annotations.upgradeUID = "" ∨
      t.stored.annotations.upgradeUID ∈ s.upgradeUIDs) :
    Planned targets' last t stepped' := by
  have himages : ∀ i : MultiSitePostgres,
      i.annotations.upgradeUID = "" ∨ i.annotations.upgradeUID ∈ s.upgradeUIDs →
      ∀ m, memberImage targets' i m = memberImage targets i m := by
    intro i hi m
    exact memberImage_congr (fun hne => htargets _ (hi.resolve_left hne)) m
  have hlast := himages last h.known
  refine ⟨hrolled, h.known.imp id (huids _), h.stands.trans hstands, ?_, ?_, ?_, hclean, ?_, ?_⟩
  · rw [hfingerprint]
    exact h.fingerprint
  · intro p hp hcur hordinary
    obtain ⟨hminor, hp⟩ := h.current p (hwritten p hp) (hcur.trans hrevision) hordinary
    exact ⟨hminor, fun m => (hp m).trans (hlast m).symm⟩
  · intro hdel
    refine (hnear hdel).imp id fun ⟨moved, hmoved⟩ => ⟨moved, fun m hm hne => ?_⟩
    rw [hlast, himages _ howner] at hne
    exact hmoved m hm hne
  · refine h.previous.imp id fun ⟨moved, hmoved⟩ => ⟨moved, fun p hp hpr hordinary m hm hne => ?_⟩
    rw [hlast] at hne
    exact hmoved p (hwritten p hp) (hpr.trans hrevision) hordinary m hm hne
  · intro r hr
    rw [hrevision] at hr
    obtain ⟨moved, hmoved⟩ := h.earlier r hr
    exact ⟨moved, fun p hp q hq => hmoved p (hwritten p hp) q (hwritten q hq)⟩

theorem frame_same (hsame : SameImages s.stored t.stored)
    (hsites : t.stored.spec.sites = s.stored.spec.sites) : Planned targets' last t stepped := by
  refine frame h hrolled htargets huids hstands hwritten hrevision hfingerprint ?_ ?_ ?_
  · intro hdel
    refine (h.near (hstands.deleting hdel)).imp id fun ⟨moved, hmoved⟩ =>
      ⟨moved, fun m hm hne => hmoved m (hsites ▸ hm) ?_⟩
    rw [hsame.memberImage targets m]
    exact hne
  · exact fun hdel hstepped =>
      (h.clean (hstands.deleting hdel) hstepped).trans hsame
  · rw [← hsame.uid]
    exact (h.rolled.owned.owners _ h.rolled.owned.stored_mem).imp id And.left

end Frame

theorem upgrade (h : Planned targets last s stepped) (hrolled : Rolled targets t)
    (huids : t.upgradeUIDs = s.upgradeUIDs) (hstand : PlansStand s.stored t.stored)
    (hpend : t.pending = s.pending) (hwritten : t.written = s.written)
    (hsites : t.stored.spec.sites = s.stored.spec.sites) (hmoved : Moved u s.stored name s t)
    (hu : u ∈ s.upgrades) (hpaced : t.stored ≠ s.stored → stepped = false) :
    Planned targets last t (stepped || decide (t.stored ≠ s.stored)) := by
  obtain ⟨hrevision, hfingerprint⟩ := PlansStand.current hpend hstand
  by_cases hsame : t.stored = s.stored
  · rw [decide_eq_false (not_not.mpr hsame), Bool.or_false]
    exact h.frame_same hrolled (fun _ _ => rfl) (fun _ h => huids ▸ h) hstand.toSpecStands
      (fun p hp => hwritten ▸ hp) hrevision hfingerprint (hsame ▸ .refl _) hsites
  · rw [decide_eq_true hsame, Bool.or_true]
    have howner := (hrolled.owned.owners _ hrolled.owned.stored_mem).imp id And.left
    refine h.frame hrolled (fun _ _ => rfl) (fun _ h => huids ▸ h) hstand.toSpecStands
      (fun p hp => hwritten ▸ hp) hrevision hfingerprint (fun hdel => ?_)
      nofun (huids ▸ howner)
    have hclean := h.clean (hstand.deleting hdel) (hpaced hsame)
    rcases one_of_moved hmoved h.rolled.owned h.rolled.rollsOut h.rolled.settled h.rolled.images
      hu with hmajor | ⟨moved, hone⟩
    · exact .inl (hclean.inMajorUpgrade.mpr hmajor)
    refine .inr ⟨moved, fun m hm hne => hone m (hsites ▸ hm) ?_⟩
    rw [← hclean.memberImage targets m]
    exact hne

theorem sameImages (h : Planned targets last s stepped) (hnone : s.pending = none)
    {addresses : AddressPlan} {rotation : Option CredentialRotationPlan}
    (hf : s.stored.status.planFingerprint = .sum (planFingerprint s.stored addresses rotation)) :
    SameImages last s.stored := by
  obtain ⟨hgen, huid, hphase, hmember, hupgraded⟩ :=
    h.fingerprint _ ((currentFingerprint_of_none hnone).trans hf)
  exact ⟨huid.symm, hphase.symm, hmember.symm, hupgraded.symm, by rw [h.stands.spec hgen]⟩

theorem issue {stepped' : Bool} {now : Time} {o : Outcome} (h : Planned targets last s stepped)
    (hnone : s.pending = none) (hissue : IssueSpec s t reads now o)
    (hmatched : ∀ u ∈ s.upgrades, u.name = s.stored.annotations.upgradeName →
      u.uid = s.stored.annotations.upgradeUID) (hrolled : Rolled targets t)
    (hstepped : o.plans = [] → stepped' = stepped) :
    ∃ last, Planned targets last t stepped' := by
  have hseq := h.rolled.sequenced
  have hrecorded := currentRevision_of_none hnone
  obtain ⟨finalizer, hstored⟩ := hissue.stored
  have hsame : SameImages s.stored t.stored := hstored ▸ ⟨rfl, rfl, rfl, rfl, rfl⟩
  have hstands : SpecStands s.stored t.stored := hstored ▸ .of_status ..
  have hdel : t.stored.deleting = s.stored.deleting := by rw [hstored]
  -- plans below the new revision are old ones
  have hold : (∀ p ∈ o.plans, p.revision = t.currentRevision) →
      ∀ p ∈ t.written, p.revision < t.currentRevision → p ∈ s.written := by
    intro hnew p hp hlt
    exact (hissue.written p hp).resolve_left fun hplan => hlt.ne (hnew p hplan)
  have hearlier : (∀ p ∈ o.plans, p.revision = t.currentRevision) →
      ∀ r, r + 1 < t.currentRevision → t.OneMoved r := by
    intro hnew r hr
    obtain ⟨moved, hmoved⟩ := h.oneAtATime r
    exact ⟨moved, fun p hp q hq hpr hqr =>
      hmoved p (hold hnew p hp (by omega)) q (hold hnew q hq (by omega)) hpr hqr⟩
  cases hissue.plansCase hseq.nonneg with
  | quiet plans written pending =>
    obtain ⟨hrevision, hfingerprint⟩ := current_of_keepsPlans hnone hissue.stored pending
    rw [hstepped plans]
    exact ⟨last, h.frame_same hrolled (fun _ _ => rfl) (fun _ h => hissue.upgradeUIDs ▸ h) hstands
      written hrevision hfingerprint hsame (by rw [hstored])⟩
  | @issued _ inputs _ d deleting observed hinputs pending revision moves hf _ planned =>
    have hcur := currentRevision_of_some pending
    have howner : s.stored.annotations.upgradeUID = "" ∨
        s.stored.annotations.upgradeUID ∈ t.upgradeUIDs := by
      rw [hissue.upgradeUIDs]
      exact (h.rolled.owned.owners _ h.rolled.owned.stored_mem).imp id And.left
    have hplans : ∀ p ∈ o.plans, p.revision = t.currentRevision :=
      fun p hp => (planned p hp).revision.trans hcur.symm
    have hbelow : ∀ p ∈ t.written, p.revision + 1 = t.currentRevision → p ∈ s.written :=
      fun p hp hpr => hold hplans p hp (by omega)
    refine ⟨s.stored, hrolled, howner, hstands, ?_, ?_, fun _ => .inr ⟨"", fun m _ hne => ?_⟩,
      fun _ _ => hsame, ?_, hearlier hplans⟩
    · intro f hf'
      rw [currentFingerprint_of_some pending, hf, PlanFingerprint.sum.injEq] at hf'
      rw [← hf']
      exact ⟨rfl, rfl, rfl, rfl, rfl⟩
    · intro p hp hpr hordinary
      rw [hcur] at hpr
      rcases hissue.written p hp with hplan | hin
      · exact h.rolled.plan_images hissue.reads hmatched observed hinputs (planned p hplan)
          hordinary.1
      · obtain ⟨hkept, hold, -⟩ := hseq.reissued hnone deleting observed hin (hpr.trans revision)
        have himages := h.sameImages hnone hkept
        obtain ⟨hminor, hp⟩ := h.current p hin (hold.trans hrecorded.symm) hordinary
        exact ⟨fun hmajor => hminor (himages.inMajorUpgrade.mpr hmajor),
          fun m => (hp m).trans (himages.memberImage targets m)⟩
    · exact absurd (hsame.memberImage targets m) hne
    · by_cases hkept : s.stored.status.planFingerprint =
          .sum (planFingerprint s.stored inputs.addresses inputs.rotation)
      · rw [if_pos hkept] at moves
        have himages := h.sameImages hnone hkept
        refine h.previous.imp himages.inMajorUpgrade.mp fun ⟨moved, hmoved⟩ =>
          ⟨moved, fun p hp hpr hordinary m hm hne => ?_⟩
        rw [← himages.memberImage targets m] at hne
        exact hmoved p (hbelow p hp hpr) (by omega) hordinary m hm hne
      · rw [if_neg hkept] at moves
        have hlast : ∀ p ∈ t.written, p.revision + 1 = t.currentRevision → p.Ordinary →
            ¬ inMajorUpgrade last ∧ ∀ m, p.postgresMemberImage m = memberImage targets last m :=
          fun p hp hpr => h.current p (hbelow p hp hpr) (by omega)
        rcases h.near deleting with hmajor | ⟨moved, hmoved⟩
        · exact .inr ⟨"", fun p hp hpr hordinary =>
            absurd hmajor (hlast p hp hpr hordinary).1⟩
        · refine .inr ⟨moved, fun p hp hpr hordinary m hm hne => ?_⟩
          rw [(hlast p hp hpr hordinary).2 m] at hne
          exact hmoved m (SitePlan.mem_postgresMembers (h.rolled.sites p (hbelow p hp hpr)) hm) hne
  | deletion deleting pending moves fingerprint _ planned =>
    have hcur := currentRevision_of_some pending
    have hplans : ∀ p ∈ o.plans, p.revision = t.currentRevision ∧ p.deletion ≠ none := by
      intro p hp
      obtain ⟨registration, site, -, rfl⟩ := planned p hp
      exact ⟨hcur.symm, nofun⟩
    have hgone : t.stored.deleting ≠ false := by rw [hdel, deleting]; decide
    refine ⟨last, hrolled, h.known.imp id (hissue.upgradeUIDs ▸ ·), h.stands.trans hstands, ?_, ?_,
      fun hkept => absurd hkept hgone, fun hkept => absurd hkept hgone, .inr ⟨"", ?_⟩,
      hearlier fun p hp => (hplans p hp).1⟩
    · intro f hf
      rw [currentFingerprint_of_some pending, fingerprint] at hf
      cases hf
    · intro p hp hpr hordinary
      rcases hissue.written p hp with hplan | hin
      · exact absurd hordinary.2 (hplans p hplan).2
      · have hbound := hseq.bounded p hin
        omega
    · intro p hp hpr hordinary m _ hne
      have hin : p ∈ s.written := (hissue.written p hp).resolve_left fun hplan =>
        (hplans p hplan).2 hordinary.2
      exact absurd ((h.current p hin (by omega) hordinary).2 m) hne

end Planned

end HubState

/-! ## An upgrade controller that waits for plans -/

/-- The hub, and whether the upgrade controller has gone on since plans were issued. -/
structure Paced where
  hub : HubState
  stepped : Bool := false
deriving DecidableEq

namespace Paced

open HubState

def step (config : HubConfig) (w : Paced) (e : HubEvent) : Option Paced :=
  (w.hub.step config e).map fun t =>
    { hub := t
      stepped := match e with
        | .upgrade .. => w.stepped || decide (t.stored ≠ w.hub.stored)
        | .issue view reads fails now writes =>
          if (w.hub.outcome config view reads fails now).plans.take writes = [] then w.stepped
          else false
        | _ => w.stepped }

/-- The specification is changed by the upgrade controller only, nobody force-abandons, and
plans are issued between two steps of the upgrade controller. -/
def paced (config : HubConfig) (w : Paced) (e : HubEvent) : Prop :=
  gentle e ∧ match e with
    | .upgrade .. => ∀ t ∈ w.hub.step config e, t.stored ≠ w.hub.stored → w.stepped = false
    | _ => True

instance (config : HubConfig) (w : Paced) : Decidable (paced config w e) := by
  unfold paced
  cases_type HubEvent <;> infer_instance

/-- Besides, both controllers work on the stored instance, instance reconciles are not
interrupted, and the upgrade of the recorded name is the owner. -/
def rolling (config : HubConfig) (w : Paced) (e : HubEvent) : Prop :=
  paced config w e ∧ sequential config w.hub e ∧ rollsOn w.hub e ∧ matched w.hub e

instance (config : HubConfig) (w : Paced) (e : HubEvent) : Decidable (rolling config w e) :=
  inferInstanceAs (Decidable (_ ∧ _ ∧ _ ∧ _))

def Initial (config : HubConfig) (w : Paced) : Prop := HubState.Initial config w.hub

theorem planned_step {w v : Paced} (h : ∃ targets last, Planned targets last w.hub w.stepped)
    (hok : rolling config w e) (hst : w.step config e = some v) :
    ∃ targets last, Planned targets last v.hub v.stepped := by
  obtain ⟨targets, last, h⟩ := h
  obtain ⟨⟨hgentle, hpaced⟩, hseq, hrolls, hmatched⟩ := hok
  obtain ⟨t, ht, rfl⟩ := Option.map_eq_some_iff.mp hst
  obtain ⟨targets', hrolled, htargets, hsame⟩ := h.rolled.step hgentle hseq hrolls ht
  have hcase := step_case ht
  have hsites := hcase.specSites hgentle.not_edit
  have huids := hcase.upgradeUIDs
  have hpart := hcase.upgradePart
  have hspec := fun he => (hcase.spec he).resolve_right (hgentle.not_edit _)
  have hstand := hcase.plansStand
  -- the other events leave the instance's images and the plans alone
  have hframe : (∀ name view reads now writes, e ≠ .upgrade name view reads now writes) →
      SpecStands w.hub.stored t.stored → t.written = w.hub.written →
      t.currentRevision = w.hub.currentRevision ∧
        t.currentFingerprint = w.hub.currentFingerprint →
      ∃ targets last, Planned targets last t w.stepped := by
    intro he hstands hwritten hcur
    exact ⟨targets', last, h.frame_same hrolled htargets huids hstands (fun p hp => hwritten ▸ hp)
      hcur.1 hcur.2 (.of_upgradePart (hpart he).symm (hspec he).symm) hsites⟩
  cases hcase with
  | @issue view reads fails now writes _ hnone =>
    obtain rfl : targets' = targets := hsame fun _ h => by cases h
    have hissue := hseq.issueSpec
    have htake : (w.hub.outcome config view reads fails now).plans.take writes =
        (w.hub.outcome config view reads fails now).plans := take_of_length_le hseq.2.1
    refine ⟨_, h.issue hnone hissue hmatched hrolled fun hplans => ?_⟩
    exact if_pos (htake.trans hplans)
  | commit hdesired =>
    exact hframe (fun _ _ _ _ _ h => by cases h) (.of_status ..) rfl
      (h.rolled.sequenced.current_of_commit hdesired)
  | abandon =>
    exact hframe (fun _ _ _ _ _ h => by cases h) (.of_status ..) rfl
      (h.rolled.sequenced.current_of_abandon hseq)
  | @upgrade name view reads now writes u hu =>
    obtain rfl : targets' = targets := hsame fun _ h => by cases h
    obtain ⟨rfl, -⟩ := hrolls
    obtain ⟨hpend, hwritten, hstand⟩ := hstand rfl
    exact ⟨_, last, h.upgrade hrolled (by rw [applyUpgradeWrites_eq]) hstand hpend hwritten
      hsites upgrade_moved (mem_of_find?_eq_some hu) (hpaced _ ht)⟩
  | _ =>
    obtain ⟨hpend, hwritten, hstand⟩ := hstand rfl
    exact hframe (fun _ _ _ _ _ h => by cases h) hstand.toSpecStands hwritten
      (PlansStand.current hpend hstand)

open Machine

/-- In every run in which the upgrade controller waits for plans, both controllers work on
the stored instance and the recorded name stands for the owner. -/
theorem oneAtATime_of_reach {config : HubConfig} {w : Paced}
    (h : Reach (step config) (Initial config) (rolling config) w) : OneAtATime w.hub := by
  obtain ⟨targets, last, hplanned⟩ := h.invariant
   
    (fun w hinit => ⟨_, _, .initial hinit⟩) fun _ _ _ hinv hok hst => planned_step hinv hok hst
  exact hplanned.oneAtATime

/-! ## An upgrade under the name of another -/

open Sample

def after (ok : Paced → HubEvent → Prop) [∀ w e, Decidable (ok w e)]
    (script : List (HubState → HubEvent)) : Paced :=
  reached (step Sample.hub) ok ⟨Sample.created trio, false⟩
    (script.map fun event w => event w.hub)

/-- The rollout of `trio` up to its last step, planned and applied. -/
def rolledOut : List (HubState → HubEvent) :=
  Sample.switchedOver ++
    (List.replicate 3
      (minorStep :: appliedWith (nsw0, [vic0]))).flatten

def finalized : Paced := after (rolling Sample.hub) rolledOut

def Finalized (w : Paced) : Prop :=
  w.hub.stored.annotations.upgradePhase = .minor .finalize ∧ ∃ p ∈ w.hub.written, 5 ≤ p.revision
deriving Decidable

theorem finalized_reach :
    Reach (step Sample.hub) (Initial Sample.hub) (rolling Sample.hub) finalized ∧
      Finalized finalized := by
  unfold finalized after
  exact played (P := Finalized) trio_initial (by decide +kernel)

theorem finalized_oneAtATime : Finalized finalized ∧ OneAtATime finalized.hub :=
  ⟨finalized_reach.2, oneAtATime_of_reach finalized_reach.1⟩

/-- Another upgrade that gets the name of a finished one. -/
def namesake : PostgresUpgrade :=
  { minorUpgrade with
    uid := "ledger-17-3-uid"
    spec := { minorUpgrade.spec with
      targetImage := "percona/percona-distribution-postgresql@sha256:17e30c4f" } }

/-- The finished upgrade is deleted before it gives the instance back, and another one is
created under its name; then a site reports a new address. -/
def renamed : Paced :=
  after (paced Sample.hub) (rolledOut ++
    [fun s => .upgrade minorUpgrade.name s.stored Sample.reads 0 1] ++
    reconciledWith ++
    [fun _ => .deleteUpgrade minorUpgrade.name false, minorStep,
      fun _ => .createUpgrade namesake,
      addressFrom "production-vic" "postgres-production-vic-0" "10.0.0.9"] ++
    reconciledWith)

/-- Two members of one site change their image between two consecutive plans. -/
def TwoMoved (w : Paced) : Prop :=
  ∃ p ∈ w.hub.written, ∃ q ∈ w.hub.written, q.revision = p.revision + 1 ∧
    p.Ordinary ∧ q.Ordinary ∧ vic0 ∈ p.postgresMembers ∧ vic0 ∈ q.postgresMembers ∧
    vic1 ∈ p.postgresMembers ∧ vic1 ∈ q.postgresMembers ∧
    p.postgresMemberImage vic0 ≠ q.postgresMemberImage vic0 ∧
    p.postgresMemberImage vic1 ≠ q.postgresMemberImage vic1
deriving Decidable

theorem renamed_reach :
    Reach (step Sample.hub) (Initial Sample.hub) (paced Sample.hub) renamed ∧
      TwoMoved renamed := by
  unfold renamed after
  exact played (P := TwoMoved) trio_initial (by decide +kernel)

theorem not_oneAtATime_of_twoMoved {w : Paced} (h : TwoMoved w) : ¬ OneAtATime w.hub := by
  obtain ⟨p, hp, q, hq, hr, hpo, hqo, hp0, hq0, hp1, hq1, hne0, hne1⟩ := h
  intro hone
  obtain ⟨moved, hmoved⟩ := hone p.revision
  have hall := hmoved p hp q hq rfl hr hpo hqo
  have hsame : vic0 = vic1 := (hall _ hp0 hq0 hne0).trans (hall _ hp1 hq1 hne1).symm
  exact absurd hsame (by decide)

theorem renamed_moves_two :
    Reach (step Sample.hub) (Initial Sample.hub) (paced Sample.hub) renamed ∧
      ¬ OneAtATime renamed.hub :=
  ⟨renamed_reach.1, not_oneAtATime_of_twoMoved renamed_reach.2⟩

end Paced

end Mspsql
