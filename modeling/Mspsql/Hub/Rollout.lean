import Mspsql.Hub.Ownership

/-!
# The rollout of a minor upgrade

A minor upgrade goes from member to member and passes over whichever member is primary at
that moment.  It is done when no candidate is left, which is one member too early when the
primary is the only member that still runs the old image.
-/

namespace Mspsql

open List

variable {m : String} {i : MultiSitePostgres} {s t : HubState} {config : HubConfig}

/-! ## Lists of members -/

theorem mem_compact {l : List String} : m ∈ compact l ↔ m ∈ l := by
  induction l using compact.induct with
  | case1 => rfl
  | case2 a => rfl
  | case3 a rest ih =>
    rw [compact, if_pos rfl, ih, mem_cons (l := a :: rest)]
    exact ⟨.inr, fun h => h.elim (fun h => h ▸ mem_cons_self) id⟩
  | case4 a b rest hne ih => rw [compact, if_neg hne, mem_cons, mem_cons, ih]

theorem mem_splitMembers {value : String} :
    m ∈ splitMembers value ↔ value ≠ "" ∧ m ∈ Text.splitOnChar ',' value := by
  unfold splitMembers
  by_cases h : value = ""
  · rw [if_pos h]
    exact ⟨fun hm => absurd hm not_mem_nil, fun hm => absurd h hm.1⟩
  · rw [if_neg h, mem_compact, Text.mem_sortText]
    exact ⟨fun hm => ⟨h, hm⟩, And.right⟩

theorem mem_appendUnique {members : List String} {member : String} :
    m ∈ appendUnique members member ↔ m ∈ members ∨ m = member := by
  unfold appendUnique
  rw [Text.mem_sortText]
  split
  · rename_i hmem
    exact ⟨.inl, fun h => h.elim id fun h => h ▸ hmem⟩
  · rw [mem_append, mem_singleton]

theorem mem_splitMembers_join {l : List String} (h : ∀ m ∈ l, ',' ∉ m.toList) {x : String}
    (hx : x ∈ l) (hne : x ≠ "") : m ∈ splitMembers (Text.join "," l) ↔ m ∈ l := by
  have hsplit : Text.splitOnChar ',' (Text.join "," l) = l :=
    Text.splitOnChar_join (ne_nil_of_mem hx) h
  have hjoin : Text.join "," l ≠ "" := by
    intro hempty
    rw [hempty] at hsplit
    rw [← hsplit] at hx
    exact hne (mem_singleton.mp hx)
  rw [mem_splitMembers, hsplit]
  exact ⟨And.right, fun hm => ⟨hjoin, hm⟩⟩

theorem mem_upgradedMembersWithTarget : m ∈ upgradedMembersWithTarget i ↔
      m ∈ splitMembers i.annotations.upgradedMembers ∨ m = i.annotations.upgradeMember :=
  mem_appendUnique

theorem mem_splitMembers_upgradedMembersWithTarget
    (hseparable : ',' ∉ i.annotations.upgradeMember.toList)
    (htarget : i.annotations.upgradeMember ≠ "") :
    m ∈ splitMembers (Text.join "," (upgradedMembersWithTarget i)) ↔
      m ∈ upgradedMembersWithTarget i := by
  refine mem_splitMembers_join (fun m hm => ?_)
    (mem_upgradedMembersWithTarget.mpr (.inr rfl)) htarget
  rcases mem_upgradedMembersWithTarget.mp hm with hm | rfl
  · exact Text.not_mem_of_mem_splitOnChar (mem_splitMembers.mp hm).2
  · exact hseparable

/-! ## Candidates -/

theorem ne_empty_of_mem_postgresMembers {sites : List PostgresSiteSpec}
    (h : m ∈ postgresMembers sites) : m ≠ "" := by
  rw [postgresMembers, Text.mem_sortText, mem_flatMap] at h
  obtain ⟨site, -, h⟩ := h
  obtain ⟨ordinal, -, rfl⟩ := mem_map.mp h
  intro hempty
  have hlength := congrArg String.length hempty
  rw [String.length_append, String.length_append, String.length_append, String.length_append]
    at hlength
  have hkind : "postgres".length = 8 := rfl
  have hnone : "".length = 0 := rfl
  omega

section Candidates

variable {i : MultiSitePostgres} {upgraded : List String}

theorem selectUpgradeCandidate_spec (h : selectUpgradeCandidate i upgraded ≠ "") :
    selectUpgradeCandidate i upgraded ≠ i.status.primary ∧ selectUpgradeCandidate i upgraded ∈
        postgresMembers i.spec.sites ++ i.status.synchronousStandbys := by
  unfold selectUpgradeCandidate at h ⊢
  dsimp only at h ⊢
  generalize hcandidates : (if upgraded.isEmpty = true then
      i.status.synchronousStandbys.filter (· ≠ i.status.primary)
    else (postgresMembers i.spec.sites).filter fun member =>
      member ≠ i.status.primary ∧ member ∉ upgraded) = candidates at h
  rcases hsorted : Text.sortText candidates with _ | ⟨first, rest⟩
  · rw [hsorted] at h
    exact absurd rfl h
  have hmem : first ∈ candidates := by
    rw [← Text.mem_sortText, hsorted]
    exact mem_cons_self
  rw [← hcandidates] at hmem
  split at hmem
  · obtain ⟨hstandby, hne⟩ := mem_filter.mp hmem
    exact ⟨of_decide_eq_true hne, mem_append_right _ hstandby⟩
  · obtain ⟨hmember, hne⟩ := mem_filter.mp hmem
    exact ⟨(of_decide_eq_true hne).1, mem_append_left _ hmember⟩

theorem upgraded_of_no_candidate (h : selectUpgradeCandidate i upgraded = "") (hne : upgraded ≠ [])
    (hm : m ∈ postgresMembers i.spec.sites) :
    m = i.status.primary ∨ m ∈ upgraded := by
  by_contra hleft
  rw [not_or] at hleft
  unfold selectUpgradeCandidate at h
  dsimp only at h
  rw [if_neg (by simpa using hne)] at h
  generalize hcandidates : ((postgresMembers i.spec.sites).filter fun member =>
      member ≠ i.status.primary ∧ member ∉ upgraded) = candidates at h
  have hmem : m ∈ candidates := by
    rw [← hcandidates]
    exact mem_filter.mpr ⟨hm, decide_eq_true hleft⟩
  rcases hsorted : Text.sortText candidates with _ | ⟨first, rest⟩
  · rw [← Text.mem_sortText, hsorted] at hmem
    cases hmem
  have hfirst : first ∈ candidates := by
    rw [← Text.mem_sortText, hsorted]
    exact mem_cons_self
  rw [hsorted] at h
  rw [← hcandidates] at hfirst
  exact ne_empty_of_mem_postgresMembers (mem_filter.mp hfirst).1 h

end Candidates

def separableNames (i : MultiSitePostgres) : Prop :=
  ∀ m ∈ postgresMembers i.spec.sites ++ i.status.synchronousStandbys, ',' ∉ m.toList
deriving Decidable

theorem separable_candidate {upgraded : List String} (h : separableNames i)
    (hne : selectUpgradeCandidate i upgraded ≠ "") :
    ',' ∉ (selectUpgradeCandidate i upgraded).toList :=
  h _ (selectUpgradeCandidate_spec hne).2

def onlyPrimaryLeft (i : MultiSitePostgres) : Prop :=
  i.status.primary ∈ postgresMembers i.spec.sites ∧ i.status.primary ∉ upgradedMembersWithTarget i ∧
    ∀ m ∈ postgresMembers i.spec.sites, m ≠ i.status.primary → m ∈ upgradedMembersWithTarget i
deriving Decidable

namespace HubState

/-! ## Members that were upgraded -/

/-- The upgrade has had the member as its target while it was not the observed primary. -/
def UpgradedAsStandby (s : HubState) (uid member : String) : Prop :=
  ∃ v ∈ s.versions, v.annotations.upgradeUID = uid ∧
    v.annotations.upgradePhase = .minor .member ∧ v.annotations.upgradeMember = member ∧
    v.status.primary ≠ member

/-- An upgrade reconcile works on the stored instance, whose names are separable; after the
switchover the primary is not the only member left. -/
def rollingOn (s : HubState) : HubEvent → Prop
  | .upgrade _ view _ _ _ => view = s.stored ∧ separableNames s.stored ∧
      (s.stored.annotations.upgradePhase = .minor .member →
        s.stored.annotations.upgradeSwitched = "true" → ¬ onlyPrimaryLeft s.stored)
  | _ => True

instance (s : HubState) (e : HubEvent) : Decidable (rollingOn s e) := by
  unfold rollingOn
  cases_type HubEvent <;> infer_instance

def rollsOn (s : HubState) : HubEvent → Prop
  | .upgrade _ view _ _ _ => view = s.stored ∧ separableNames s.stored
  | _ => True

instance (s : HubState) (e : HubEvent) : Decidable (rollsOn s e) := by
  unfold rollsOn
  cases_type HubEvent <;> infer_instance

theorem rollingOn.rollsOn {e : HubEvent} (h : rollingOn s e) : rollsOn s e := by
  cases e with
  | upgrade => exact ⟨h.1, h.2.1⟩
  | _ => trivial

structure RollsOut (s : HubState) : Prop where
  separable : ∀ phase, s.stored.annotations.upgradeUID ≠ "" →
    s.stored.annotations.upgradePhase = .minor phase →
      ',' ∉ s.stored.annotations.upgradeMember.toList ∧ s.stored.annotations.upgradeMember ≠ ""
  backed : ∀ phase, s.stored.annotations.upgradeUID ≠ "" →
    s.stored.annotations.upgradePhase = .minor phase → ∀ m ∈ upgradedMembersWithTarget s.stored,
        s.UpgradedAsStandby s.stored.annotations.upgradeUID m

namespace RollsOut

theorem initial (h : Initial config s) : RollsOut s where
  separable _ huid := absurd h.upgradeUID huid
  backed _ huid := absurd h.upgradeUID huid

theorem frame (h : RollsOut s)
    (hpart : t.stored.annotations.upgradePart = s.stored.annotations.upgradePart)
    (hvers : ∀ v ∈ s.versions, v ∈ t.versions) : RollsOut t := by
  obtain ⟨huid, -, hphase, hmember, hupgraded⟩ := sameUpgrade hpart
  constructor
  · intro phase hheld hrecorded
    rw [huid] at hheld
    rw [hphase] at hrecorded
    rw [hmember]
    exact h.separable phase hheld hrecorded
  · intro phase hheld hrecorded m hm
    rw [huid] at hheld ⊢
    rw [hphase] at hrecorded
    rw [upgradedMembersWithTarget, hmember, hupgraded] at hm
    obtain ⟨v, hv, hwas⟩ := h.backed phase hheld hrecorded m hm
    exact ⟨v, hvers v hv, hwas⟩

/-- The rule for a move within a rollout: the list grows by nothing but its new target. -/
theorem advance (h : RollsOut s) {phase : UpgradePhase}
    (hrecorded : s.stored.annotations.upgradePhase = .minor phase)
    (huid : t.stored.annotations.upgradeUID = s.stored.annotations.upgradeUID)
    (hvers : t.versions = t.stored :: s.versions)
    (hlist : ∀ m ∈ splitMembers t.stored.annotations.upgradedMembers,
      m ∈ upgradedMembersWithTarget s.stored)
    (htarget : t.stored.annotations.upgradeMember = s.stored.annotations.upgradeMember ∨
      t.stored.annotations.upgradePhase = .minor .member ∧
      t.stored.status.primary ≠ t.stored.annotations.upgradeMember ∧
      ',' ∉ t.stored.annotations.upgradeMember.toList ∧ t.stored.annotations.upgradeMember ≠ "") :
    RollsOut t := by
  have hback : ∀ m, t.stored.annotations.upgradeUID ≠ "" → m ∈ upgradedMembersWithTarget s.stored →
      t.UpgradedAsStandby t.stored.annotations.upgradeUID m := by
    intro m hheld hm
    rw [huid] at hheld ⊢
    obtain ⟨v, hv, hwas⟩ := h.backed phase hheld hrecorded m hm
    exact ⟨v, hvers ▸ mem_cons_of_mem _ hv, hwas⟩
  constructor
  · intro _ hheld _
    rcases htarget with hsame | ⟨-, -, hseparable, hne⟩
    · rw [hsame]
      exact h.separable phase (huid ▸ hheld) hrecorded
    · exact ⟨hseparable, hne⟩
  · intro _ hheld _ m hm
    rcases mem_upgradedMembersWithTarget.mp hm with hm | rfl
    · exact hback m hheld (hlist m hm)
    rcases htarget with hsame | ⟨hmember, hprimary, -⟩
    · rw [hsame]
      exact hback _ hheld (mem_upgradedMembersWithTarget.mpr (.inr rfl))
    · exact ⟨t.stored, hvers ▸ mem_cons_self, rfl, hmember, rfl, hprimary⟩

theorem of_moved {u : PostgresUpgrade} {name : String} (h : RollsOut s) (hheld : u.uid ≠ "")
    (hnames : separableNames s.stored) (hmoved : Moved u s.stored name s t) : RollsOut t := by
  have hcleared : t.stored = patchInstance s.stored (clearUpgradeAnnotations s.stored) s.stored →
      RollsOut t := by
    intro hstored
    have hfree := (patched hstored rfl).uid
    exact ⟨fun _ hne => absurd hfree hne, fun _ hne => absurd hfree hne⟩
  cases hmoved with
  | none stored versions =>
    exact h.frame (by rw [stored]) fun v hv => versions ▸ hv
  | finish _ _ _ _ stored => exact hcleared stored
  | @move kind modified hmove stored versions =>
    obtain ⟨huid, -, hphase, hmember, hupgraded⟩ := patched stored rfl
    have hstatus : t.stored.status = s.stored.status := by rw [stored, patchInstance]
    have hmajor : ∀ phase, modified.annotations.upgradePhase = .major phase → RollsOut t := by
      intro phase hmodified
      have hnot : ∀ minor, t.stored.annotations.upgradePhase ≠ .minor minor := by
        intro minor hminor
        cases (hphase.symm.trans hminor).symm.trans hmodified
      exact ⟨fun minor _ hminor => absurd hminor (hnot minor),
        fun minor _ hminor => absurd hminor (hnot minor)⟩
    -- the candidate that becomes the target
    have hcandidate : ∀ upgraded, selectUpgradeCandidate s.stored upgraded ≠ "" →
        modified.annotations.upgradePhase = .minor .member →
        modified.annotations.upgradeMember = selectUpgradeCandidate s.stored upgraded →
        t.stored.annotations.upgradePhase = .minor .member ∧
          t.stored.status.primary ≠ t.stored.annotations.upgradeMember ∧
          ',' ∉ t.stored.annotations.upgradeMember.toList ∧
          t.stored.annotations.upgradeMember ≠ "" := by
      intro upgraded hne hmodified htarget
      rw [hphase, hmember, htarget, hstatus]
      exact ⟨hmodified, (selectUpgradeCandidate_spec hne).1.symm, separable_candidate hnames hne,
        hne⟩
    -- the list as it is recorded with its target
    have hjoined : ∀ phase, s.stored.annotations.upgradePhase = .minor phase →
        s.stored.annotations.upgradeUID = u.uid →
        modified.annotations.upgradedMembers = Text.join "," (upgradedMembersWithTarget s.stored) →
        ∀ m ∈ splitMembers t.stored.annotations.upgradedMembers,
          m ∈ upgradedMembersWithTarget s.stored := by
      intro phase hrecorded howned hlist m hm
      obtain ⟨hseparable, htarget⟩ := h.separable phase (howned ▸ hheld) hrecorded
      rw [hupgraded, hlist] at hm
      exact (mem_splitMembers_upgradedMembersWithTarget hseparable htarget).mp hm
    have hkept : modified.annotations.upgradedMembers = s.stored.annotations.upgradedMembers →
        ∀ m ∈ splitMembers t.stored.annotations.upgradedMembers,
          m ∈ upgradedMembersWithTarget s.stored := by
      intro hsame m hm
      rw [hupgraded, hsame] at hm
      exact mem_upgradedMembersWithTarget.mpr (.inl hm)
    cases hmove with
    | claimMajor | advance | finalizeMajor | rollBack => exact hmajor _ rfl
    | release | abandon => exact hcleared stored
    | claimMinor _ _ _ candidate =>
      obtain ⟨hnew, hprimary, hseparable, hne⟩ := hcandidate [] candidate rfl rfl
      refine ⟨fun _ _ _ => ⟨hseparable, hne⟩, fun _ _ _ m hm => ?_⟩
      rcases mem_upgradedMembersWithTarget.mp hm with hm | rfl
      · rw [hupgraded] at hm
        cases hm
      · exact ⟨t.stored, versions ▸ mem_cons_self, rfl, hnew, rfl, hprimary⟩
    | switching _ owned recorded =>
      exact h.advance recorded huid versions (hjoined _ recorded owned rfl) (.inl hmember)
    | nextMember _ owned recorded _ _ left =>
      exact h.advance recorded huid versions (hjoined _ recorded owned rfl)
        (.inr (hcandidate _ left recorded rfl))
    | finalizeMinor _ _ recorded =>
      exact h.advance recorded huid versions (hkept rfl) (.inl hmember)
    | switchedOver _ _ recorded _ left =>
      exact h.advance recorded huid versions (hkept rfl) (.inr (hcandidate _ left rfl rfl))

theorem step {e : HubEvent} (h : RollsOut s) (huids : ∀ u ∈ s.upgrades, u.uid ≠ "")
    (hok : rollsOn s e) (hcase : StepCase config s e t) :
    RollsOut t := by
  have hvers : ∀ v ∈ s.versions, v ∈ t.versions := by
    rcases hcase.versions with ⟨-, hsame⟩ | hnew
    · exact fun v hv => hsame ▸ hv
    · exact fun v hv => hnew ▸ mem_cons_of_mem _ hv
  have hpart := hcase.upgradePart
  cases hcase with
  | @upgrade name view reads now writes u hu =>
    obtain ⟨rfl, hnames⟩ := hok
    exact h.of_moved (huids u (mem_of_find?_eq_some hu)) hnames upgrade_moved
  | _ => exact h.frame (hpart fun _ _ _ _ _ h => by cases h) hvers

end RollsOut

open Machine

theorem upgrade_uid_ne {ok : HubState → HubEvent → Prop}
    (h : Reach (step config) (Initial config) ok s) : ∀ u ∈ s.upgrades, u.uid ≠ "" := by
  refine h.invariant (I := fun s => ∀ u ∈ s.upgrades, u.uid ≠ "") (fun s hinit => ?_)
    fun s e t hinv _ hst => ?_
  · rw [hinit.upgrades]
    exact fun u hu => by cases hu
  intro u hu
  rcases (step_case hst).keys with ⟨hkeys, -⟩ | ⟨v, rfl, hne, -⟩
  · obtain ⟨v, hv, hkey⟩ := mem_map.mp (hkeys.subset (mem_map_of_mem hu))
    rw [← (Prod.mk.inj hkey).2]
    exact hinv v hv
  · rcases mem_cons.mp hu with rfl | hu
    · exact hne
    · exact hinv u hu

theorem rollsOut_of_reach (h : Reach (step config) (Initial config) rollingOn s) : RollsOut s := by
  refine h.invariant_of (fun _ => upgrade_uid_ne) (fun _ => .initial) ?_
  intro s e t huids hinv hok hst
  exact hinv.step huids hok.rollsOn (step_case hst)

/-! ## The last step of a rollout -/

/-- A step enters the final phase of a minor upgrade, or rewrites the image during one. -/
def FinishesRollout (s t : HubState) : Prop :=
  t.stored.annotations.upgradePhase = .minor .finalize ∧
      s.stored.annotations.upgradePhase ≠ .minor .finalize ∨
    t.stored.annotations.upgradePhase = .minor .finalize ∧
      t.stored.spec.postgres.image ≠ s.stored.spec.postgres.image
deriving Decidable

theorem finalizeMinor_of_finishesRollout {u : PostgresUpgrade} {name : String}
    (hmoved : Moved u s.stored name s t) (hfinal : FinishesRollout s t) :
    s.stored.annotations.upgradeUID = u.uid ∧ s.stored.annotations.upgradePhase = .minor .member ∧
      s.stored.annotations.upgradeSwitched = "true" ∧
      selectUpgradeCandidate s.stored (upgradedMembersWithTarget s.stored) = "" := by
  have hphase : t.stored.annotations.upgradePhase = .minor .finalize :=
    hfinal.elim And.left And.left
  have hpatched : ∀ modified, t.stored = patchInstance s.stored modified s.stored →
      modified.annotations.upgradePhase = .minor .finalize := by
    intro modified hstored
    exact (patched hstored rfl).phase.symm.trans hphase
  cases hmoved with
  | none stored =>
    rcases hfinal with ⟨-, hne⟩ | ⟨-, himage⟩
    · exact absurd (stored ▸ hphase) hne
    · exact absurd (by rw [stored]) himage
  | finish _ _ _ _ stored => cases hpatched _ stored
  | @move kind modified hmove stored =>
    have hmodified := hpatched modified stored
    cases hmove with
    | finalizeMinor _ owned recorded _ switched noneLeft =>
      exact ⟨owned, recorded, switched, noneLeft⟩
    | nextMember _ _ recorded => cases recorded.symm.trans hmodified
    | _ => cases hmodified

/-- Every upgrade reconcile that ends a rollout finds all members of the specification in the
list it records, each of them upgraded while it was not the primary. -/
theorem rollout_complete {config : HubConfig} {s t : HubState} {name : String}
    {view : MultiSitePostgres} {reads : HubReads} {now : Time} {writes : Nat}
    (h : Reach (step config) (Initial config) rollingOn s)
    (hok : rollingOn s (.upgrade name view reads now writes))
    (hst : s.step config (.upgrade name view reads now writes) = some t)
    (hfinal : FinishesRollout s t) :
    ∀ m ∈ postgresMembers s.stored.spec.sites, m ∈ upgradedMembersWithTarget s.stored ∧
        s.UpgradedAsStandby s.stored.annotations.upgradeUID m := by
  obtain ⟨rfl, -, hleft⟩ := hok
  cases step_case hst with
  | @upgrade _ _ _ _ _ u hu =>
    obtain ⟨howned, hrecorded, hswitched, hnone⟩ :=
      finalizeMinor_of_finishesRollout upgrade_moved hfinal
    have htarget : s.stored.annotations.upgradeMember ∈ upgradedMembersWithTarget s.stored :=
      mem_upgradedMembersWithTarget.mpr (.inr rfl)
    have hrest := fun m => upgraded_of_no_candidate (m := m) hnone (ne_nil_of_mem htarget)
    have hall : ∀ m ∈ postgresMembers s.stored.spec.sites,
        m ∈ upgradedMembersWithTarget s.stored := by
      intro m hm
      rcases hrest m hm with rfl | hm'
      · by_contra hmissing
        exact hleft hrecorded hswitched
          ⟨hm, hmissing, fun m hm hne => (hrest m hm).resolve_left hne⟩
      · exact hm'
    have huid := upgrade_uid_ne h u (mem_of_find?_eq_some hu)
    exact fun m hm => ⟨hall m hm,
      (rollsOut_of_reach h).backed _ (howned ▸ huid) hrecorded m (hall m hm)⟩

/-! ## A rollout with three members -/

open Sample

def rolledOver : HubState :=
  after trio rollingOn (Sample.switchedOver ++ minorStep :: appliedWith (nsw0, [vic0]) ++
    minorStep :: appliedWith (nsw0, [vic0]))

def EndsRollout (s : HubState) : Prop :=
  rollingOn s (minorStep s) ∧ ∃ t ∈ s.step Sample.hub (minorStep s), FinishesRollout s t

instance : DecidablePred EndsRollout := fun s =>
  inferInstanceAs (Decidable (_ ∧ ∃ t ∈ s.step Sample.hub (minorStep s), _))

theorem rolledOver_reach : Reach (step Sample.hub) (Initial Sample.hub) rollingOn rolledOver ∧
      EndsRollout rolledOver :=
  after_reach (P := EndsRollout) trio_initial (by decide +kernel)

theorem rolledOver_complete : EndsRollout rolledOver ∧
    ∀ m ∈ postgresMembers rolledOver.stored.spec.sites,
      m ∈ upgradedMembersWithTarget rolledOver.stored ∧
        rolledOver.UpgradedAsStandby rolledOver.stored.annotations.upgradeUID m := by
  obtain ⟨hreach, hok, t, ht, hfinal⟩ := rolledOver_reach
  exact ⟨rolledOver_reach.2, rollout_complete hreach hok ht hfinal⟩

/-- A failover makes the last member that is not upgraded the primary. -/
def failedOver : HubState :=
  after trio anyStep (Sample.switchedOver ++ minorStep :: appliedWith (vic1, [nsw0]))

/-- The next upgrade reconcile ends the rollout without the primary. -/
def LeavesPrimary (s : HubState) : Prop :=
  (∃ t ∈ s.step Sample.hub (minorStep s), FinishesRollout s t) ∧
    s.stored.status.primary ∈ postgresMembers s.stored.spec.sites ∧
    s.stored.status.primary ∉ upgradedMembersWithTarget s.stored
deriving Decidable

theorem failedOver_leaves_primary :
    Reach (step Sample.hub) (Initial Sample.hub) anyStep failedOver ∧
      LeavesPrimary failedOver :=
  after_reach (P := LeavesPrimary) trio_initial (by decide +kernel)

end HubState

end Mspsql
