import Mspsql.Control.Delivery
import Mspsql.Hub.AddressAgreement

/-!
# What one site's reports change for the members of the others

Two runs of the hub, step by step together.  They differ only in the progress messages that
one site sends.

`apart_of_reach` says when the other sites' members keep their addresses in every plan, and
the sites their directives go to: the site reports addresses of its own members only, and
never holds the others up.  The server checks neither.  A site that reports a member of
another one gets an address for it into the plans and its directives to itself
(`strayed_interferes`).
-/

namespace Mspsql

open MultiSitePostgres SortedMap List

variable {l l' : List SiteRevisionStatus} {view : MultiSitePostgres} {o : Outcome}
  {left right s : HubState} {e : HubEvent} {message : PlanMessage}

namespace HubState

def receive (s : HubState) (now : Time) (registration : String) (message : PlanMessage) :
    HubState :=
  match receivePlanMessage now registration message s.stored with
  | .ok updated => s.store updated
  | .error _ => s

def receiveProgress (s : HubState) (site : String) : Option (Time × PlanProgress) → HubState
  | some (now, report) => s.receive now site (.progress report)
  | none => s

theorem receive_case (s : HubState) (now : Time) (registration : String) (message : PlanMessage) :
    (siteIndex? s.stored.status.sites registration = none ∧
        s.receive now registration message = s) ∨
      ∃ entry, siteIndex? s.stored.status.sites registration = some entry ∧
        s.receive now registration message = s.storeStatus { s.stored.status with
          sites := s.stored.status.sites.modify entry fun site =>
            stampGeneration s.stored.generation (message.update now site) } := by
  unfold receive receivePlanMessage updateInstanceSite
  rcases siteIndex? s.stored.status.sites registration with _ | entry
  · exact .inl ⟨rfl, rfl⟩
  · exact .inr ⟨entry, rfl, rfl⟩

end HubState

/-! ## Two runs -/

structure TwinState where
  left : HubState
  right : HubState
  /-- What was stored in the two runs after each step so far. -/
  moments : List (MultiSitePostgres × MultiSitePostgres)
  /-- The plans their reconciles have issued, side by side. -/
  issued : List (List SitePlan × List SitePlan) := []

inductive TwinEvent where
  /-- An instance reconcile, on versions that were stored after the same step. -/
  | issue (views : MultiSitePostgres × MultiSitePostgres) (reads : HubReads)
      (fails : String → Bool) (now : Time) (writes : Nat)
  | upgrade (name : String) (views : MultiSitePostgres × MultiSitePostgres) (reads : HubReads)
      (now : Time) (writes : Nat)
  /-- The same plan message in both runs. -/
  | message (registration : String) (now : Time) (message : PlanMessage)
  /-- The progress messages of the one site, in either run or in both. -/
  | progress (left right : Option (Time × PlanProgress))
  /-- Any other event, the same in both runs. -/
  | both (event : HubEvent)

/-- An event that neither works on a stored version nor is a message. -/
def HubEvent.shared : HubEvent → Bool
  | .issue .. | .upgrade .. | .message .. => false
  | _ => true

namespace TwinState

/-- Both hubs have made a step. -/
def next (w : TwinState) (left right : HubState) : TwinState :=
  { w with left := left, right := right, moments := (left.stored, right.stored) :: w.moments }

def step (config : HubConfig) (site : String) (w : TwinState) : TwinEvent → Option TwinState
  | .issue views reads fails now writes =>
    if views ∈ w.moments then do
      let left ← w.left.step config (.issue views.1 reads fails now writes)
      let right ← w.right.step config (.issue views.2 reads fails now writes)
      some { w.next left right with issued :=
        ((w.left.outcome config views.1 reads fails now).plans.take writes,
          (w.right.outcome config views.2 reads fails now).plans.take writes) :: w.issued }
    else none
  | .upgrade name views reads now writes =>
    if views ∈ w.moments then do
      let left ← w.left.step config (.upgrade name views.1 reads now writes)
      let right ← w.right.step config (.upgrade name views.2 reads now writes)
      some (w.next left right)
    else none
  | .message registration now message =>
    some (w.next (w.left.receive now registration message)
      (w.right.receive now registration message))
  | .progress left right =>
    some (w.next (w.left.receiveProgress site left) (w.right.receiveProgress site right))
  | .both event =>
    if event.shared then do
      let left ← w.left.step config event
      let right ← w.right.step config event
      some (w.next left right)
    else none

structure Initial (config : HubConfig) (w : TwinState) : Prop where
  initial : w.left.Initial config
  right : w.right = w.left
  moments : w.moments = [(w.left.stored, w.left.stored)]
  issued : w.issued = []

/-- The site reports addresses of the members `own` only, and what it reports neither holds
a reconcile up in one run alone nor puts an entry at another revision when a report of
another site comes in. -/
def confined (own : String → Prop) (w : TwinState) : TwinEvent → Prop
  | .issue views reads _ _ _ => w.right.upgrades = w.left.upgrades ∧
      Level own (w.left.readsOf reads) (w.right.readsOf reads) views.1 views.2
  | .message _ _ (.progress _) => w.left.stored.status.sites.map (·.desiredRevision) =
      w.right.stored.status.sites.map (·.desiredRevision)
  | .progress left right => (∀ sent ∈ left, ∀ e ∈ sent.2.addresses, own e.1) ∧
      ∀ sent ∈ right, ∀ e ∈ sent.2.addresses, own e.1
  | _ => True

end TwinState

/-! ## Where directives go -/

def ledBy (i : MultiSitePostgres) (primary : String) (standbys : List String) : MultiSitePostgres :=
  { i with status := { i.status with primary := primary, synchronousStandbys := standbys } }

def backupTargetsSite (i : MultiSitePostgres) (siteName : String) : Bool :=
  selectBackupSource i ≠ "" ∧ memberTargetsSite i (selectBackupSource i) siteName

/-- Under a primary and standbys outside `own`, directives go to the same sites. -/
def SameTargets (own : String → Prop) (i j : MultiSitePostgres) : Prop :=
  ∀ primary standbys, ¬ own primary → (∀ member ∈ standbys, ¬ own member) → ∀ registration,
    (∀ type, directiveTargetsSite (ledBy i primary standbys) type registration =
      directiveTargetsSite (ledBy j primary standbys) type registration) ∧
    backupTargetsSite (ledBy i primary standbys) registration =
      backupTargetsSite (ledBy j primary standbys) registration

/-- The members outside `own` have the same addresses in every plan and the same sites. -/
structure TwinState.Apart (own : String → Prop) (w : TwinState) : Prop where
  addresses : ∀ round ∈ w.issued, List.Forall₂ (fun p q => p.site = q.site ∧
    AgreeOff own p.memberAddresses q.memberAddresses) round.1 round.2
  targets : SameTargets own w.left.stored w.right.stored

section

variable {own : String → Prop} {i j : MultiSitePostgres}

theorem holders_agree {member : String} (h : List.Forall₂ (EntryAgree own) l l')
    (hmember : ¬ own member) :
    (l.filter fun observed => (observed.addresses.get? member).isSome).map (·.name) =
      (l'.filter fun observed => (observed.addresses.get? member).isSome).map (·.name) := by
  induction h with
  | nil => rfl
  | cons hxy _ ih =>
    rw [filter_cons, filter_cons, hxy.addresses member hmember]
    split
    · rw [map_cons, map_cons, hxy.name, ih]
    · exact ih

theorem memberSite_eq_head (i : MultiSitePostgres) (member : String) :
    memberSite i member = ((i.status.sites.filter fun observed =>
      (observed.addresses.get? member).isSome).map (·.name)).head?.getD "" := by
  rw [memberSite, ← head?_filter, head?_map]
  cases (i.status.sites.filter fun observed =>
    (observed.addresses.get? member).isSome).head? <;> rfl

theorem selectBackupSource_mem (i : MultiSitePostgres) :
    selectBackupSource i ∈ i.status.synchronousStandbys ∨
      selectBackupSource i = i.status.primary ∨ selectBackupSource i = "" := by
  unfold selectBackupSource
  split
  · rename_i hfound
    exact .inl (Text.mem_sortText.mp (mem_of_find?_eq_some hfound))
  · split
    · exact .inr (.inl rfl)
    · exact .inr (.inr rfl)

section Targets

variable (hspec : i.spec.sites = j.spec.sites)
  (h : List.Forall₂ (EntryAgree own) i.status.sites j.status.sites)
  (hprimary : j.status.primary = i.status.primary) (hoff : ¬ own i.status.primary)

include hspec in
theorem registrationOf_congr : registrationOf i = registrationOf j := by
  funext site
  rw [registrationOf, registrationOf, hspec]

include h in
theorem memberSite_agree {member : String} (hmember : ¬ own member) :
    memberSite i member = memberSite j member := by
  rw [memberSite_eq_head, memberSite_eq_head, holders_agree h hmember]

include hspec h hprimary hoff in
theorem directiveTargetsSite_agree (type registration : String) :
    directiveTargetsSite i type registration = directiveTargetsSite j type registration := by
  have hnames := congrArg (findSome? (registrationOf i)) (holders_agree h hoff)
  rw [findSome?_map, findSome?_map] at hnames
  have hholders : (i.status.sites.filter fun observed =>
        (observed.addresses.get? i.status.primary).isSome).findSome?
          (fun observed => registrationOf i observed.name) =
      (j.status.sites.filter fun observed =>
        (observed.addresses.get? i.status.primary).isSome).findSome?
          (fun observed => registrationOf i observed.name) := hnames
  unfold directiveTargetsSite
  rw [hprimary, hholders, registrationOf_congr hspec]

include hspec h hprimary hoff in
theorem backupTargetsSite_agree
    (hstandbys : j.status.synchronousStandbys = i.status.synchronousStandbys)
    (hothers : ∀ member ∈ i.status.synchronousStandbys, ¬ own member) (registration : String) :
    backupTargetsSite i registration = backupTargetsSite j registration := by
  have hfind : (Text.sortText i.status.synchronousStandbys).find?
        (fun standby => memberSite i standby ≠ "") =
      (Text.sortText i.status.synchronousStandbys).find?
        fun standby => memberSite j standby ≠ "" := by
    rw [← head?_filter, ← head?_filter]
    refine congrArg List.head? (filter_congr fun standby hstandby => ?_)
    rw [memberSite_agree h (hothers standby (Text.mem_sortText.mp hstandby))]
  have hsource : selectBackupSource i = selectBackupSource j := by
    rw [selectBackupSource, selectBackupSource, hstandbys, hprimary, hfind, memberSite_agree h hoff]
  unfold backupTargetsSite memberTargetsSite
  rw [← hsource, ← registrationOf_congr hspec]
  rcases selectBackupSource_mem i with hstandby | hleader | hnone
  · rw [memberSite_agree h (hothers _ hstandby)]
  · rw [memberSite_agree h (hleader ▸ hoff)]
  · rw [hnone]
    simp

include hspec h in
theorem sameTargets_of_agree : SameTargets own i j := by
  intro primary standbys hprimary hstandbys registration
  have hsites : (ledBy i primary standbys).spec.sites = (ledBy j primary standbys).spec.sites :=
    hspec
  exact ⟨fun type => directiveTargetsSite_agree hsites h rfl hprimary type registration,
    backupTargetsSite_agree hsites h rfl hprimary rfl hstandbys registration⟩

end Targets

end

/-! ## Steps of one hub -/

theorem Numbered.merged {current desired : MultiSitePostgresStatus} (hcur : Numbered current)
    (hdesired : Numbered desired) : Numbered (mergeReconciledStatus current desired) := by
  have hmax := le_mergeReconciledStatus current desired
  exact ⟨hcur.nonneg.trans hmax.1, fun hissued => (hdesired.issued hissued).trans hmax.2⟩

theorem OutcomeCase.numbered {reads : HubReads} {now : Time} {d : MultiSitePostgresStatus}
    (hcase : OutcomeCase reads now view o) (hd : o.status = some d) (h : Numbered view.status) :
    Numbered d := by
  cases hcase with
  | quiet _ status _ =>
    exact h.congr (status d hd).activeRevision (status d hd).planFingerprint
  | issued prepared inputs n _ _ observed _ _ status _ =>
    have hkeeps := observed.keepsPlans
    have hrevised := (h.congr hkeeps.activeRevision hkeeps.planFingerprint).revised inputs
    have hrecords := (status d hd).2
    rw [← hrecords.activeRevision] at hrevised
    exact ⟨by omega, fun _ => hrevised⟩
  | deletion _ revised hrevised _ status _ =>
    have hrecords := (status d hd).2
    have hnext : d.activeRevision = view.status.activeRevision + 1 := by
      rw [hrecords.activeRevision, hrevised]
      exact nextRevision_eq h.nonneg
    have hnonneg := h.nonneg
    exact ⟨by omega, fun _ => by omega⟩

namespace HubState

/-- An event that touches neither the entries of the sites nor the plans. -/
def bystander : HubEvent → Bool
  | .issue .. | .commit | .message .. => false
  | _ => true

def sitesAfter (sites : List PostgresSiteSpec) : HubEvent → List PostgresSiteSpec
  | .edit spec => spec.sites
  | _ => sites

theorem applyUpgradeWrites_sites (s : HubState) (name : String) (writes : List UpgradeWrite) :
    (s.applyUpgradeWrites name writes).stored.spec.sites = s.stored.spec.sites :=
  applyUpgradeWrites_stored (P := (·.spec.sites = s.stored.spec.sites)) rfl (fun _ _ _ h => h) name
    writes

structure Kept (e : HubEvent) (s t : HubState) : Prop where
  entries : t.stored.status.sites = s.stored.status.sites
  sites : t.stored.spec.sites = sitesAfter s.stored.spec.sites e
  planMaps : t.planMaps = s.planMaps
  pending : ∀ d, t.pending = some d → s.pending = some d

theorem StepCase.kept {config : HubConfig} {t : HubState} (h : StepCase config s e t)
    (he : bystander e = true) : Kept e s t := by
  cases h with
  | issue | commit | message | refused => cases he
  | abandon => exact ⟨rfl, rfl, rfl, fun d hd => by cases hd⟩
  | upgrade =>
    refine ⟨congrArg (·.sites) (applyUpgradeWrites_status ..), applyUpgradeWrites_sites .., ?_, ?_⟩
    · rw [applyUpgradeWrites_eq]
    · rw [applyUpgradeWrites_eq]
      exact fun _ hd => hd
  | backupResult hrecords | upgradeBackupSucceeded hrecords =>
    refine ⟨hrecords.sites, ?_, rfl, fun _ hd => hd⟩
    rw [hrecords.eq]
    rfl
  | _ => exact ⟨rfl, rfl, rfl, fun _ hd => hd⟩

/-- The recorded revision and the one about to be recorded can be signed. -/
structure Counted (s : HubState) : Prop where
  stored : Numbered s.stored.status
  pending : ∀ d, s.pending = some d → Numbered d

theorem Counted.bystander {config : HubConfig} {t : HubState} (h : Counted s)
    (hcase : StepCase config s e t) (he : HubState.bystander e = true) : Counted t := by
  have hpend := (hcase.kept he).pending
  refine ⟨?_, fun d hd => h.pending d (hpend d hd)⟩
  by_cases hreconcile : isReconcile e = true
  · cases hcase with
    | abandon => exact h.stored
    | issue | commit => cases he
    | _ => cases hreconcile
  · obtain ⟨-, -, hstand⟩ := hcase.plansStand (Bool.not_eq_true _ ▸ hreconcile)
    exact h.stored.congr hstand.activeRevision hstand.planFingerprint

theorem receive_kept (s : HubState) (now : Time) (registration : String) (message : PlanMessage) :
    (s.receive now registration message).stored.spec = s.stored.spec ∧
      (s.receive now registration message).planMaps = s.planMaps ∧
      (s.receive now registration message).pending = s.pending := by
  rcases s.receive_case now registration message with ⟨-, heq⟩ | ⟨entry, -, heq⟩ <;> rw [heq] <;>
    exact ⟨rfl, rfl, rfl⟩

theorem receiveProgress_kept (s : HubState) (site : String) (sent : Option (Time × PlanProgress)) :
    (s.receiveProgress site sent).stored.spec = s.stored.spec ∧
      (s.receiveProgress site sent).planMaps = s.planMaps ∧
      (s.receiveProgress site sent).pending = s.pending := by
  rcases sent with _ | ⟨now, report⟩
  · exact ⟨rfl, rfl, rfl⟩
  · exact s.receive_kept now site (.progress report)

theorem receiveProgress_entries {own : String → Prop} (s : HubState) (site : String)
    {sent : Option (Time × PlanProgress)} (h : ∀ m ∈ sent, ∀ e ∈ m.2.addresses, own e.1) :
    List.Forall₂ (EntryAgree own) s.stored.status.sites
      (s.receiveProgress site sent).stored.status.sites := by
  rcases sent with _ | ⟨now, report⟩
  · exact forall₂_same.mpr fun x _ => .refl x
  · rcases s.receive_case now site (.progress report) with ⟨-, heq⟩ | ⟨entry, -, heq⟩
    · show List.Forall₂ _ _ (s.receive now site (.progress report)).stored.status.sites
      rw [heq]
      exact forall₂_same.mpr fun x _ => .refl x
    · show List.Forall₂ _ _ (s.receive now site (.progress report)).stored.status.sites
      rw [heq]
      refine Lists.forall₂_modify EntryAgree.refl fun x _ => ⟨?_, ?_⟩
      · exact (PlanMessage.update_spec now (.progress report) x).name.symm
      · show AgreeOff own x.addresses (PlanMessage.update now (.progress report) x).addresses
        rw [(PlanMessage.update_spec ..).addresses]
        refine .insertAll_own (fun e he => ?_) _
        unfold PlanMessage.addressesFor at he
        dsimp only at he
        split at he
        · cases he
        · exact h _ rfl e he

theorem Counted.issue {writes : Nat} (h : Counted s) (ho : ∀ d, o.status = some d → Numbered d) :
    Counted (s.applyOutcome view o writes) := by
  refine ⟨?_, fun d hd => ?_⟩
  · rw [(s.applyOutcome_status view o writes).1]
    exact h.stored
  · rw [applyOutcome_pending] at hd
    split at hd
    · exact h.pending d hd
    · exact ho d hd

theorem Counted.receive (h : Counted s) (now : Time) (registration : String)
    (message : PlanMessage) :
    Counted (s.receive now registration message) := by
  rcases s.receive_case now registration message with ⟨-, heq⟩ | ⟨entry, -, heq⟩
  · rw [heq]
    exact h
  · rw [heq]
    exact ⟨⟨h.stored.nonneg, h.stored.issued⟩, h.pending⟩

theorem Counted.receiveProgress (h : Counted s) (site : String)
    (sent : Option (Time × PlanProgress)) : Counted (s.receiveProgress site sent) := by
  rcases sent with _ | ⟨now, report⟩
  · exact h
  · exact h.receive now site (.progress report)

end HubState

/-! ## Steps of both -/

/-- The hubs agree outside `own`, in what they have stored and what they are about to. -/
structure HubAgree (own : String → Prop) (s t : HubState) : Prop where
  entries : List.Forall₂ (EntryAgree own) s.stored.status.sites t.stored.status.sites
  sites : s.stored.spec.sites = t.stored.spec.sites
  planMaps : MapsAgree own s.planMaps t.planMaps
  pending : ∀ d d', s.pending = some d → t.pending = some d' →
    List.Forall₂ (EntryAgree own) d.sites d'.sites

namespace HubAgree

variable {own : String → Prop} {config : HubConfig} {s t s' t' : HubState}

theorem bystander {e' : HubEvent} (h : HubAgree own s t) (hs : HubState.Kept e s s')
    (ht : HubState.Kept e' t t')
    (hedit : ∀ sites, HubState.sitesAfter sites e = HubState.sitesAfter sites e') :
    HubAgree own s' t' := by
  refine ⟨?_, ?_, ?_, fun d d' hd hd' => h.pending d d' (hs.pending d hd) (ht.pending d' hd')⟩
  · rw [hs.entries, ht.entries]
    exact h.entries
  · rw [hs.sites, ht.sites, h.sites, hedit]
  · rw [hs.planMaps, ht.planMaps]
    exact h.planMaps

theorem commit {d d' : MultiSitePostgresStatus} (h : HubAgree own s t)
    (hd : s.pending = some d) (hd' : t.pending = some d') :
    HubAgree own
      { s.storeStatus (mergeReconciledStatus s.stored.status d) with pending := none }
      { t.storeStatus (mergeReconciledStatus t.stored.status d') with pending := none } where
  entries := mergeReconciledSites_agree h.entries (h.pending d d' hd hd')
  sites := h.sites
  planMaps := h.planMaps
  pending _ _ hnone _ := by cases hnone

theorem issue {view' : MultiSitePostgres} {o' : Outcome} (h : HubAgree own s t)
    (ho : OutcomeAgree own o o') (hs : s.pending = none) (ht : t.pending = none) (writes : Nat) :
    HubAgree own (s.applyOutcome view o writes) (t.applyOutcome view' o' writes) := by
  obtain ⟨hstatus, hspec⟩ := s.applyOutcome_status view o writes
  obtain ⟨hstatus', hspec'⟩ := t.applyOutcome_status view' o' writes
  refine ⟨?_, ?_, ?_, fun d d' hd hd' => ?_⟩
  · rw [hstatus, hstatus']
    exact h.entries
  · rw [hspec, hspec']
    exact h.sites
  · rw [HubState.applyOutcome_planMaps_eq, HubState.applyOutcome_planMaps_eq, ho.plans.length_eq,
      ho.deletePlans]
    have hwritten := HubState.writePlans_agree h.planMaps (forall₂_take writes ho.plans)
    split
    · exact hwritten
    · split
      · exact fun _ => .none
      · exact hwritten
  · rw [HubState.applyOutcome_pending] at hd hd'
    split at hd
    · exact absurd hd (by rw [hs]; exact nofun)
    · split at hd'
      · exact absurd hd' (by rw [ht]; exact nofun)
      · exact ho.entries d d' hd hd'

theorem siteIndex?_agree (h : List.Forall₂ (EntryAgree own) l l') (name : String) :
    siteIndex? l name = siteIndex? l' name := by
  have hnames : l.map (·.name) = l'.map (·.name) :=
    Lists.map_eq_of_forall₂ (h.imp fun _ _ hxy => hxy.name)
  have hindex : ∀ l : List SiteRevisionStatus,
      siteIndex? l name = (l.map (·.name)).findIdx? (· = name) := by
    intro l
    rw [findIdx?_map]
    rfl
  rw [hindex, hindex, hnames]

def SameRevision (own : String → Prop) (message : PlanMessage) (x y : SiteRevisionStatus) : Prop :=
  EntryAgree own x y ∧ ∀ report, message = .progress report → x.desiredRevision = y.desiredRevision

theorem sameRevisions (h : List.Forall₂ (EntryAgree own) l l')
    (hrevisions : ∀ report, message = .progress report →
      l.map (·.desiredRevision) = l'.map (·.desiredRevision)) :
    List.Forall₂ (SameRevision own message) l l' := by
  cases message with
  | progress report =>
    exact h.mp (fun _ _ hxy hrev => ⟨hxy, fun _ _ => hrev⟩)
      (Lists.forall₂_of_map_eq (hrevisions report rfl))
  | acknowledgement ack | result applied => exact h.imp fun _ _ hxy => ⟨hxy, nofun⟩

theorem update_agree {x y : SiteRevisionStatus} (now : Time) (generation generation' : Nat)
    (h : SameRevision own message x y) :
    SameRevision own message (stampGeneration generation (message.update now x))
      (stampGeneration generation' (message.update now y)) := by
  obtain ⟨hxy, hrev⟩ := h
  have hx := message.update_spec now x
  have hy := message.update_spec now y
  refine ⟨⟨hx.name.trans (hxy.name.trans hy.name.symm), ?_⟩, fun report hreport =>
    hx.desiredRevision.trans ((hrev report hreport).trans hy.desiredRevision.symm)⟩
  have hsame : message.addressesFor x = message.addressesFor y := by
    cases message with
    | progress report =>
      unfold PlanMessage.addressesFor
      rw [hrev report rfl]
    | acknowledgement ack => rfl
    | result applied => rfl
  show AgreeOff own (message.update now x).addresses (message.update now y).addresses
  rw [hx.addresses, hy.addresses, hsame]
  exact hxy.addresses.insertAll _

theorem receive (h : HubAgree own s t) (now : Time) (registration : String)
    (hrevisions : ∀ report, message = .progress report →
      s.stored.status.sites.map (·.desiredRevision) = t.stored.status.sites.map (·.desiredRevision))
    :
    HubAgree own (s.receive now registration message) (t.receive now registration message) := by
  obtain ⟨hspec, hmaps, hpend⟩ := s.receive_kept now registration message
  obtain ⟨hspec', hmaps', hpending'⟩ := t.receive_kept now registration message
  refine ⟨?_, ?_, ?_, ?_⟩
  · have hindex := siteIndex?_agree h.entries registration
    rcases s.receive_case now registration message with ⟨hnone, heq⟩ | ⟨entry, hentry, heq⟩ <;>
      rcases t.receive_case now registration message with ⟨hnone', heq'⟩ | ⟨entry', hentry', heq'⟩
    · rw [heq, heq']
      exact h.entries
    · rw [hnone, hentry'] at hindex
      cases hindex
    · rw [hentry, hnone'] at hindex
      cases hindex
    · rw [hentry, hentry'] at hindex
      cases hindex
      rw [heq, heq']
      exact (Lists.forall₂_modify_both (sameRevisions h.entries hrevisions) entry
        fun x y hxy => update_agree now _ _ hxy).imp fun _ _ hxy => hxy.1
  · rw [hspec, hspec']
    exact h.sites
  · rw [hmaps, hmaps']
    exact h.planMaps
  · rw [hpend, hpending']
    exact h.pending

theorem progress (h : HubAgree own s t) (site : String)
    {left right : Option (Time × PlanProgress)}
    (hleft : ∀ sent ∈ left, ∀ e ∈ sent.2.addresses, own e.1)
    (hright : ∀ sent ∈ right, ∀ e ∈ sent.2.addresses, own e.1) :
    HubAgree own (s.receiveProgress site left) (t.receiveProgress site right) := by
  obtain ⟨hspec, hmaps, hpend⟩ := s.receiveProgress_kept site left
  obtain ⟨hspec', hmaps', hpending'⟩ := t.receiveProgress_kept site right
  refine ⟨?_, ?_, ?_, ?_⟩
  · have hback : List.Forall₂ (EntryAgree own) (s.receiveProgress site left).stored.status.sites
        s.stored.status.sites :=
      .flip ((s.receiveProgress_entries site hleft).imp fun _ _ hxy => hxy.symm)
    refine Lists.forall₂_trans (fun _ _ _ => .trans) hback ?_
    exact Lists.forall₂_trans (fun _ _ _ => .trans) h.entries
      (t.receiveProgress_entries site hright)
  · rw [hspec, hspec']
    exact h.sites
  · rw [hmaps, hmaps']
    exact h.planMaps
  · rw [hpend, hpending']
    exact h.pending

end HubAgree

/-! ## Every run -/

namespace TwinState

/-- What both runs keep, with every pair of versions a reconcile may still work on. -/
structure Alike (own : String → Prop) (w : TwinState) : Prop where
  hubs : HubAgree own w.left w.right
  left : w.left.Counted
  right : w.right.Counted
  moments : ∀ views ∈ w.moments,
    List.Forall₂ (EntryAgree own) views.1.status.sites views.2.status.sites ∧
      Numbered views.1.status ∧ Numbered views.2.status
  issued : ∀ round ∈ w.issued, List.Forall₂ (PlanAgree own) round.1 round.2

namespace Alike

variable {own : String → Prop} {config : HubConfig} {site : String} {w : TwinState}

theorem next (h : Alike own w) (hhubs : HubAgree own left right) (hleft : left.Counted)
    (hright : right.Counted) : Alike own (w.next left right) where
  hubs := hhubs
  left := hleft
  right := hright
  issued := h.issued
  moments views hviews := by
    rcases mem_cons.mp hviews with rfl | hold
    · exact ⟨hhubs.entries, hleft.stored, hright.stored⟩
    · exact h.moments views hold

theorem issue {views : MultiSitePostgres × MultiSitePostgres} {reads : HubReads}
    {fails : String → Bool} {now : Time} {writes : Nat} (h : Alike own w)
    (hviews : views ∈ w.moments) (hupgrades : w.right.upgrades = w.left.upgrades)
    (hlevel : Level own (w.left.readsOf reads) (w.right.readsOf reads) views.1 views.2)
    (hleft : w.left.pending = none) (hright : w.right.pending = none) :
    let o := w.left.outcome config views.1 reads fails now
    let o' := w.right.outcome config views.2 reads fails now
    Alike own { w.next (w.left.applyOutcome views.1 o writes)
      (w.right.applyOutcome views.2 o' writes) with
        issued := (o.plans.take writes, o'.plans.take writes) :: w.issued } := by
  intro o o'
  obtain ⟨hentries, hnumbered, hnumbered'⟩ := h.moments views hviews
  have hreads : w.right.readsOf reads =
      { w.left.readsOf reads with planMaps := w.right.planMaps } := HubState.readsOf_eq hupgrades
  have hagree : OutcomeAgree own o o' := by
    show OutcomeAgree own (reconcile _ _ _ _ _ _) (reconcile _ (w.right.readsOf reads) _ _ _ _)
    rw [hreads] at hlevel ⊢
    exact reconcile_agree config.backups fails hlevel hnumbered hnumbered' h.hubs.planMaps hentries
  have hnext : Alike own (w.next (w.left.applyOutcome views.1 o writes)
      (w.right.applyOutcome views.2 o' writes)) := by
    refine h.next (h.hubs.issue hagree hleft hright writes) (h.left.issue fun d hd => ?_)
      (h.right.issue fun d hd => ?_)
    · exact (reconcile_case ..).numbered hd hnumbered
    · exact (reconcile_case ..).numbered hd hnumbered'
  refine ⟨hnext.hubs, hnext.left, hnext.right, hnext.moments, fun round hround => ?_⟩
  rcases mem_cons.mp hround with rfl | hold
  · exact forall₂_take writes hagree.plans
  · exact h.issued round hold

theorem bystander {e' : HubEvent} (h : Alike own w) (hleft : w.left.step config e = some left)
    (hright : w.right.step config e' = some right) (he : HubState.bystander e = true)
    (he' : HubState.bystander e' = true)
    (hedit : ∀ sites, HubState.sitesAfter sites e = HubState.sitesAfter sites e') :
    Alike own (w.next left right) := by
  have hcase := HubState.step_case hleft
  have hcase' := HubState.step_case hright
  exact h.next (h.hubs.bystander (hcase.kept he) (hcase'.kept he') hedit)
    (h.left.bystander hcase he) (h.right.bystander hcase' he')

theorem commit (h : Alike own w) (hleft : w.left.step config .commit = some left)
    (hright : w.right.step config .commit = some right) : Alike own (w.next left right) := by
  cases HubState.step_case hleft with
  | @commit d hd =>
    cases HubState.step_case hright with
    | @commit d' hd' =>
      exact h.next (h.hubs.commit hd hd')
        ⟨h.left.stored.merged (h.left.pending d hd), fun _ hnone => by cases hnone⟩
        ⟨h.right.stored.merged (h.right.pending d' hd'), fun _ hnone => by cases hnone⟩

theorem step {e : TwinEvent} {t : TwinState} (h : Alike own w) (hok : w.confined own e)
    (hstep : w.step config site e = some t) : Alike own t := by
  cases e with
  | issue views reads fails now writes =>
    rw [TwinState.step] at hstep
    split at hstep
    · rename_i hviews
      obtain ⟨left, hleft, hstep⟩ := Option.bind_eq_some_iff.mp hstep
      obtain ⟨right, hright, hstep⟩ := Option.bind_eq_some_iff.mp hstep
      obtain rfl := Option.some.inj hstep
      cases HubState.step_case hleft with
      | issue _ hpend =>
        cases HubState.step_case hright with
        | issue _ hpending' => exact h.issue hviews hok.1 hok.2 hpend hpending'
    · cases hstep
  | upgrade name views reads now writes =>
    rw [TwinState.step] at hstep
    split at hstep
    · obtain ⟨left, hleft, hstep⟩ := Option.bind_eq_some_iff.mp hstep
      obtain ⟨right, hright, hstep⟩ := Option.bind_eq_some_iff.mp hstep
      obtain rfl := Option.some.inj hstep
      exact h.bystander hleft hright rfl rfl fun _ => rfl
    · cases hstep
  | message registration now message =>
    obtain rfl := Option.some.inj hstep
    refine h.next (h.hubs.receive now registration fun report hreport => ?_)
      (h.left.receive now registration message) (h.right.receive now registration message)
    subst hreport
    exact hok
  | progress left right =>
    obtain rfl := Option.some.inj hstep
    exact h.next (h.hubs.progress site hok.1 hok.2) (h.left.receiveProgress site left)
      (h.right.receiveProgress site right)
  | both event =>
    rw [TwinState.step] at hstep
    split at hstep
    · rename_i hshared
      obtain ⟨left, hleft, hstep⟩ := Option.bind_eq_some_iff.mp hstep
      obtain ⟨right, hright, hstep⟩ := Option.bind_eq_some_iff.mp hstep
      obtain rfl := Option.some.inj hstep
      by_cases hcommit : event = .commit
      · subst hcommit
        exact h.commit hleft hright
      · have hbystander : HubState.bystander event = true := by
          cases event with
          | commit => exact absurd rfl hcommit
          | issue | message => cases hshared
          | _ => rfl
        exact h.bystander hleft hright hbystander hbystander fun _ => rfl
    · cases hstep

theorem initial (h : Initial config w) : Alike own w := by
  have hcounted : w.left.Counted := by
    refine ⟨⟨h.initial.activeRevision.ge, fun hissued => ?_⟩, fun d hd => ?_⟩
    · exact absurd h.initial.planFingerprint hissued
    · rw [h.initial.pending] at hd
      cases hd
  have hsame : ∀ l : List SiteRevisionStatus, List.Forall₂ (EntryAgree own) l l :=
    fun l => forall₂_same.mpr fun x _ => .refl x
  refine ⟨?_, hcounted, h.right ▸ hcounted, fun views hviews => ?_, fun round hround => ?_⟩
  · rw [h.right]
    refine ⟨hsame _, rfl, fun name => ?_, fun d d' hd _ => ?_⟩
    · rw [h.initial.planMaps]
      exact .none
    · rw [h.initial.pending] at hd
      cases hd
  · rw [h.moments] at hviews
    obtain rfl := mem_singleton.mp hviews
    exact ⟨hsame _, hcounted.stored, hcounted.stored⟩
  · rw [h.issued] at hround
    cases hround

end Alike

open Machine

/-- A site that reports its own members only, and holds nothing up, changes neither the
addresses of other sites' members in any plan nor where their directives go. -/
theorem apart_of_reach {config : HubConfig} {site : String} {own : String → Prop} {w : TwinState}
    (h : Reach (TwinState.step config site) (Initial config) (confined own) w) :
    w.Apart own := by
  have halike : Alike own w :=
    h.invariant (fun _ hinitial => .initial hinitial)
      fun _ _ _ halike hok hstep => halike.step hok hstep
  refine ⟨fun round hround => ?_, sameTargets_of_agree halike.hubs.sites halike.hubs.entries⟩
  exact (halike.issued round hround).imp fun _ _ hplans => ⟨hplans.site, hplans.addresses⟩

/-! ## Two runs of `solo` -/

open Sample

def vicMembers : List String := ["etcd-production-vic-0", vic0, "pgpool-production-vic"]

def ofVic (member : String) : Prop := member ∈ vicMembers
deriving Decidable

def created : TwinState where
  left := Sample.created solo
  right := Sample.created solo
  moments := [(solo, solo)]

theorem created_initial : Initial hub created := ⟨solo_initial, rfl, rfl, rfl⟩

def reconcile (w : TwinState) : TwinEvent :=
  .issue (w.left.stored, w.right.stored) reads (fun _ => false) 0 10

def commit (_ : TwinState) : TwinEvent := .both .commit

def report (s : HubState) (addresses : List (String × String)) : PlanProgress where
  instanceUID := s.stored.uid
  revision := s.stored.status.activeRevision
  phase := "Applying"
  addresses := addresses

def vicReports (network network' : String) (more : List (String × String)) (w : TwinState) :
    TwinEvent :=
  let addresses (network : String) := vicMembers.map fun member => (member, network)
  .progress (some (0, report w.left (addresses network)))
    (some (0, report w.right (addresses network' ++ more)))

def nswReports (w : TwinState) : TwinEvent :=
  .message "production-nsw" 0 (.progress (report w.left [(nsw0, "10.2.0.2")]))

/-- In the second run the first site also reports a member of the second one. -/
def strayed : TwinState :=
  reached (TwinState.step hub "production-vic") anyStep created
    [reconcile, commit, vicReports "10.1.0.1" "10.1.0.1" [(nsw0, "10.9.9.9")], reconcile,
      commit, nswReports]

def Strays (w : TwinState) : Prop :=
  (∃ round ∈ w.issued, ∃ p ∈ round.1.zip round.2,
      p.1.memberAddresses.get? nsw0 ≠ p.2.memberAddresses.get? nsw0) ∧
    directiveTargetsSite (ledBy w.left.stored nsw0 []) "Database" "production-nsw" = true ∧
    directiveTargetsSite (ledBy w.right.stored nsw0 []) "Database" "production-nsw" = false
deriving Decidable

theorem strayed_reach : Reach (TwinState.step hub "production-vic") (Initial hub)
      anyStep strayed ∧ Strays strayed :=
  played (P := Strays) created_initial (by decide +kernel)

/-- The plans of the second run place the member where the other site says, and its
directives go to that site. -/
theorem strayed_interferes : Reach (TwinState.step hub "production-vic") (Initial hub)
        anyStep strayed ∧
      (¬ ∀ round ∈ strayed.issued, List.Forall₂ (fun p q => p.site = q.site ∧
        AgreeOff ofVic p.memberAddresses q.memberAddresses) round.1 round.2) ∧
      ¬ SameTargets ofVic strayed.left.stored strayed.right.stored := by
  obtain ⟨hreach, ⟨round, hround, p, hp, haddress⟩, hleft, hright⟩ := strayed_reach
  have hnsw : ¬ ofVic nsw0 := by decide
  refine ⟨hreach, fun hagree => ?_, fun hsame => ?_⟩
  · exact haddress ((forall₂_zip (hagree round hround) hp).2 nsw0 hnsw)
  · have hdatabase := (hsame nsw0 [] hnsw nofun "production-nsw").1 "Database"
    rw [hleft, hright] at hdatabase
    cases hdatabase

instance (i j : MultiSitePostgres) : Decidable (SameRequest i j) :=
  decidable_of_iff (j = { i with status := j.status, finalizer := j.finalizer })
    ⟨fun h => ⟨_, _, h⟩, fun ⟨_, _, h⟩ => by rw [h]⟩

instance (i j : MultiSitePostgres) : Decidable (SameRemoval i j) :=
  decidable_of_iff _ (sameRemoval_iff i j).symm

instance {p : String → Prop} [DecidablePred p] : Decidable (∀ member, ofVic member → p member) :=
  inferInstanceAs (Decidable (∀ member ∈ vicMembers, p member))

instance (reads reads' : HubReads) (i j : MultiSitePostgres) :
    Decidable (SameMoves ofVic reads reads' i j) :=
  decidable_of_iff _ (sameMoves_iff ofVic reads reads' i j).symm

instance (reads reads' : HubReads) (i j : MultiSitePostgres) :
    Decidable (Level ofVic reads reads' i j) :=
  decidable_of_iff _ (level_iff ofVic reads reads' i j).symm

instance (w : TwinState) (e : TwinEvent) : Decidable (confined ofVic w e) := by
  unfold confined
  split <;> infer_instance

/-- The first site reports its own members, under other addresses in the second run. -/
def settledApart : TwinState :=
  reached (TwinState.step hub "production-vic") (confined ofVic) created
    [reconcile, commit, vicReports "10.1.0.1" "10.1.7.7" [], nswReports, reconcile,
      commit]

/-- The plans differ in the address of a member of the first site. -/
def Differs (w : TwinState) : Prop :=
  ∃ round ∈ w.issued, ∃ p ∈ round.1.zip round.2,
    p.1.memberAddresses.get? vic0 ≠ p.2.memberAddresses.get? vic0
deriving Decidable

theorem settledApart_reach : Reach (TwinState.step hub "production-vic") (Initial hub)
      (confined ofVic) settledApart ∧ Differs settledApart :=
  played (P := Differs) created_initial (by decide +kernel)

theorem settledApart_apart : Differs settledApart ∧ settledApart.Apart ofVic :=
  ⟨settledApart_reach.2, apart_of_reach settledApart_reach.1⟩

end TwinState

end Mspsql
