import Mspsql.Hub.Ownership

/-!
# What the entries of the sites record

Two writers share `Status.Sites`: the instance controller, whose status write merges a
status computed from an earlier read, and the control server, which records messages as they
arrive.  The revisions in an entry stay ordered and are backed by results received on
streams, as long as a result is recorded for the site whose stream it came on, and no edit
brings back a site that a status write is about to drop.
-/

namespace Mspsql

open List

variable {x y : SiteRevisionStatus} {received : List Receipt} {e : HubEvent}
  {d : MultiSitePostgresStatus} {v w : Inbox} {config : HubConfig}

/-- The fields of an entry that only the control server writes. -/
structure SameReports (x y : SiteRevisionStatus) : Prop where
  acknowledgedRevision : y.acknowledgedRevision = x.acknowledgedRevision
  appliedRevision : y.appliedRevision = x.appliedRevision
  addresses : y.addresses = x.addresses
  conditions : y.conditions = x.conditions
  primary : y.primary = x.primary
  synchronousStandbys : y.synchronousStandbys = x.synchronousStandbys
  topologyObservedAt : y.topologyObservedAt = x.topologyObservedAt

theorem SameReports.refl (x : SiteRevisionStatus) : SameReports x x :=
  ⟨rfl, rfl, rfl, rfl, rfl, rfl, rfl⟩

theorem SameReports.trans {z : SiteRevisionStatus} (h : SameReports x y) (h' : SameReports y z) :
    SameReports x z :=
  ⟨h'.acknowledgedRevision.trans h.acknowledgedRevision,
    h'.appliedRevision.trans h.appliedRevision, h'.addresses.trans h.addresses,
    h'.conditions.trans h.conditions, h'.primary.trans h.primary,
    h'.synchronousStandbys.trans h.synchronousStandbys,
    h'.topologyObservedAt.trans h.topologyObservedAt⟩

theorem SameReports.symm (h : SameReports x y) : SameReports y x :=
  ⟨h.acknowledgedRevision.symm, h.appliedRevision.symm, h.addresses.symm, h.conditions.symm,
    h.primary.symm, h.synchronousStandbys.symm, h.topologyObservedAt.symm⟩

/-- A plan result, the registration on whose stream it was received, and the entries at that
moment. -/
structure Receipt where
  registration : String
  revision : Int
  sites : List SiteRevisionStatus
deriving DecidableEq

/-- The applied revision of an entry was reported on the stream of the entry's site while it
was the desired one. -/
def Receipted (received : List Receipt) (e : SiteRevisionStatus) : Prop :=
  0 < e.appliedRevision → ∃ r ∈ received, r.revision = e.appliedRevision ∧
    ∃ x ∈ r.sites, x.name = e.name ∧ x.siteRegistrationRef = r.registration ∧
      x.desiredRevision = r.revision
deriving Decidable

/-- What holds of an entry under an active revision.  An entry without a name is never
addressed, since no registration has the empty name. -/
structure Accounted (received : List Receipt) (active : Int) (e : SiteRevisionStatus) : Prop where
  applied : e.appliedRevision ≤ e.desiredRevision
  desired : e.desiredRevision ≤ active
  receipted : Receipted received e
  untouched : e.name = "" → SameReports {} e

theorem Accounted.mono {received' : List Receipt} {active active' : Int} {e : SiteRevisionStatus}
    (h : Accounted received active e) (hreceived : ∀ r ∈ received, r ∈ received')
    (hactive : active ≤ active') :
    Accounted received' active' e := by
  refine ⟨h.applied, h.desired.trans hactive, fun hpos => ?_, h.untouched⟩
  obtain ⟨r, hr, hrest⟩ := h.receipted hpos
  exact ⟨r, hreceived r hr, hrest⟩

/-- An entry with other plans and the same reports. -/
theorem Accounted.replanned {active active' : Int} (h : Accounted received active x)
    (hsame : SameReports x y) (hname : y.name = x.name)
    (happlied : x.appliedRevision ≤ y.desiredRevision) (hdesired : y.desiredRevision ≤ active') :
    Accounted received active' y := by
  refine ⟨hsame.appliedRevision ▸ happlied, hdesired, ?_,
    fun hempty => (h.untouched (hname ▸ hempty)).trans hsame⟩
  unfold Receipted
  rw [hsame.appliedRevision, hname]
  exact h.receipted

theorem previousSiteStatus_cases (entries : List SiteRevisionStatus) (name : String) :
    (previousSiteStatus entries name = {} ∧ name ∉ entries.map (·.name)) ∨
      previousSiteStatus entries name ∈ entries ∧
        (previousSiteStatus entries name).name = name := by
  rcases hfind : entries.find? (fun s => s.name = name) with _ | e
  · refine .inl ⟨by rw [previousSiteStatus, hfind]; rfl, fun hmem => ?_⟩
    obtain ⟨e, he, hname⟩ := mem_map.mp hmem
    exact find?_eq_none.mp hfind e he (by simpa using hname)
  · rw [previousSiteStatus, hfind]
    exact .inr ⟨mem_of_find?_eq_some hfind, by simpa using find?_some hfind⟩

theorem previousSiteStatus_of_mem {entries : List SiteRevisionStatus}
    (hnames : (entries.map (·.name)).Nodup) (hx : x ∈ entries) :
    previousSiteStatus entries x.name = x := by
  rw [previousSiteStatus, Lists.find?_of_nodup hnames hx]
  rfl

theorem mergeReconciledSites_mem {current desired : List SiteRevisionStatus}
    (hy : y ∈ mergeReconciledSites current desired) :
    ∃ wanted ∈ desired, y.name = wanted.name ∧ y.desiredRevision = wanted.desiredRevision ∧
      (SameReports wanted y ∧ (wanted.name = "" ∨ wanted.name ∉ current.map (·.name)) ∨
        wanted.name ≠ "" ∧ ∃ x ∈ current, x.name = wanted.name ∧ SameReports x y) := by
  obtain ⟨wanted, hwanted, rfl⟩ := mem_map.mp hy
  refine ⟨wanted, hwanted, rfl, rfl, ?_⟩
  rcases previousSiteStatus_cases current wanted.name with ⟨hnone, hnot⟩ | ⟨hmem, hname⟩
  · rw [hnone]
    exact .inl ⟨⟨rfl, rfl, rfl, rfl, rfl, rfl, rfl⟩, .inr hnot⟩
  by_cases hempty : (previousSiteStatus current wanted.name).name = ""
  · rw [if_pos hempty]
    exact .inl ⟨⟨rfl, rfl, rfl, rfl, rfl, rfl, rfl⟩, .inl (hname.symm.trans hempty)⟩
  · rw [if_neg hempty]
    exact .inr ⟨hname ▸ hempty, _, hmem, hname, ⟨rfl, rfl, rfl, rfl, rfl, rfl, rfl⟩⟩

/-! ## The machine -/

structure Inbox where
  hub : HubState
  received : List Receipt := []
deriving DecidableEq

namespace Inbox

def aboutPlans : PlanMessage → Bool
  | .result result => result.operationUID = ""
  | _ => true

def step (config : HubConfig) (w : Inbox) : HubEvent → Option Inbox
  | .message registration now message =>
    if registration ≠ "" ∧ aboutPlans message then
      let received := match message with
        | .result result =>
          ⟨registration, result.appliedRevision, w.hub.stored.status.sites⟩ :: w.received
        | _ => w.received
      match receivePlanMessage now registration message w.hub.stored with
      | .ok updated => some { hub := w.hub.store updated, received := received }
      | .error _ => some { w with received := received }
    else none
  | e => (w.hub.step config e).map fun hub => { w with hub := hub }

/-- Every reconcile starts from the stored instance. -/
def latest (w : Inbox) : HubEvent → Prop
  | .issue view _ _ _ _ => view = w.hub.stored
  | _ => True

instance (w : Inbox) : Decidable (latest w e) := by
  unfold latest
  cases_type HubEvent <;> infer_instance

/-- Besides, a result is recorded for the site whose stream it came on, and an edit brings no
site back that the status write in progress drops. -/
def attributed (w : Inbox) (e : HubEvent) : Prop :=
  latest w e ∧ match e with
    | .message registration _ (.result _) => ∀ x ∈ w.hub.stored.status.sites,
        x.name = registration → x.siteRegistrationRef = registration
    | .edit spec => ∀ d ∈ w.hub.pending, ∀ x ∈ w.hub.stored.status.sites,
        x.name ∈ spec.sites.map (·.name) → x.name ∈ d.sites.map (·.name)
    | _ => True

instance (w : Inbox) : Decidable (attributed w e) := by
  unfold attributed
  cases_type* HubEvent PlanMessage <;> infer_instance

def Initial (config : HubConfig) (w : Inbox) : Prop :=
  HubState.Initial config w.hub ∧ w.received = []

/-- The site has been part of the specification in all these versions. -/
def Stays (name : String) (versions : List MultiSitePostgres) : Prop :=
  ∀ v ∈ versions, name ∈ v.spec.sites.map (·.name)

structure Consistent (w : Inbox) : Prop where
  bounds : ∀ x ∈ w.hub.stored.status.sites, x.appliedRevision ≤ x.desiredRevision ∧
    x.desiredRevision ≤ w.hub.stored.status.activeRevision
  active : w.hub.versions.Pairwise fun newer older =>
    older.status.activeRevision ≤ newer.status.activeRevision
  /-- While a site stays in the specification its applied revision does not decrease. -/
  applied : ∀ newer older rest name, w.hub.versions = newer ++ older :: rest →
    Stays name (newer ++ [older]) → ∀ x ∈ older.status.sites, x.name = name →
      ∃ y ∈ w.hub.stored.status.sites, y.name = name ∧ x.appliedRevision ≤ y.appliedRevision
  receipts : ∀ x ∈ w.hub.stored.status.sites, Receipted w.received x
  /-- The status write of a reconcile leaves alone what the server has recorded. -/
  statusWrite : ∀ d, w.hub.pending = some d → ∀ x ∈ w.hub.stored.status.sites,
    ∀ y ∈ (mergeReconciledStatus w.hub.stored.status d).sites, y.name = x.name → SameReports x y

/-! ## The invariant -/

/-- A status that a reconcile is about to merge. -/
structure Mergeable (received : List Receipt) (i : MultiSitePostgres)
    (d : MultiSitePostgresStatus) : Prop where
  active : i.status.activeRevision ≤ d.activeRevision
  names : (d.sites.map (·.name)).Nodup
  entries : ∀ y ∈ d.sites, Accounted received d.activeRevision y
  desired : ∀ y ∈ d.sites, ∀ x ∈ i.status.sites, x.name = y.name →
    x.desiredRevision ≤ y.desiredRevision
  keeps : ∀ x ∈ i.status.sites, x.name ∈ i.spec.sites.map (·.name) → x.name ∈ d.sites.map (·.name)

theorem Mergeable.congr {i j : MultiSitePostgres} (h : Mergeable received i d)
    (hactive : j.status.activeRevision = i.status.activeRevision)
    (hsites : j.status.sites = i.status.sites)
    (hkeeps : ∀ x ∈ i.status.sites, x.name ∈ j.spec.sites.map (·.name) →
      x.name ∈ d.sites.map (·.name)) : Mergeable received j d := by
  refine ⟨hactive ▸ h.active, h.names, h.entries, ?_, ?_⟩
  · rw [hsites]
    exact h.desired
  · rw [hsites]
    exact hkeeps

structure Tallied (w : Inbox) : Prop where
  nonneg : 0 ≤ w.hub.stored.status.activeRevision
  specNames : (w.hub.stored.spec.sites.map (·.name)).Nodup
  names : (w.hub.stored.status.sites.map (·.name)).Nodup
  entries : ∀ x ∈ w.hub.stored.status.sites,
    Accounted w.received w.hub.stored.status.activeRevision x
  pending : ∀ d, w.hub.pending = some d → Mergeable w.received w.hub.stored d
  newest : ∃ rest, w.hub.versions = w.hub.stored :: rest
  active : w.hub.versions.Pairwise fun newer older =>
    older.status.activeRevision ≤ newer.status.activeRevision
  applied : ∀ newer older rest name, w.hub.versions = newer ++ older :: rest →
    Stays name (newer ++ [older]) → ∀ x ∈ older.status.sites, x.name = name →
      ∃ y ∈ w.hub.stored.status.sites, y.name = name ∧ x.appliedRevision ≤ y.appliedRevision

namespace Tallied

theorem consistent (h : Tallied w) : Consistent w where
  bounds x hx := ⟨(h.entries x hx).applied, (h.entries x hx).desired⟩
  active := h.active
  applied := h.applied
  receipts x hx := (h.entries x hx).receipted
  statusWrite d hd x hx y hy hname := by
    obtain ⟨wanted, hwanted, hyname, -, hreports⟩ := mergeReconciledSites_mem hy
    rcases hreports with ⟨hsame, hempty | hnot⟩ | ⟨-, x', hx', hname', hsame⟩
    · -- neither entry was ever addressed
      have hstored := (h.entries x hx).untouched (hname.symm.trans (hyname.trans hempty))
      exact hstored.symm.trans
        ((((h.pending d hd).entries wanted hwanted).untouched hempty).trans hsame)
    · exact absurd (mem_map.mpr ⟨x, hx, hname.symm.trans hyname⟩) hnot
    obtain rfl := inj_on_of_nodup_map h.names hx' hx (hname'.trans (hyname.symm.trans hname))
    exact hsame

theorem initial (h : Initial config w) : Tallied w := by
  obtain ⟨hinit, -⟩ := h
  have hnone : ∀ x, x ∉ w.hub.stored.status.sites := by
    rw [hinit.sites]
    exact fun _ => not_mem_nil
  refine ⟨by rw [hinit.activeRevision], hinit.admitted.names_nodup, ?_,
    fun x hx => absurd hx (hnone x), fun d hd => ?_, ⟨[], hinit.versions⟩, ?_, ?_⟩
  · rw [hinit.sites]
    exact nodup_nil
  · rw [hinit.pending] at hd
    cases hd
  · rw [hinit.versions]
    exact pairwise_singleton _ _
  intro newer older rest name hvers _ x hx _
  rw [hinit.versions] at hvers
  have holder : older ∈ [w.hub.stored] :=
    hvers ▸ mem_append_right _ mem_cons_self
  rw [mem_singleton.mp holder] at hx
  exact absurd hx (hnone x)

/-- The rule for all steps: what has to be shown of the stored instance and of the status in
progress. -/
theorem advance (h : Tallied w)
    (hvers : v.hub.stored = w.hub.stored ∧ v.hub.versions = w.hub.versions ∨
      v.hub.versions = v.hub.stored :: w.hub.versions)
    (hactive : w.hub.stored.status.activeRevision ≤ v.hub.stored.status.activeRevision)
    (hspec : (v.hub.stored.spec.sites.map (·.name)).Nodup)
    (hnames : (v.hub.stored.status.sites.map (·.name)).Nodup)
    (hentries : ∀ x ∈ v.hub.stored.status.sites,
      Accounted v.received v.hub.stored.status.activeRevision x)
    (hpend : ∀ d, v.hub.pending = some d → Mergeable v.received v.hub.stored d)
    (hgrows : ∀ x ∈ w.hub.stored.status.sites, x.name ∈ w.hub.stored.spec.sites.map (·.name) →
      ∃ y ∈ v.hub.stored.status.sites, y.name = x.name ∧ x.appliedRevision ≤ y.appliedRevision) :
    Tallied v := by
  have hnonneg := h.nonneg
  obtain ⟨before, hbefore⟩ := h.newest
  refine ⟨by omega, hspec, hnames, hentries, hpend, ?_, ?_, ?_⟩
  · rcases hvers with ⟨hstored, hsame⟩ | hnew
    · exact ⟨before, by rw [hsame, hstored, hbefore]⟩
    · exact ⟨_, hnew⟩
  · rcases hvers with ⟨-, hsame⟩ | hnew
    · rw [hsame]
      exact h.active
    rw [hnew]
    refine pairwise_cons.mpr ⟨fun older holder => ?_, h.active⟩
    have hpairs := h.active
    rw [hbefore] at holder hpairs
    rcases mem_cons.mp holder with rfl | holder
    · exact hactive
    · exact ((pairwise_cons.mp hpairs).1 older holder).trans hactive
  · intro newer older rest name hsplit hstays x hx hname
    rcases hvers with ⟨hstored, hsame⟩ | hnew
    · rw [hstored]
      exact h.applied newer older rest name (hsame ▸ hsplit) hstays x hx hname
    rw [hnew] at hsplit
    cases newer with
    | nil =>
      obtain ⟨hstored, -⟩ := cons_eq_cons.mp hsplit
      rw [hstored]
      exact ⟨x, hx, hname, le_refl _⟩
    | cons _ newer =>
      obtain ⟨-, hsplit⟩ := cons_eq_cons.mp hsplit
      have hstays' : Stays name (newer ++ [older]) :=
        fun v hv => hstays v (mem_cons_of_mem _ hv)
      obtain ⟨y, hy, hyname, hle⟩ := h.applied newer older rest name hsplit hstays' x hx hname
      -- the version before this step is one of those the site stays in
      have hmem : w.hub.stored ∈ newer ++ [older] := by
        rw [hbefore] at hsplit
        cases newer with
        | nil => exact mem_singleton.mpr (cons_eq_cons.mp hsplit).1
        | cons v newer =>
          exact mem_append_left _ (by rw [(cons_eq_cons.mp hsplit).1]; simp)
      obtain ⟨z, hz, hzname, hle'⟩ := hgrows y hy (hyname ▸ hstays' _ hmem)
      exact ⟨z, hz, hzname.trans hyname, hle.trans hle'⟩

/-! ## Every step -/

theorem mergeable_recorded (h : Tallied w) {revised : MultiSitePostgres}
    {fingerprint : PlanFingerprint} (hrecords : RecordsPlans revised fingerprint d)
    (hsites : revised.status.sites = w.hub.stored.status.sites)
    (hspec : revised.spec = w.hub.stored.spec)
    (hactive : w.hub.stored.status.activeRevision ≤ revised.status.activeRevision) :
    Mergeable w.received w.hub.stored d := by
  have hnames : d.sites.map (·.name) = w.hub.stored.spec.sites.map (·.name) :=
    hspec ▸ hrecords.names
  have hnonneg := h.nonneg
  obtain ⟨phases, hd⟩ := hrecords.sites
  refine ⟨hrecords.activeRevision ▸ hactive, hnames ▸ h.specNames, fun y hy => ?_,
    fun y hy x hx _ => ?_, fun x _ hx => hnames ▸ hx⟩
  · rw [hd] at hy
    obtain ⟨site, -, rfl⟩ := mem_map.mp hy
    rw [hrecords.activeRevision]
    have hprevious := previousSiteStatus_cases w.hub.stored.status.sites site.name
    rw [← hsites] at hprevious
    rcases hprevious with ⟨hnone, -⟩ | ⟨hmem, hname⟩
    · have hempty : SameReports {} { siteStatusFor revised site with phase := phases site } := by
        unfold siteStatusFor
        rw [hnone]
        exact ⟨rfl, rfl, rfl, rfl, rfl, rfl, rfl⟩
      refine ⟨?_, le_refl _, fun hpos => ?_, fun _ => hempty⟩
      · rw [hempty.appliedRevision]
        exact hnonneg.trans hactive
      · rw [hempty.appliedRevision] at hpos
        cases hpos
    · have hold : Accounted w.received w.hub.stored.status.activeRevision
          (previousSiteStatus revised.status.sites site.name) := h.entries _ (hsites ▸ hmem)
      exact hold.replanned ⟨rfl, rfl, rfl, rfl, rfl, rfl, rfl⟩ hname.symm
        ((hold.applied.trans hold.desired).trans hactive) (le_refl _)
  · rw [hd] at hy
    obtain ⟨site, -, rfl⟩ := mem_map.mp hy
    exact (h.entries x hx).desired.trans hactive

theorem mergeable_outcome (h : Tallied w) {reads : HubReads} {now : Time} {o : Outcome}
    (hcase : OutcomeCase reads now w.hub.stored o) (hd : o.status = some d) :
    Mergeable w.received w.hub.stored d := by
  have hnext := nextRevision_eq h.nonneg
  cases hcase with
  | quiet _ status =>
    have hkeeps := status d hd
    refine ⟨hkeeps.activeRevision.ge, ?_, ?_, ?_, ?_⟩
    · rw [hkeeps.sites]
      exact h.names
    · rw [hkeeps.sites, hkeeps.activeRevision]
      exact h.entries
    · intro y hy x hx hname
      rw [hkeeps.sites] at hy
      rw [inj_on_of_nodup_map h.names hx hy hname]
    · intro x hx _
      rw [hkeeps.sites]
      exact mem_map_of_mem hx
  | issued prepared inputs _ _ _ observed _ _ status =>
    refine h.mergeable_recorded (status d hd).2 ?_ ?_ ?_
    · rw [withRevision_sites]
      exact MultiSitePostgres.sites_of_core observed.core
    · rw [withRevision_spec]
      exact MultiSitePostgres.spec_of_core observed.core
    have hmoves := withRevision_activeRevision prepared inputs
    rw [observed.keepsPlans.activeRevision] at hmoves
    split at hmoves <;> omega
  | deletion _ revised hrevised _ status =>
    subst hrevised
    refine h.mergeable_recorded (status d hd).2 rfl rfl ?_
    dsimp only
    omega

theorem message (h : Tallied w) {registration : String} {now : Time} {message : PlanMessage}
    {entry : Nat} (hne : registration ≠ "")
    (hfound : siteIndex? w.hub.stored.status.sites registration = some entry)
    (hreceived : ∀ r ∈ w.received, r ∈ received)
    (hresult : ∀ result, message = .result result → ⟨registration, result.appliedRevision,
      w.hub.stored.status.sites⟩ ∈ received ∧ ∀ x ∈ w.hub.stored.status.sites, x.name =
      registration → x.siteRegistrationRef = registration) :
    Tallied { hub := w.hub.storeStatus { w.hub.stored.status with
                sites := w.hub.stored.status.sites.modify entry fun site =>
                  stampGeneration w.hub.stored.generation (message.update now site) }
              received := received } := by
  have hupdate := message.update_spec now
  have hnames : (w.hub.stored.status.sites.modify entry fun site =>
      stampGeneration w.hub.stored.generation (message.update now site)).map (·.name) =
        w.hub.stored.status.sites.map (·.name) :=
    Lists.map_modify fun site => (hupdate site).name
  have haddressed : ∀ site, w.hub.stored.status.sites[entry]? = some site →
      site ∈ w.hub.stored.status.sites ∧ site.name = registration := by
    intro site hsite
    have hname := siteIndex?_some hfound
    rw [hsite] at hname
    exact ⟨mem_of_getElem? hsite, Option.some.inj hname⟩
  refine h.advance (.inr rfl) (le_refl _) h.specNames (hnames ▸ h.names) ?_ ?_ ?_
  · intro x hx
    rcases Lists.mem_modify hx with hx | ⟨site, hsite, rfl⟩
    · exact (h.entries x hx).mono hreceived (le_refl _)
    obtain ⟨hmem, hname⟩ := haddressed site hsite
    have hold := h.entries site hmem
    have hkept : (stampGeneration w.hub.stored.generation (message.update now site)).name =
        site.name := (hupdate site).name
    have hdesired : (stampGeneration w.hub.stored.generation
        (message.update now site)).desiredRevision = site.desiredRevision :=
      (hupdate site).desiredRevision
    have happlied := (hupdate site).appliedRevision
    refine ⟨?_, hdesired ▸ hold.desired, fun hpos => ?_, fun hempty => ?_⟩
    · rw [hdesired]
      rcases happlied with hsame | ⟨result, -, hnew, hrevision⟩
      · exact hsame ▸ hold.applied
      · exact (hnew.trans hrevision).le
    · rcases happlied with hsame | ⟨result, hmessage, hnew, hrevision⟩
      · obtain ⟨r, hr, hrev, y, hy, hyname, hrest⟩ := hold.receipted (hsame ▸ hpos)
        exact ⟨r, hreceived r hr, hrev.trans hsame.symm, y, hy, hyname.trans hkept.symm, hrest⟩
      · obtain ⟨hin, href⟩ := hresult result hmessage
        exact ⟨_, hin, hnew.symm, site, hmem, hkept.symm, href site hmem hname, hrevision.symm⟩
    · exact absurd (hname.symm.trans (hkept.symm.trans hempty)) hne
  · intro d hd
    have hold := h.pending d hd
    refine ⟨hold.active, hold.names, fun y hy => (hold.entries y hy).mono hreceived (le_refl _),
      fun y hy x hx hname => ?_, fun x hx hin => ?_⟩
    · rcases Lists.mem_modify hx with hx | ⟨site, hsite, rfl⟩
      · exact hold.desired y hy x hx hname
      · exact (hupdate site).desiredRevision ▸ hold.desired y hy site (haddressed site hsite).1
          ((hupdate site).name.symm.trans hname)
    · have hmem : x.name ∈ w.hub.stored.status.sites.map (·.name) :=
        hnames ▸ mem_map_of_mem hx
      obtain ⟨x', hx', hname⟩ := mem_map.mp hmem
      exact hname ▸ hold.keeps x' hx' (hname ▸ hin)
  · intro x hx _
    rcases Lists.mem_modify_of_mem hx with hin | ⟨hsite, hin⟩
    · exact ⟨x, hin, rfl, le_refl _⟩
    refine ⟨_, hin, (hupdate x).name, ?_⟩
    rcases (hupdate x).appliedRevision with hsame | ⟨result, -, hnew, hrevision⟩
    · exact hsame.ge
    · exact (h.entries x hx).applied.trans (hnew.trans hrevision).ge

theorem commit (h : Tallied w) (hd : w.hub.pending = some d) :
    Tallied { w with hub := { w.hub.storeStatus
      (mergeReconciledStatus w.hub.stored.status d) with pending := none } } := by
  have hmerge := h.pending d hd
  have hactive := mergeReconciledStatus_activeRevision hmerge.active
  have hnames : (mergeReconciledStatus w.hub.stored.status d).sites.map (·.name) =
      d.sites.map (·.name) := mergeReconciledSites_names ..
  refine h.advance (.inr rfl) (hactive ▸ hmerge.active) h.specNames (hnames ▸ hmerge.names) ?_
    (fun _ h => by cases h) ?_
  · intro y hy
    show Accounted w.received (mergeReconciledStatus w.hub.stored.status d).activeRevision y
    rw [hactive]
    obtain ⟨wanted, hwanted, hyname, hydesired, hreports⟩ := mergeReconciledSites_mem hy
    have hnew := hmerge.entries wanted hwanted
    rcases hreports with ⟨hsame, -⟩ | ⟨-, x, hx, hname, hsame⟩
    · exact hnew.replanned hsame hyname (hydesired ▸ hnew.applied) (hydesired ▸ hnew.desired)
    · have hold := h.entries x hx
      exact hold.replanned hsame (hyname.trans hname.symm)
        (hydesired ▸ hold.applied.trans (hmerge.desired wanted hwanted x hx hname))
        (hydesired ▸ hnew.desired)
  · intro x hx hin
    have hmem : x.name ∈ (mergeReconciledStatus w.hub.stored.status d).sites.map (·.name) :=
      hnames ▸ hmerge.keeps x hx hin
    obtain ⟨y, hy, hname⟩ := mem_map.mp hmem
    exact ⟨y, hy, hname, (h.consistent.statusWrite d hd x hx y hy hname).appliedRevision.ge⟩

theorem frame {t : HubState} (h : Tallied w)
    (hvers : t.stored = w.hub.stored ∧ t.versions = w.hub.versions ∨
      t.versions = t.stored :: w.hub.versions)
    (hactive : t.stored.status.activeRevision = w.hub.stored.status.activeRevision)
    (hspec : (t.stored.spec.sites.map (·.name)).Nodup)
    (hsites : t.stored.status.sites = w.hub.stored.status.sites)
    (hpend : ∀ d, t.pending = some d → Mergeable w.received t.stored d) :
    Tallied { w with hub := t } := by
  refine h.advance hvers hactive.ge hspec (hsites ▸ h.names) ?_ hpend ?_
  · rw [hsites, hactive]
    exact h.entries
  · rw [hsites]
    exact fun x hx _ => ⟨x, hx, rfl, le_refl _⟩

end Tallied

theorem step_hub (h : w.step config e = some v)
    (he : ∀ registration now message, e ≠ .message registration now message) :
    ∃ t, w.hub.step config e = some t ∧ v = { w with hub := t } := by
  have hmap : (w.hub.step config e).map (fun hub => { w with hub := hub }) = some v := by
    cases e with
    | message => exact absurd rfl (he _ _ _)
    | _ => exact h
  obtain ⟨t, ht, rfl⟩ := Option.map_eq_some_iff.mp hmap
  exact ⟨t, ht, rfl⟩

open HubState in
theorem entries_of_bystander {s t : HubState} (h : StepCase config s e t)
    (hreconcile : isReconcile e = false)
    (he : ∀ registration now message, e ≠ .message registration now message) :
    t.stored.status.sites = s.stored.status.sites := by
  cases h with
  | issue | commit | abandon => cases hreconcile
  | upgrade => rw [applyUpgradeWrites_status]
  | message => exact absurd rfl (he _ _ _)
  | backupResult hrecords | upgradeBackupSucceeded hrecords => exact hrecords.sites
  | _ => rfl

open HubState in
theorem Tallied.step (h : Tallied w) (hok : attributed w e) (hst : w.step config e = some v) :
    Tallied v := by
  by_cases hmessage : ∃ registration now message, e = .message registration now message
  · obtain ⟨registration, now, message, rfl⟩ := hmessage
    simp only [Inbox.step] at hst
    split at hst
    · rename_i hplans
      generalize hreceived : (match message with
        | .result result => (⟨registration, result.appliedRevision,
            w.hub.stored.status.sites⟩ : Receipt) :: w.received
        | _ => w.received) = received at hst
      have hkept : ∀ r ∈ w.received, r ∈ received := by
        rw [← hreceived]
        cases message with
        | result => exact fun r => mem_cons_of_mem _
        | _ => exact fun _ => id
      split at hst
      · rename_i updated hupdated
        obtain ⟨entry, hentry, rfl⟩ := receivePlanMessage_ok hupdated
        rw [← Option.some.inj hst]
        refine h.message hplans.1 hentry hkept ?_
        rintro result rfl
        rw [← hreceived]
        exact ⟨mem_cons_self, hok.2⟩
      · rw [← Option.some.inj hst]
        refine h.advance (.inl ⟨rfl, rfl⟩) (le_refl _) h.specNames h.names ?_ ?_
          fun x hx _ => ⟨x, hx, rfl, le_refl _⟩
        · exact fun x hx => (h.entries x hx).mono hkept (le_refl _)
        intro d hd
        have hold := h.pending d hd
        exact ⟨hold.active, hold.names, fun y hy => (hold.entries y hy).mono hkept (le_refl _),
          hold.desired, hold.keeps⟩
    · cases hst
  · have hother : ∀ registration now message, e ≠ .message registration now message :=
      fun registration now message he => hmessage ⟨registration, now, message, he⟩
    obtain ⟨t, ht, rfl⟩ := step_hub hst hother
    have hcase := step_case ht
    have hvers := hcase.versions
    by_cases hreconcile : isReconcile e = false
    · obtain ⟨hpend, -, hstand⟩ := hcase.plansStand hreconcile
      have hsites := entries_of_bystander hcase hreconcile hother
      refine h.frame hvers hstand.activeRevision (hstand.names h.specNames) hsites ?_
      intro d hd
      have hold := h.pending d (hpend ▸ hd)
      refine hold.congr hstand.activeRevision hsites fun x hx hin => ?_
      by_cases hedit : ∃ spec, e = .edit spec
      · obtain ⟨spec, rfl⟩ := hedit
        cases hcase with
        | edit => exact hok.2 d (hpend ▸ hd) x hx hin
      · rw [hcase.specSites fun spec he => hedit ⟨spec, he⟩] at hin
        exact hold.keeps x hx hin
    · cases hcase with
      | @issue view reads fails now writes hview hnone =>
        obtain rfl : view = w.hub.stored := hok.1
        have hstored : ∃ f, (w.hub.applyOutcome w.hub.stored
            (w.hub.outcome config w.hub.stored reads fails now) writes).stored =
              { w.hub.stored with finalizer := f } := by
          rcases w.hub.applyOutcome_stored w.hub.stored
            (w.hub.outcome config w.hub.stored reads fails now) writes with
            ⟨hsame, -⟩ | ⟨f, hnew, -⟩
          · exact ⟨w.hub.stored.finalizer, hsame⟩
          · exact ⟨f, hnew⟩
        obtain ⟨finalizer, hstored⟩ := hstored
        refine h.frame hvers (by rw [hstored]) (by rw [hstored]; exact h.specNames)
          (by rw [hstored]) fun d hd => ?_
        rw [applyOutcome_pending] at hd
        split at hd
        · rw [hnone] at hd
          cases hd
        have hmerge := h.mergeable_outcome (reconcile_case ..) hd
        rw [hstored]
        exact hmerge.congr rfl rfl hmerge.keeps
      | commit hdesired => exact h.commit hdesired
      | abandon =>
        exact h.frame (.inl ⟨rfl, rfl⟩) rfl h.specNames rfl fun d hd => by cases hd
      | _ => exact absurd rfl hreconcile

open Machine

/-- In every run in which reconciles start from the stored instance, results are recorded for
the site whose stream they came on and no edit brings back a site that is being dropped. -/
theorem consistent_of_reach {config : HubConfig} {w : Inbox}
    (h : Reach (step config) (Initial config) attributed w) : Consistent w :=
  (h.invariant (I := Tallied) (fun _ => .initial) fun _ _ _ hinv hok hst =>
    hinv.step hok hst).consistent

/-! ## Runs -/

def after (i : MultiSitePostgres) (ok : Inbox → HubEvent → Prop) [∀ w e, Decidable (ok w e)]
    (script : List (HubState → HubEvent)) : Inbox :=
  reached (step Sample.hub) ok ⟨Sample.created i, []⟩
    (script.map fun event w => event w.hub)

open Sample

def rolledOut : Inbox := after ledger attributed (rollOut Sample.reads)

def FirstApplied (w : Inbox) : Prop :=
  w.hub.stored.status.sites.map (·.appliedRevision) = [1, 1, 1]
deriving Decidable

theorem rolledOut_reach : Reach (step Sample.hub) (Initial Sample.hub) attributed rolledOut ∧
      FirstApplied rolledOut := by
  unfold rolledOut after
  exact played (P := FirstApplied) ⟨Sample.ledger_initial, rfl⟩ (by decide +kernel)

theorem rolledOut_consistent : FirstApplied rolledOut ∧ Consistent rolledOut :=
  ⟨rolledOut_reach.2, consistent_of_reach rolledOut_reach.1⟩

/-- `ledger` with two sites that carry the name of each other's registration. -/
def crossed : MultiSitePostgres :=
  { ledger with spec := specWith [
      { vic with name := "production-nsw" }, { nsw with name := "production-vic" },
      underRegistration qld] }

theorem crossed_initial : HubState.Initial Sample.hub (Sample.created crossed) :=
  Sample.created_initial (by decide +kernel) rfl rfl

/-- The site with registration `production-vic` reports its first plan as applied. -/
def misattributed : Inbox :=
  after crossed latest [reconcileWith Sample.reads, Sample.commit, resultFrom "production-vic"]

/-- An entry has an applied revision that was not reported on its site's stream. -/
def Unreceipted (w : Inbox) : Prop :=
  ∃ x ∈ w.hub.stored.status.sites, ¬ Receipted w.received x
deriving Decidable

theorem misattributed_reach : Reach (step Sample.hub) (Initial Sample.hub) latest misattributed ∧
      Unreceipted misattributed := by
  unfold misattributed after
  exact played (P := Unreceipted) ⟨crossed_initial, rfl⟩ (by decide +kernel)

/-- The specification of `ledger` with another site in place of `production-qld`. -/
def replaced : MultiSitePostgresSpec :=
  specWith [underRegistration vic, underRegistration nsw, underRegistration (witnessSite "wa" 1)]

def replacedReads : HubReads :=
  { Sample.reads with
    registrations := Sample.registration "wa" :: Sample.reads.registrations }

/-- A site is replaced, and brought back while a reconcile has still to write its status. -/
def broughtBack : Inbox :=
  after ledger latest (rollOut Sample.reads ++
    [fun _ => .edit replaced, reconcileWith replacedReads,
      fun _ => .edit ledger.spec, Sample.commit])

def LosesEntry (w : Inbox) : Prop :=
  ∃ older ∈ w.hub.versions.tail.head?, ∃ x ∈ older.status.sites,
    x.name ∈ older.spec.sites.map (·.name) ∧ x.name ∈ w.hub.stored.spec.sites.map (·.name) ∧
    w.hub.versions.head? = some w.hub.stored ∧
    x.name ∉ w.hub.stored.status.sites.map (·.name)
deriving Decidable

theorem broughtBack_reach : Reach (step Sample.hub) (Initial Sample.hub) latest broughtBack ∧
      LosesEntry broughtBack := by
  unfold broughtBack after
  exact played (P := LosesEntry) ⟨Sample.ledger_initial, rfl⟩ (by decide +kernel)

theorem not_consistent_of_unreceipted (h : Unreceipted w) : ¬ Consistent w := by
  obtain ⟨x, hx, hnot⟩ := h
  exact fun hconsistent => hnot (hconsistent.receipts x hx)

theorem not_consistent_of_losesEntry (h : LosesEntry w) : ¬ Consistent w := by
  obtain ⟨older, holder, x, hx, hstayed, hstays, hnewest, hgone⟩ := h
  intro hconsistent
  have hvers : w.hub.versions = [w.hub.stored] ++ older :: w.hub.versions.tail.tail := by
    conv_lhs => rw [← cons_head?_tail hnewest, ← cons_head?_tail holder]
    rfl
  have hin : Stays x.name ([w.hub.stored] ++ [older]) := by
    intro v hv
    rcases mem_pair.mp hv with rfl | rfl
    · exact hstays
    · exact hstayed
  obtain ⟨y, hy, hname, -⟩ := hconsistent.applied _ _ _ _ hvers hin x hx rfl
  exact hgone (mem_map.mpr ⟨y, hy, hname⟩)

/-- Neither condition can be left out. -/
theorem inconsistent_runs : (Reach (step Sample.hub) (Initial Sample.hub) latest misattributed ∧
      ¬ Consistent misattributed) ∧
    Reach (step Sample.hub) (Initial Sample.hub) latest broughtBack ∧ ¬ Consistent broughtBack :=
  ⟨⟨misattributed_reach.1, not_consistent_of_unreceipted misattributed_reach.2⟩,
    broughtBack_reach.1, not_consistent_of_losesEntry broughtBack_reach.2⟩

end Inbox

end Mspsql
