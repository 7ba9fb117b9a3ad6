import Mspsql.Control.Receipts

/-!
# Where the entries of the sites come from

`Chronicle` is the hub with every plan message it was sent.  Reconciles may work on any
version that was ever stored and stop after any of their writes; still, every condition in
an entry, and the phase of a deleted site, was reported on the stream of the registration
that the entry is named after.
-/

namespace Mspsql

open MultiSitePostgres List

def PlanMessage.conditions : PlanMessage → List Condition
  | .acknowledgement _ => []
  | .progress report => report.conditions
  | .result applied => applied.conditions

def PlanMessage.deletedRevision? : PlanMessage → Option Int
  | .acknowledgement _ => none
  | .progress report => if report.phase = "Deleted" then some report.revision else none
  | .result applied =>
    if applied.conditions.any (fun c => c.type = "Deleted" ∧ c.status = .true) then
      some applied.appliedRevision else none

/-- Every plan message received: the registration of the stream and the message. -/
abbrev Messages : Type := List (String × PlanMessage)

/-- What an entry says was reported under its name.  A rejected plan is recorded by the
server itself. -/
structure Told (messages : Messages) (x : SiteRevisionStatus) : Prop where
  conditions : ∀ c ∈ x.conditions, c.type ≠ "PlanAccepted" → ∃ m, (x.name, m) ∈ messages ∧
    ∃ generation, { c with observedGeneration := generation } ∈ m.conditions
  deleted : x.phase = "Deleted" → ∃ m, (x.name, m) ∈ messages ∧ m.deletedRevision?.isSome = true

namespace Told

variable {messages messages' : Messages} {x y : SiteRevisionStatus}

theorem mono (h : Told messages x) (hsub : messages ⊆ messages') : Told messages' x := by
  refine ⟨fun c hc htype => ?_, fun hphase => ?_⟩
  · obtain ⟨m, hm, hreported⟩ := h.conditions c hc htype
    exact ⟨m, hsub hm, hreported⟩
  · obtain ⟨m, hm, hreported⟩ := h.deleted hphase
    exact ⟨m, hsub hm, hreported⟩

theorem congr (h : Told messages x) (hname : y.name = x.name)
    (hconds : y.conditions = x.conditions)
    (hphase : y.phase = "Deleted" → x.phase = "Deleted") : Told messages y := by
  refine ⟨fun c hc => ?_, fun hdeleted => ?_⟩
  · rw [hname]
    exact h.conditions c (hconds ▸ hc)
  · rw [hname]
    exact h.deleted (hphase hdeleted)

theorem stampGeneration (h : Told messages x) (generation : Nat) :
    Told messages (stampGeneration generation x) := by
  refine ⟨fun c hc htype => ?_, h.deleted⟩
  obtain ⟨d, hd, rfl⟩ := mem_map.mp hc
  exact h.conditions d hd htype

theorem of_reported {m : PlanMessage} {conditions : List Condition}
    (h : Told ((x.name, m) :: messages) x) (hname : y.name = x.name)
    (hconds : y.conditions = conditions.foldl setSiteCondition x.conditions)
    (hm : m.conditions = conditions)
    (hphase : y.phase = "Deleted" → m.deletedRevision?.isSome = true) :
    Told ((x.name, m) :: messages) y := by
  refine ⟨fun c hc htype => ?_, fun hdeleted => ?_⟩
  · have hfold : conditions.foldl setSiteCondition x.conditions = (conditions.map fun c =>
        { c with observedGeneration := 0 }).foldl Condition.set x.conditions := by
      rw [foldl_map]
      rfl
    rw [hconds, hfold] at hc
    rw [hname]
    rcases Condition.mem_foldl_set hc with hnew | hold
    · obtain ⟨d, hd, rfl⟩ := mem_map.mp hnew
      exact ⟨m, mem_cons_self, d.observedGeneration, hm ▸ hd⟩
    · exact h.conditions c hold htype
  · rw [hname]
    exact ⟨m, mem_cons_self, hphase hdeleted⟩

theorem update (h : Told messages x) (now : Time) (m : PlanMessage) :
    Told ((x.name, m) :: messages) (m.update now x) := by
  have hlogged : Told ((x.name, m) :: messages) x := h.mono (subset_cons_self _ _)
  cases m with
  | acknowledgement ack =>
    unfold PlanMessage.update acknowledgeSite
    dsimp only
    split
    · exact hlogged
    · split
      · exact hlogged.congr rfl rfl fun hphase =>
          absurd hphase (show "Applying" ≠ "Deleted" by decide)
      · refine ⟨fun c hc htype => ?_, fun hphase =>
          absurd hphase (show "Rejected" ≠ "Deleted" by decide)⟩
        rcases Condition.mem_set hc with rfl | hold
        · exact absurd rfl htype
        · exact hlogged.conditions c hold htype
  | progress report =>
    unfold PlanMessage.update progressSite
    dsimp only
    split
    · exact hlogged
    · have hphase : report.phase = "Deleted" →
          (PlanMessage.progress report).deletedRevision?.isSome = true := fun hdeleted => by
        rw [PlanMessage.deletedRevision?, if_pos hdeleted]
        rfl
      split
      · exact hlogged.of_reported rfl rfl rfl hphase
      · exact hlogged.of_reported rfl rfl rfl hphase
  | result applied =>
    unfold PlanMessage.update resultSite
    dsimp only
    split
    · exact hlogged
    · refine hlogged.of_reported rfl rfl rfl fun hdeleted => ?_
      dsimp only at hdeleted
      rw [PlanMessage.deletedRevision?]
      split at hdeleted
      · rw [if_pos ‹_›]
        rfl
      · exact absurd hdeleted (by decide)

end Told

def AllTold (messages : Messages) (entries : List SiteRevisionStatus) : Prop :=
  ∀ x ∈ entries, Told messages x

namespace AllTold

variable {messages : Messages}

theorem mono {messages' : Messages} {entries : List SiteRevisionStatus}
    (h : AllTold messages entries) (hsub : messages ⊆ messages') : AllTold messages' entries :=
  fun x hx => (h x hx).mono hsub

theorem merged {current desired : List SiteRevisionStatus} (hcur : AllTold messages current)
    (hdesired : AllTold messages desired) :
    AllTold messages (mergeReconciledSites current desired) := by
  intro y hy
  obtain ⟨wanted, hwanted, rfl⟩ := mem_map.mp hy
  have hphase : ∀ observed : SiteRevisionStatus,
      (if wanted.phase = "DeletionPlanIssued" ∧ observed.phase ≠ "Deleted" then wanted.phase
        else observed.phase) = "Deleted" → observed.phase = "Deleted" := by
    intro observed h
    split at h
    · rename_i hissued
      rw [hissued.1] at h
      exact absurd h (by decide)
    · exact h
  rcases previousSiteStatus_cases current wanted.name with ⟨hnone, -⟩ | ⟨hmem, hname⟩
  · rw [hnone]
    exact (hdesired wanted hwanted).congr rfl rfl (hphase wanted)
  · by_cases hempty : (previousSiteStatus current wanted.name).name = ""
    · rw [if_pos hempty]
      exact (hdesired wanted hwanted).congr rfl rfl (hphase wanted)
    · rw [if_neg hempty]
      exact (hcur _ hmem).congr hname.symm rfl (hphase _)

end AllTold

/-! ## The status of a reconcile -/

section Reconcile

variable {config : BackupConfig} {reads : HubReads} {directives : List DirectiveMap}
  {fails : String → Bool} {now : Time} {view : MultiSitePostgres} {d : MultiSitePostgresStatus}

/-- An entry that nothing was reported for, or one of these with another plan to apply. -/
def Inherits (entries : List SiteRevisionStatus) (y : SiteRevisionStatus) : Prop :=
  (y.conditions = [] ∧ y.phase ≠ "Deleted") ∨ ∃ x ∈ entries, y.name = x.name ∧
    y.conditions = x.conditions ∧ (y.phase = "Deleted" → x.phase = "Deleted")

theorem inherits_of_mem {entries : List SiteRevisionStatus} {y : SiteRevisionStatus}
    (h : y ∈ entries) : Inherits entries y := .inr ⟨y, h, rfl, rfl, id⟩

theorem inherits_siteStatusFor (i : MultiSitePostgres) (site : PostgresSiteSpec) :
    Inherits i.status.sites (siteStatusFor i site) := by
  unfold siteStatusFor
  rcases previousSiteStatus_cases i.status.sites site.name with ⟨hnone, -⟩ | ⟨hmem, hname⟩
  · rw [hnone]
    exact .inl ⟨rfl, show "PlanIssued" ≠ "Deleted" by decide⟩
  · refine .inr ⟨_, hmem, hname.symm, rfl, fun hdeleted => ?_⟩
    dsimp only at hdeleted
    split at hdeleted
    · exact absurd hdeleted (by decide)
    · exact hdeleted

theorem inherits_issue {prepared : MultiSitePostgres} {inputs : PlanInputs}
    (hd : (issue config reads directives fails now prepared inputs).status = some d) :
    ∀ y ∈ d.sites, Inherits prepared.status.sites y := by
  have hentries : ∀ y ∈ (settle (withRevision prepared inputs) inputs now).status.sites,
      Inherits prepared.status.sites y := by
    intro y hy
    rw [sites_of_core (settle_observed (withRevision prepared inputs) inputs now).core] at hy
    obtain ⟨site, -, rfl⟩ := mem_map.mp hy
    rw [← withRevision_sites prepared inputs]
    exact inherits_siteStatusFor _ site
  rw [issue] at hd
  dsimp only at hd
  split at hd
  · cases hd
  · split at hd
    · cases hd
    · cases hd
      exact hentries
    · cases hd
      exact hentries

theorem inherits_reconcile
    (hd : (reconcile config reads directives fails now view).status = some d) :
    ∀ y ∈ d.sites, Inherits view.status.sites y := by
  have hexit := reconcile_exit config reads directives fails now view
  generalize reconcile config reads directives fails now view = o at hd hexit
  cases hexit with
  | ignored | released | adopted => cases hd
  | blocked _ waits =>
    rw [← Option.some.inj hd, waits.sites]
    exact fun _ => inherits_of_mem
  | deletion _ hrevised waits =>
    intro y hy
    rw [(waits d hd).2.sites] at hy
    obtain ⟨site, -, rfl⟩ := mem_map.mp hy
    have hphase : "DeletionPlanIssued" ≠ "Deleted" := by decide
    subst hrevised
    exact (inherits_siteStatusFor _ site).imp (fun h => ⟨h.1, hphase⟩)
      fun ⟨x, hx, hname, hconds, _⟩ =>
        ⟨x, hx, hname, hconds, fun hdeleted => absurd hdeleted hphase⟩
  | rejected _ _ _ withdrawn =>
    rw [← Option.some.inj hd, sites_of_core withdrawn.core]
    exact fun _ => inherits_of_mem
  | issued _ _ _ observed _ =>
    rw [← sites_of_core observed.core]
    exact inherits_issue hd

theorem AllTold.reconcile {messages : Messages} (h : AllTold messages view.status.sites)
    (hd : (reconcile config reads directives fails now view).status = some d) :
    AllTold messages d.sites := by
  intro y hy
  rcases inherits_reconcile hd y hy with ⟨hempty, hphase⟩ | ⟨x, hx, hname, hconds, hphase⟩
  · refine ⟨fun c hc => ?_, fun hdeleted => absurd hdeleted hphase⟩
    rw [hempty] at hc
    cases hc
  · exact (h x hx).congr hname hconds hphase

end Reconcile

/-! ## The machine -/

theorem HubState.step_sites_of_result {config : HubConfig} {s t : HubState} {e : HubEvent}
    (hst : s.step config e = some t) (he : isBackupResult e = true) :
    t.stored.status.sites = s.stored.status.sites := by
  cases step_case hst with
  | backupResult hrecords | upgradeBackupSucceeded hrecords => exact hrecords.sites
  | upgradeBackupFailed => rfl
  | _ => cases he

structure Chronicle where
  hub : HubState
  messages : Messages := []
deriving DecidableEq

namespace Chronicle

open HubState

def logged (messages : Messages) : HubEvent → Messages
  | .message registration _ message => (registration, message) :: messages
  | _ => messages

def step (config : HubConfig) (w : Chronicle) (e : HubEvent) : Option Chronicle :=
  (w.hub.step config e).map fun hub => { hub := hub, messages := logged w.messages e }

def Initial (config : HubConfig) (w : Chronicle) : Prop :=
  HubState.Initial config w.hub ∧ w.messages = []

def Sourced (w : Chronicle) : Prop :=
  Everywhere (fun status => AllTold w.messages status.sites) w.hub

variable {config : HubConfig} {w v : Chronicle} {e : HubEvent}

theorem step_hub (h : w.step config e = some v) : w.hub.step config e = some v.hub := by
  obtain ⟨hub, hhub, rfl⟩ := Option.map_eq_some_iff.mp h
  exact hhub

theorem step_messages (h : w.step config e = some v) : v.messages = logged w.messages e := by
  obtain ⟨hub, -, rfl⟩ := Option.map_eq_some_iff.mp h
  rfl

theorem messages_subset (h : w.step config e = some v) : w.messages ⊆ v.messages := by
  rw [step_messages h]
  cases e with
  | message => exact subset_cons_self _ _
  | _ => exact List.Subset.refl _

theorem Sourced.initial (h : Initial config w) : Sourced w := by
  refine Everywhere.initial h.1 ?_
  rw [h.1.sites]
  exact fun x hx => absurd hx not_mem_nil

theorem Sourced.step (h : Sourced w) (hst : w.step config e = some v) : Sourced v := by
  have hsub := messages_subset hst
  have hall : Everywhere (fun status => AllTold v.messages status.sites) w.hub :=
    ⟨⟨h.throughout.stored.mono hsub, fun i hi => (h.throughout.versions i hi).mono hsub⟩,
      fun d hd => (h.pending d hd).mono hsub⟩
  refine hall.step (step_hub hst) (fun _ _ _ _ _ _ hview hd => hview.reconcile hd)
    (fun _ _ hcur hdesired => hcur.merged hdesired) ?_ fun he => ?_
  · rintro registration now message entry rfl found x hx
    rw [step_messages hst]
    rcases Lists.mem_modify hx with hin | ⟨site, hsite, rfl⟩
    · exact (h.throughout.stored x hin).mono (subset_cons_self _ _)
    · have hname := siteIndex?_some found
      rw [hsite] at hname
      have htold := (h.throughout.stored site (mem_of_getElem? hsite)).update now message
      rw [show site.name = registration from Option.some.inj hname] at htold
      exact htold.stampGeneration _
  · rw [step_sites_of_result (step_hub hst) he]
    exact hall.throughout.stored

/-- Every entry, stored or pending, says only what was reported under its name. -/
theorem told_of_reach {ok : Chronicle → HubEvent → Prop}
    (h : Machine.Reach (step config) (Initial config) ok w) : Sourced w :=
  h.invariant (fun _ => .initial) fun _ _ _ hinv _ hst => hinv.step hst

open Sample

/-- `ledger` is rolled out, and a reconcile of its first version writes its status late. -/
def writtenLate : Chronicle :=
  Machine.reached (step Sample.hub) Machine.anyStep { hub := Sample.created ledger }
    ((rollOut Sample.reads ++
      [fun s => .issue (s.versions.getLastD s.stored) Sample.reads (fun _ => false) 0 3,
        Sample.commit]).map fun event w => event w.hub)

def Reports (w : Chronicle) : Prop :=
  w.messages.length = 6 ∧ ∀ x ∈ w.hub.stored.status.sites, x.conditions ≠ []
deriving Decidable

theorem writtenLate_reach : Machine.Reach (step Sample.hub) (Initial Sample.hub) Machine.anyStep
      writtenLate ∧ Reports writtenLate := by
  unfold writtenLate
  exact Machine.played (P := Reports) ⟨ledger_initial, rfl⟩ (by decide +kernel)

theorem writtenLate_told : Reports writtenLate ∧ Sourced writtenLate :=
  ⟨writtenLate_reach.2, told_of_reach writtenLate_reach.1⟩

end Chronicle

end Mspsql
