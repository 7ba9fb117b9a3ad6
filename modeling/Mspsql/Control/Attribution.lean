import Mspsql.Lib.Lists
import Mspsql.Sample

/-!
# Which site a plan message is recorded for

A control stream is opened by a site registration, and an instance names its sites
independently of the registrations they reference.  The instance controller keys the
status entries by site name; the control server looks them up by registration name.  Whatever a
message says, the server then stamps the generation of the instance on every condition of
the entry.
-/

namespace Mspsql

open Sample

/-- A plan message on the stream of the registration `site` references is recorded in the
entry of `site`, and is not refused. -/
def RecordedFor (now : Time) (instance' : MultiSitePostgres) (site : PostgresSiteSpec)
    (message : PlanMessage) : Prop :=
  ∃ entry, siteIndex? instance'.status.sites site.siteRegistrationRef = some entry ∧
    (instance'.status.sites[entry]?).map (·.name) = some site.name ∧
    ∃ updated, receivePlanMessage now site.siteRegistrationRef message instance' = .ok updated

instance (now : Time) (instance' : MultiSitePostgres) (site : PostgresSiteSpec)
    (message : PlanMessage) : Decidable (RecordedFor now instance' site message) :=
  match h : siteIndex? instance'.status.sites site.siteRegistrationRef with
  | none => isFalse fun ⟨_, he, _⟩ => by simp [h] at he
  | some entry =>
    if hn : (instance'.status.sites[entry]?).map (·.name) = some site.name then
      isTrue ⟨entry, h, hn, by simp [receivePlanMessage, updateInstanceSite, h]⟩
    else isFalse fun ⟨e, he, hname, _⟩ => by
      rw [h, Option.some.injEq] at he
      exact hn (he ▸ hname)

theorem siteIndex?_isSome {sites : List SiteRevisionStatus} {name : String} :
    (siteIndex? sites name).isSome ↔ ∃ e ∈ sites, e.name = name := by
  simp [siteIndex?]

def PlanMessage.revision : PlanMessage → Int
  | .acknowledgement ack => ack.revision
  | .progress report => report.revision
  | .result applied => applied.appliedRevision

/-- The entry a message on the stream of `siteName` is recorded in. -/
def addressedSite? (instance' : MultiSitePostgres) (siteName : String) :
    Option SiteRevisionStatus :=
  (siteIndex? instance'.status.sites siteName).bind (instance'.status.sites[·]?)

/-- Handling the message leaves all entries of `Status.Sites` as they are. -/
def LeavesEntries (now : Time) (instance' : MultiSitePostgres) (siteName : String)
    (message : PlanMessage) : Prop :=
  ∀ updated, receivePlanMessage now siteName message instance' = .ok updated →
    updated.status.sites = instance'.status.sites

theorem update_of_revision_ne {message : PlanMessage} {site : SiteRevisionStatus}
    (h : message.revision ≠ site.desiredRevision) (now : Time) :
    message.update now site = site := by
  cases message with
  | acknowledgement ack | progress report | result applied => exact if_pos h

theorem stampGeneration_eq_self_iff {generation : Nat} {site : SiteRevisionStatus} :
    stampGeneration generation site = site ↔
      ∀ c ∈ site.conditions, c.observedGeneration = generation := by
  have hlist : stampGeneration generation site = site ↔
      site.conditions.map (fun c => { c with observedGeneration := generation }) =
        site.conditions := by
    constructor
    · exact fun h => congrArg SiteRevisionStatus.conditions h
    intro h
    unfold stampGeneration
    rw [h]
  rw [hlist]
  conv_lhs => rw [← List.map_id site.conditions, List.map_map, List.map_inj_left]
  constructor
  · intro h c hc
    exact (congrArg Condition.observedGeneration (h c hc)).symm
  intro h c hc
  rw [← h c hc]
  rfl

/-- A message about another revision than the desired one leaves the entries alone exactly
when every condition of the addressed entry already carries the instance's generation. -/
theorem stale_leavesEntries_iff (now : Time) (instance' : MultiSitePostgres) (siteName : String)
    (message : PlanMessage) (site : SiteRevisionStatus)
    (hsite : addressedSite? instance' siteName = some site)
    (hstale : message.revision ≠ site.desiredRevision) :
    LeavesEntries now instance' siteName message ↔
      ∀ c ∈ site.conditions, c.observedGeneration = instance'.generation := by
  obtain ⟨entry, hentry, hget⟩ := Option.bind_eq_some_iff.mp hsite
  have hreceive : receivePlanMessage now siteName message instance' =
      .ok { instance' with status := { instance'.status with
        sites := instance'.status.sites.modify entry fun site =>
          stampGeneration instance'.generation (message.update now site) } } := by
    rw [receivePlanMessage, updateInstanceSite, hentry]
  have hleaves : LeavesEntries now instance' siteName message ↔
      instance'.status.sites.modify entry (fun site =>
        stampGeneration instance'.generation (message.update now site)) =
          instance'.status.sites := by
    unfold LeavesEntries
    rw [hreceive]
    constructor
    · exact fun h => h _ rfl
    rintro h updated heq
    rw [← Except.ok.inj heq]
    exact h
  rw [hleaves, Lists.modify_eq_self_iff hget, update_of_revision_ne hstale,
    stampGeneration_eq_self_iff]

def trustAt (generation : Nat) : Condition where
  type := "EtcdTLSReady"
  status := .true
  observedGeneration := generation
  reason := "TrustEstablished"
  message := "ca-1"

/-- `ledger` edited once, with revision 2 issued for the edit and the condition of a site
observed at a generation. -/
def editedLedger (observed : Nat) : MultiSitePostgres :=
  { ledger with
    generation := 2
    status := {
      activeRevision := 2
      sites := [{
        name := "production-vic"
        siteRegistrationRef := "production-vic"
        desiredRevision := 2
        appliedRevision := 1
        conditions := [trustAt observed] }] } }

def lateAcknowledgement : PlanMessage :=
  .acknowledgement { instanceUID := "ledger-uid", revision := 1, accepted := true }

theorem late_acknowledgement_restamps :
    (∃ site, addressedSite? (editedLedger 1) "production-vic" = some site ∧
      lateAcknowledgement.revision ≠ site.desiredRevision) ∧
    ¬ LeavesEntries 0 (editedLedger 1) "production-vic" lateAcknowledgement := by
  refine ⟨⟨_, rfl, by decide⟩, fun h => ?_⟩
  have hsites := h _ rfl
  revert hsites
  decide +kernel

theorem late_acknowledgement_leavesEntries :
    LeavesEntries 0 (editedLedger 2) "production-vic" lateAcknowledgement :=
  (stale_leavesEntries_iff 0 (editedLedger 2) "production-vic" lateAcknowledgement _ rfl
    (by decide)).mpr (by decide)

end Mspsql
