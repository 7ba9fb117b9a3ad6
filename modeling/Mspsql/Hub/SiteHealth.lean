import Mspsql.Agent.Quotas
import Mspsql.Control.Receive
import Mspsql.Hub.CatchUp

/-!
# The health of a site registration

A site is connected while its last heartbeat is at most 150 seconds old, and the controller asks
to be called again when that time is over.  A delay of zero means no call at all, and zero is
what is left at the last moment at which the heartbeat is still current
(`refreshRegistrationHealth_requeues_iff`).
-/

namespace Mspsql

def siteHeartbeatTimeout : Duration := 150 * second

def minPositive (current candidate : Duration) : Duration :=
  if candidate ≤ 0 then current
  else if current = 0 ∨ candidate < current then candidate
  else current

namespace SiteRecord

def setPhase (r : SiteRecord) (phase : String) : SiteRecord :=
  { r with registration := { r.registration with phase } }

def report (r : SiteRecord) (generation : Nat) (type : String) (status : ConditionStatus)
    (reason message : String) : SiteRecord :=
  { r with conditions := setCondition r.conditions generation type status reason message }

/-- The part about the heartbeat, with the delay it asks for. -/
def refreshHeartbeat (site : SiteRecord) (generation : Nat) (now : Time) : SiteRecord × Duration :=
  match site.lastHeartbeatTime with
  | some heartbeat =>
    if timeSub now heartbeat ≤ siteHeartbeatTimeout then
      ((site.setPhase "Connected").report generation "Connected" .true "HeartbeatCurrent"
        "The authenticated site agent heartbeat is current",
        wrap64 (siteHeartbeatTimeout - timeSub now heartbeat))
    else
      (site.report generation "Connected" .false "HeartbeatStale"
        "No authenticated site agent heartbeat is current", 0)
  | none =>
    (site.report generation "Connected" .false "HeartbeatStale"
      "No authenticated site agent heartbeat is current", 0)

def refreshIdentity (site : SiteRecord) (generation : Nat) (now : Time) (requeueAfter : Duration) :
    SiteRecord × Duration :=
  match site.agentCertificateExpiresAt with
  | none =>
    (site.report generation "IdentityReady" .false "CertificateExpiryUnknown"
      "The agent has not reported its certificate expiry", requeueAfter)
  | some expiresAt =>
    if expiresAt ≤ now then
      (site.report generation "IdentityReady" .false "CertificateExpired"
        "The agent mTLS certificate has expired", requeueAfter)
    else if expiresAt < now + 120 * minute then
      (site.report generation "IdentityReady" .false "CertificateExpiring"
        "The agent mTLS certificate is approaching expiry",
        minPositive requeueAfter (timeSub expiresAt now))
    else
      (site.report generation "IdentityReady" .true "CertificateCurrent"
        "The agent mTLS certificate is current",
        minPositive requeueAfter (timeSub (expiresAt - 120 * minute) now))

def refreshRegistrationHealth (site : SiteRecord) (generation : Nat) (now : Time) :
    SiteRecord × Duration :=
  let pending := (site.setPhase "Pending").report generation "Registered" .false "AwaitingAgent"
    "Waiting for the site agent to bind this registration"
  if site.clusterUID = "" then (pending, 0)
  else
    let registered := (pending.setPhase "Registered").report generation "Registered" .true
      "ClusterBound" "Registration is bound to an immutable Kubernetes cluster UID"
    let (beating, requeueAfter) := registered.refreshHeartbeat generation now
    beating.refreshIdentity generation now requeueAfter

theorem minPositive_delay (current candidate : Duration) :
    minPositive current candidate = current ∨
      (current = 0 ∨ minPositive current candidate < current) ∧
        0 < minPositive current candidate := by
  unfold minPositive
  grind

/-- The certificate can bring the next call forward, and nothing else. -/
theorem refreshIdentity_delay (site : SiteRecord) (generation : Nat) (now : Time)
    (requeueAfter : Duration) :
    let refreshed := site.refreshIdentity generation now requeueAfter
    refreshed.1.registration = site.registration ∧ (refreshed.2 = requeueAfter ∨
      (requeueAfter = 0 ∨ refreshed.2 < requeueAfter) ∧ 0 < refreshed.2) := by
  unfold refreshIdentity
  split
  · exact ⟨rfl, .inl rfl⟩
  split
  · exact ⟨rfl, .inl rfl⟩
  split <;> exact ⟨rfl, minPositive_delay ..⟩

/-- What is left of the timeout, in 64 bits. -/
theorem remaining_delay {now heartbeat : Time}
    (h : timeSub now heartbeat ≤ siteHeartbeatTimeout) :
    let delay := wrap64 (siteHeartbeatTimeout - timeSub now heartbeat)
    let remaining := heartbeat + siteHeartbeatTimeout - now
    0 ≤ remaining ∧ (remaining < 2 ^ 63 → delay = remaining) ∧
      (2 ^ 63 ≤ remaining → delay < 0) := by
  have htimeout : siteHeartbeatTimeout = 150000000000 := rfl
  have hsub : timeSub now heartbeat = max (-2 ^ 63) (min (2 ^ 63 - 1) (now - heartbeat)) := rfl
  refine ⟨by grind, fun hlt => ?_, fun hge => ?_⟩
  · rw [wrap64_of_lt (by grind) (by grind)]
    grind
  · rw [wrap64_of_ge (by grind) (by grind)]
    grind

/-- A connected site is called for in time, unless its heartbeat becomes stale at this very moment
or lies so far ahead that the delay overflows. -/
theorem refreshRegistrationHealth_requeues_iff {site : SiteRecord} {generation : Nat}
    {now heartbeat : Time} (hbound : site.clusterUID ≠ "")
    (hheartbeat : site.lastHeartbeatTime = some heartbeat)
    (hconnected : (site.refreshRegistrationHealth generation now).1.registration.phase =
      "Connected") :
    let remaining := heartbeat + siteHeartbeatTimeout - now
    (0 < (site.refreshRegistrationHealth generation now).2 ∧
        (site.refreshRegistrationHealth generation now).2 ≤ remaining) ↔
      remaining ≠ 0 ∧ remaining < 2 ^ 63 := by
  unfold refreshRegistrationHealth at hconnected ⊢
  dsimp only at hconnected ⊢
  rw [if_neg hbound] at hconnected
  generalize hregistered : (setPhase _ "Registered").report _ _ _ _ _ = registered
    at hconnected
  obtain ⟨hkept, hdelay⟩ := (registered.refreshHeartbeat generation now).1.refreshIdentity_delay
    generation now (registered.refreshHeartbeat generation now).2
  rw [hkept] at hconnected
  have hcur : timeSub now heartbeat ≤ siteHeartbeatTimeout := by
    by_contra hstale
    subst hregistered
    simp [refreshHeartbeat, report, setPhase, hheartbeat, hstale] at hconnected
  have hasked : (registered.refreshHeartbeat generation now).2 =
      wrap64 (siteHeartbeatTimeout - timeSub now heartbeat) := by
    subst hregistered
    simp [refreshHeartbeat, report, setPhase, hheartbeat, hcur]
  obtain ⟨hnonneg, hsmall, hlarge⟩ := remaining_delay hcur
  grind

/-- A bound site with a day until its certificate expires. -/
def heardOf (heartbeat : Time) : SiteRecord where
  registration := { name := "a", uid := "site-a" }
  clusterUID := "cluster-a"
  lastHeartbeatTime := some heartbeat
  agentCertificateExpiresAt := some (86400 * second)

theorem heardOf_requeues :
    ((heardOf (-30 * second)).refreshRegistrationHealth 1 0).1.registration.phase = "Connected" ∧
      0 < ((heardOf (-30 * second)).refreshRegistrationHealth 1 0).2 ∧
      ((heardOf (-30 * second)).refreshRegistrationHealth 1 0).2 ≤ 120 * second := by
  have hconnected :
      ((heardOf (-30 * second)).refreshRegistrationHealth 1 0).1.registration.phase =
        "Connected" := by
    decide
  exact ⟨hconnected, (refreshRegistrationHealth_requeues_iff (by decide) rfl hconnected).mpr
    (by decide)⟩

/-- The heartbeat is as old as it may be: the site is connected, no time remains, and the next
call is that of its certificate. -/
theorem lastMoment_late :
    let refreshed := (heardOf (-150 * second)).refreshRegistrationHealth 1 0
    let remaining := -150 * second + siteHeartbeatTimeout - 0
    refreshed.1.registration.phase = "Connected" ∧ refreshed.2 = 79200 * second ∧ remaining = 0 ∧
      ¬ (0 < refreshed.2 ∧ refreshed.2 ≤ remaining) := by
  decide

end SiteRecord

end Mspsql
