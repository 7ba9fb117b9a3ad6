import Mspsql.Hub.Addresses

/-!
# What an instance reconcile decides on

Whether a reconcile gets past validation, and with which contracts, depends on the
request (everything of the instance but its status) and on the other objects, not on the
status or on the stored plans (`Accepts.congr`).  The address plan and the credential
rotation do depend on them.
-/

namespace Mspsql

open MultiSitePostgres

variable {i : MultiSitePostgres} {reads : HubReads}

/-- The second instance differs from the first in its status and its finalizer only. -/
def SameRequest (i j : MultiSitePostgres) : Prop :=
  ∃ status finalizer, j = { i with status := status, finalizer := finalizer }

theorem Observed.sameRequest {j : MultiSitePostgres} (h : Observed i j) : SameRequest i j := by
  have hname := name_of_core h.core
  have hns := namespace_of_core h.core
  have huid := uid_of_core h.core
  have hgen := generation_of_core h.core
  have hann := annotations_of_core h.core
  have hspec := spec_of_core h.core
  have hdel : j.deleting = i.deleting := congrArg (·.deleting) h.core
  refine ⟨j.status, j.finalizer, ?_⟩
  rw [← hname, ← hns, ← huid, ← hgen, ← hann, ← hspec, ← hdel]

namespace SameRequest

variable {i j k : MultiSitePostgres}

theorem trans (h : SameRequest i j) (h' : SameRequest j k) : SameRequest i k := by
  obtain ⟨status, finalizer, rfl⟩ := h
  obtain ⟨status', finalizer', rfl⟩ := h'
  exact ⟨status', finalizer', rfl⟩

theorem spec (h : SameRequest i j) : j.spec = i.spec := by
  obtain ⟨status, finalizer, rfl⟩ := h
  rfl

theorem deleting (h : SameRequest i j) : j.deleting = i.deleting := by
  obtain ⟨status, finalizer, rfl⟩ := h
  rfl

end SameRequest

/-! ## Validation -/

theorem checkSites_toOption (reads : HubReads) (i j : MultiSitePostgres)
    (sites : List PostgresSiteSpec) :
    (checkSites reads i sites).toOption = (checkSites reads j sites).toOption := by
  induction sites with
  | nil => rfl
  | cons site rest ih =>
    rw [checkSites, checkSites]
    split
    · rfl
    split
    · rfl
    revert ih
    rcases checkSites reads i rest with e | ⟨dataSites, controlSites⟩ <;>
      rcases checkSites reads j rest with e' | ⟨dataSites', controlSites'⟩
    · exact fun _ => rfl
    · rintro ⟨⟩
    · rintro ⟨⟩
    intro heq
    cases heq
    rfl

theorem validateInstanceClaims_congr {j : MultiSitePostgres} (h : SameRequest i j)
    (others : List MultiSitePostgres) :
    validateInstanceClaims j others = validateInstanceClaims i others := by
  obtain ⟨status, finalizer, rfl⟩ := h
  induction others with
  | nil => rfl
  | cons other rest ih => rw [validateInstanceClaims, validateInstanceClaims, ih]

/-- The contracts a reconcile plans under, when they are valid and the sites can carry them
out; `n` sites without data are disconnected. -/
def contracts (reads : HubReads) (i : MultiSitePostgres) (n : Nat) :
    Option (Option RestorePlan × Option UpgradePlan × Option MajorUpgradePlan) :=
  match restorePlan reads i, upgradePlans reads i with
  | .ok restore, .ok (upgrade, major) =>
    if n > 0 ∧ topologyChangingOperationPending restore upgrade major = true then none
    else if (missingPlanCapabilities reads i major).length > 0 then none
    else some (restore, upgrade, major)
  | _, _ => none

def rotationFor (reads : HubReads) (i : MultiSitePostgres) (inputs : PlanInputs) :
    Option CredentialRotationPlan :=
  credentialRotationPlan reads i (inputs.addresses.addressMigration.isSome ||
    topologyChangingOperationPending inputs.restore inputs.upgrade inputs.major)

theorem planInputs_ok_iff {n : Nat} {inputs : PlanInputs} : planInputs reads i n = .ok inputs ↔
      contracts reads i n = some (inputs.restore, inputs.upgrade, inputs.major) ∧
        inputs.addresses = addressPlan reads i ∧
        inputs.rotation = rotationFor reads i inputs := by
  obtain ⟨restore, upgrade, major, addresses, rotation⟩ := inputs
  rw [planInputs, contracts, rotationFor]
  rcases restorePlan reads i with e | restore'
  · simp
  rcases upgradePlans reads i with e | ⟨upgrade', major'⟩
  · simp
  dsimp only
  split
  · simp
  split
  · simp
  simp only [Except.ok.injEq, PlanInputs.mk.injEq, Option.some.injEq, Prod.mk.injEq]
  constructor
  · rintro ⟨rfl, rfl, rfl, rfl, rfl⟩
    exact ⟨⟨rfl, rfl, rfl⟩, rfl, rfl⟩
  · rintro ⟨⟨rfl, rfl, rfl⟩, rfl, rfl⟩
    exact ⟨rfl, rfl, rfl, rfl, rfl⟩

/-- Validation lets the instance through to planning, under these contracts. -/
def Accepts (reads : HubReads) (i : MultiSitePostgres)
    (c : Option RestorePlan × Option UpgradePlan × Option MajorUpgradePlan) : Prop :=
  ∃ n, (checkSites reads i i.spec.sites).toOption = some (0, n) ∧
    validateInstanceClaims i reads.instances = none ∧ contracts reads i n = some c

theorem Accepts.unique {c c' : Option RestorePlan × Option UpgradePlan × Option MajorUpgradePlan}
    (h : Accepts reads i c) (h' : Accepts reads i c') : c = c' := by
  obtain ⟨n, hsites, -, hc⟩ := h
  obtain ⟨n', hsites', -, hc'⟩ := h'
  rw [hsites] at hsites'
  cases hsites'
  exact Option.some.inj (hc.symm.trans hc')

section Plans

variable {reads : HubReads} {i j : MultiSitePostgres}

theorem rollbackPolicies_planMaps (planMaps : SortedMap String SitePlan)
    (policies : SortedMap String StorageRollbackPolicy) (sites : List PostgresSiteSpec) :
    rollbackPolicies { reads with planMaps := planMaps } policies sites =
      rollbackPolicies reads policies sites := by
  induction sites generalizing policies with
  | nil => rfl
  | cons site rest ih =>
    rw [rollbackPolicies]
    simp only [ih]
    rfl

theorem checkSites_planMaps (planMaps : SortedMap String SitePlan) (sites : List PostgresSiteSpec) :
    checkSites { reads with planMaps := planMaps } i sites = checkSites reads i sites := by
  induction sites with
  | nil => rfl
  | cons site rest ih =>
    rw [checkSites, ih]
    rfl

theorem upgradePlans_congr (h : SameRequest i j) (planMaps : SortedMap String SitePlan) :
    upgradePlans { reads with planMaps := planMaps } j = upgradePlans reads i := by
  obtain ⟨status, finalizer, rfl⟩ := h
  unfold upgradePlans
  simp only [rollbackPolicies_planMaps]
  rfl

theorem contracts_congr (h : SameRequest i j) (planMaps : SortedMap String SitePlan) (n : Nat) :
    contracts { reads with planMaps := planMaps } j n = contracts reads i n := by
  unfold contracts
  rw [upgradePlans_congr h]
  obtain ⟨status, finalizer, rfl⟩ := h
  rfl

theorem Accepts.congr (h : SameRequest i j) (planMaps : SortedMap String SitePlan)
    {c : Option RestorePlan × Option UpgradePlan × Option MajorUpgradePlan} :
    Accepts { reads with planMaps := planMaps } j c ↔ Accepts reads i c := by
  refine exists_congr fun n => ?_
  rw [contracts_congr h, validateInstanceClaims_congr h, checkSites_planMaps,
    checkSites_toOption reads j i, h.spec]

end Plans

/-! ## Getting past validation -/

theorem prepare_ok {prepared : MultiSitePostgres} {inputs : PlanInputs}
    (h : prepare reads i = .ok (prepared, inputs)) :
    Observed i prepared ∧ Accepts reads i (inputs.restore, inputs.upgrade, inputs.major) ∧
      inputs.addresses = addressPlan reads prepared ∧
      inputs.rotation = rotationFor reads prepared inputs := by
  have hspec := spec_of_core (started_withdrawn reads i).core
  rw [prepare] at h
  dsimp only at h
  split at h
  · cases h
  rename_i dataSites controlSites hsites
  split at h
  · cases h
  rename_i hclaims
  split at h
  · cases h
  split at h
  · cases h
  rename_i hinputs
  cases h
  obtain ⟨hcontracts, haddr, hrotation⟩ := planInputs_ok_iff.mp hinputs
  have hconnected := (connected_withdrawn reads i controlSites).toObserved
  refine ⟨hconnected, ⟨controlSites, ?_, ?_, ?_⟩, haddr, hrotation⟩
  · obtain rfl : dataSites = 0 := by omega
    rw [hspec] at hsites
    rw [checkSites_toOption reads i, hsites]
    rfl
  · exact (validateInstanceClaims_congr (registered_withdrawn reads i).toObserved.sameRequest
      _).symm.trans hclaims
  · exact (contracts_congr hconnected.sameRequest reads.planMaps _).symm.trans hcontracts

theorem prepare_of_accepts {c : Option RestorePlan × Option UpgradePlan × Option MajorUpgradePlan}
    (h : Accepts reads i c) : ∃ r, prepare reads i = .ok r := by
  obtain ⟨n, hsites, hclaims, hcontracts⟩ := h
  have hspec := spec_of_core (started_withdrawn reads i).core
  rw [prepare]
  dsimp only
  split
  · rename_i he
    rw [hspec] at he
    rw [checkSites_toOption reads i, he] at hsites
    cases hsites
  · rename_i hok
    rw [hspec] at hok
    rw [checkSites_toOption reads i, hok] at hsites
    cases hsites
    have hregistered : validateInstanceClaims (registered reads i) reads.instances = none :=
      (validateInstanceClaims_congr (registered_withdrawn reads i).toObserved.sameRequest _).trans
        hclaims
    have hinputs : ∃ inputs, planInputs reads (withConnections (registered reads i) n)
        n = .ok inputs := by
      have hconnected := (connected_withdrawn reads i n).toObserved.sameRequest
      have hcontracts := (contracts_congr hconnected reads.planMaps _).trans hcontracts
      let planned : PlanInputs := ⟨c.1, c.2.1, c.2.2,
        addressPlan reads (withConnections (registered reads i) n), none⟩
      exact ⟨{ planned with
          rotation := rotationFor reads (withConnections (registered reads i) n) planned },
        planInputs_ok_iff.mpr ⟨hcontracts, rfl, rfl⟩⟩
    obtain ⟨inputs, hinputs⟩ := hinputs
    unfold registered at hregistered hinputs
    rw [hregistered]
    rw [hinputs]
    exact ⟨_, rfl⟩

end Mspsql
