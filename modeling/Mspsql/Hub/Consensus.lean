import Mspsql.Hub.Conditions
import Mspsql.Lib.Tally

/-!
# The topology consensus is exact

`aggregateTopology` counts: current observations against data sites, different primaries, and
how often each standby is listed.  While every site has one status entry and only data sites
report a primary, these counts say what they are meant to say: every data site has a current
observation, all name one primary, and the standbys that are kept are those on every list.
-/

namespace Mspsql

open List

def SiteRevisionStatus.Current (entry : SiteRevisionStatus) (now : Time) : Prop :=
  entry.primary ≠ "" ∧ ∃ t, entry.topologyObservedAt = some t ∧ now - t ≤ 2 * minute

theorem SiteRevisionStatus.observes_iff {entry : SiteRevisionStatus} {now : Time} :
    entry.observes now = true ↔ entry.Current now := by
  unfold observes Current
  cases entry.topologyObservedAt with
  | none => simp
  | some t => simp

namespace MultiSitePostgres

def hasDataEntry (i : MultiSitePostgres) (entry : SiteRevisionStatus) : Bool :=
  entry.name ∈ (i.spec.sites.filter (·.role = .data)).map (·.name)

def dataEntries (i : MultiSitePostgres) : List SiteRevisionStatus :=
  i.status.sites.filter i.hasDataEntry

/-- What the status of an instance looks like between reconciles. -/
structure Reporting (i : MultiSitePostgres) : Prop where
  names : (i.spec.sites.map (·.name)).Nodup
  entries : (i.status.sites.map (·.name)).Perm (i.spec.sites.map (·.name))
  dataSite : ∃ site ∈ i.spec.sites, site.role = .data
  primaries : ∀ entry ∈ i.status.sites, entry.primary ≠ "" → i.hasDataEntry entry = true
  standbys : ∀ entry ∈ i.status.sites, entry.synchronousStandbys.Nodup

/-- PostgreSQL runs at all data sites: no restore of the seed, and none of the phases of a
major upgrade that stop members. -/
def runsEverywhere (i : MultiSitePostgres) : Prop :=
  i.annotations.restorePhase ≠ .active .seed ∧
    ∀ phase ∈ [MajorUpgradePhase.stop, .snapshot, .upgradePrimary, .stanzaUpgrade, .startPrimary,
      .rollback], i.annotations.upgradePhase ≠ .major phase

/-- Every data site has a current observation, and all of them name `primary`. -/
def Agrees (i : MultiSitePostgres) (now : Time) (primary : String) : Prop :=
  ∀ entry ∈ i.dataEntries, entry.Current now ∧ entry.primary = primary

namespace Reporting

variable {i : MultiSitePostgres} {now : Time}

theorem length_dataEntries (h : Reporting i) :
    i.dataEntries.length = (i.spec.sites.filter (·.role = .data)).length := by
  have hnames : (i.dataEntries.map (·.name)).Perm ((i.spec.sites.map (·.name)).filter
        (· ∈ (i.spec.sites.filter (·.role = .data)).map (·.name))) := by
    rw [dataEntries, show i.hasDataEntry = (fun name => decide
      (name ∈ (i.spec.sites.filter (·.role = .data)).map (·.name))) ∘ (·.name) from rfl,
      ← filter_map]
    exact h.entries.filter _
  have hsites : (i.spec.sites.map (·.name)).filter
      (· ∈ (i.spec.sites.filter (·.role = .data)).map (·.name)) =
        (i.spec.sites.filter (·.role = .data)).map (·.name) := by
    rw [filter_map]
    congr 1
    refine filter_congr fun site hsite => ?_
    rw [Function.comp_apply, decide_eq_decide]
    constructor
    · intro hmem
      obtain ⟨other, hother, hname⟩ := mem_map.mp hmem
      rw [mem_filter] at hother
      rw [← inj_on_of_nodup_map h.names hother.1 hsite hname]
      exact of_decide_eq_true hother.2
    · intro hrole
      exact mem_map_of_mem (mem_filter.mpr ⟨hsite, decide_eq_true hrole⟩)
  have hlength := hnames.length_eq
  rw [hsites, length_map, length_map] at hlength
  exact hlength

theorem dataEntries_ne_nil (h : Reporting i) : i.dataEntries ≠ [] := by
  obtain ⟨site, hsite, hrole⟩ := h.dataSite
  have hmem : site ∈ i.spec.sites.filter (·.role = .data) :=
    mem_filter.mpr ⟨hsite, decide_eq_true hrole⟩
  intro hnil
  have hlength := h.length_dataEntries
  rw [hnil] at hlength
  exact absurd hmem (by simp [length_eq_zero_iff.mp hlength.symm])

theorem length_observed_iff (h : Reporting i) : (i.status.sites.filter (·.observes now)).length =
        (i.spec.sites.filter (·.role = .data)).length ↔
      ∀ entry ∈ i.dataEntries, entry.Current now := by
  have hwithin : ∀ entry ∈ i.status.sites, entry.observes now = true →
      i.hasDataEntry entry = true := fun entry hentry hobserves =>
    h.primaries entry hentry (SiteRevisionStatus.observes_iff.mp hobserves).1
  rw [← h.length_dataEntries, dataEntries, Tally.length_filter_eq_iff hwithin]
  simp only [mem_filter, SiteRevisionStatus.observes_iff, and_imp]

theorem observed_eq (h : Reporting i) (hcur : ∀ entry ∈ i.dataEntries, entry.Current now) :
    i.status.sites.filter (·.observes now) = i.dataEntries := by
  refine filter_congr fun entry hentry => ?_
  rw [Bool.eq_iff_iff]
  constructor
  · exact fun hobserves => h.primaries entry hentry (SiteRevisionStatus.observes_iff.mp hobserves).1
  · intro hdata
    exact SiteRevisionStatus.observes_iff.mpr (hcur entry (mem_filter.mpr ⟨hentry, hdata⟩))

end Reporting

/-! ## What each outcome records -/

theorem setSynchronousReplicationCondition_ready (i : MultiSitePostgres) :
    conditionTrue (setSynchronousReplicationCondition i).status.conditions
      "SynchronousReplicationReady" =
        decide (i.spec.postgres.synchronousStandbyCount ≤ i.status.synchronousStandbys.length) := by
  unfold setSynchronousReplicationCondition
  by_cases hfew : i.status.synchronousStandbys.length < i.spec.postgres.synchronousStandbyCount
  · rw [if_pos hfew, decide_eq_false (Nat.not_le.mpr hfew)]
    exact conditionTrue_setCondition ..
  · rw [if_neg hfew, decide_eq_true (Nat.not_lt.mp hfew)]
    exact conditionTrue_setCondition ..

section Outcome

variable (i : MultiSitePostgres) (primary : String) (standbys : List String)
  (status : ConditionStatus) (reason message : String)

theorem withTopology_primary :
    (withTopology i primary standbys status reason message).status.primary = primary := by
  unfold withTopology setSynchronousReplicationCondition
  dsimp only
  split <;> rfl

theorem withTopology_standbys :
    (withTopology i primary standbys status reason message).status.synchronousStandbys =
      standbys := by
  unfold withTopology setSynchronousReplicationCondition
  dsimp only
  split <;> rfl

theorem withTopology_ready :
    conditionTrue (withTopology i primary standbys status reason message).status.conditions
      "TopologyReady" = decide (status = .true) := by
  obtain ⟨c, hc, rfl⟩ := withTopology_topologyReady i primary standbys status reason message
  rw [conditionTrue, Condition.isTrue, hc]

theorem withTopology_replicates :
    conditionTrue (withTopology i primary standbys status reason message).status.conditions
      "SynchronousReplicationReady" =
        decide (i.spec.postgres.synchronousStandbyCount ≤ standbys.length) :=
  setSynchronousReplicationCondition_ready _

end Outcome

/-- What the topology says after a reconcile. -/
structure TopologyExact (i : MultiSitePostgres) (now : Time) (r : MultiSitePostgres) : Prop where
  ready : conditionTrue r.status.conditions "TopologyReady" = true ↔ ∃ primary, i.Agrees now primary
  primary : ∀ primary, i.Agrees now primary → r.status.primary = primary
  /-- In order and without repetition, the standbys that all data sites list. -/
  standbys : (∃ primary, i.Agrees now primary) → r.status.synchronousStandbys.Pairwise (· < ·) ∧
      ∀ s, s ∈ r.status.synchronousStandbys ↔ ∀ entry ∈ i.dataEntries, s ∈ entry.synchronousStandbys
  unknown : (¬ ∃ primary, i.Agrees now primary) →
    r.status.primary = "" ∧ r.status.synchronousStandbys = []
  replicates : conditionTrue r.status.conditions "SynchronousReplicationReady" = true ↔
    i.spec.postgres.synchronousStandbyCount ≤ r.status.synchronousStandbys.length

theorem topologyExact_unknown {i : MultiSitePostgres} {now : Time} {reason message : String}
    (h : ¬ ∃ primary, i.Agrees now primary) :
    TopologyExact i now (withTopology i "" [] .false reason message) where
  ready := by
    rw [withTopology_ready]
    simp [h]
  primary := fun primary hagrees => absurd ⟨primary, hagrees⟩ h
  standbys := fun hagrees => absurd hagrees h
  unknown := fun _ => ⟨withTopology_primary .., withTopology_standbys ..⟩
  replicates := by
    rw [withTopology_replicates, withTopology_standbys, decide_eq_true_eq]

theorem sortText_strict {l : List String} (h : l.Nodup) : (Text.sortText l).Pairwise (· < ·) := by
  have hnodup : (Text.sortText l).Pairwise (· ≠ ·) :=
    (perm_insertionSort (· ≤ ·) l).nodup_iff.mpr h
  exact (Text.sorted_sortText l).imp₂ (fun _ _ hle hne => lt_of_le_of_ne hle hne) hnodup

theorem of_postgresStopped {value : UpgradePhaseValue} (h : postgresStopped value = true) :
    ∃ phase ∈ [MajorUpgradePhase.stop, .snapshot, .upgradePrimary, .stanzaUpgrade, .startPrimary,
      .rollback], value = .major phase := by
  unfold postgresStopped at h
  split at h
  all_goals first
    | exact ⟨_, by decide, rfl⟩
    | cases h

theorem topologyExact_agreed {i : MultiSitePostgres} {now : Time} {primary reason message : String}
    (hreporting : Reporting i) (hagrees : i.Agrees now primary) :
    TopologyExact i now (withTopology i primary
      (Text.sortText ((i.dataEntries.flatMap (·.synchronousStandbys)).dedup.filter fun s =>
        (i.dataEntries.flatMap (·.synchronousStandbys)).count s = i.dataEntries.length))
      .true reason message) where
  ready := by
    rw [withTopology_ready]
    simpa using ⟨primary, hagrees⟩
  primary := by
    intro other hother
    rw [withTopology_primary]
    obtain ⟨entry, rest, hentries⟩ := exists_cons_of_ne_nil hreporting.dataEntries_ne_nil
    have hentry : entry ∈ i.dataEntries := by simp [hentries]
    rw [← (hagrees entry hentry).2, (hother entry hentry).2]
  standbys := by
    intro _
    rw [withTopology_standbys]
    refine ⟨sortText_strict ((nodup_dedup _).filter _), fun s => ?_⟩
    have hvotes : ∀ entry ∈ i.dataEntries, entry.synchronousStandbys.Nodup :=
      fun entry hentry => hreporting.standbys entry (mem_filter.mp hentry).1
    rw [Text.mem_sortText, mem_filter, mem_dedup, decide_eq_true_eq,
      Tally.count_flatMap_eq_length_iff hvotes]
    refine ⟨fun h => h.2, fun h => ⟨?_, h⟩⟩
    obtain ⟨entry, rest, hentries⟩ := exists_cons_of_ne_nil hreporting.dataEntries_ne_nil
    have hentry : entry ∈ i.dataEntries := by simp [hentries]
    exact mem_flatMap.mpr ⟨entry, hentry, h entry hentry⟩
  unknown := fun h => absurd ⟨primary, hagrees⟩ h
  replicates := by
    rw [withTopology_replicates, withTopology_standbys, decide_eq_true_eq]

/-- While every site reports for itself, the consensus is exact. -/
theorem aggregateTopology_exact {i : MultiSitePostgres} (hreporting : Reporting i)
    (hruns : i.runsEverywhere) (now : Time) :
    TopologyExact i now (aggregateTopology i now) := by
  have hnotStopped : postgresStopped i.annotations.upgradePhase = false := by
    by_contra hstopped
    obtain ⟨phase, hphase, hphaseNow⟩ := of_postgresStopped (Bool.not_eq_false _ ▸ hstopped)
    exact hruns.2 phase hphase hphaseNow
  have hnotPrimaryOnly : i.annotations.upgradePhase ≠ .major .startPrimary :=
    hruns.2 _ (by decide)
  have hobservations : currentObservations i now = i.status.sites.filter (·.observes now) := by
    refine filter_congr fun entry _ => ?_
    simp [hnotPrimaryOnly]
  have hrequired : requiredObservations i = (i.spec.sites.filter (·.role = .data)).length := by
    rw [requiredObservations]
    simp [hruns.1, hnotPrimaryOnly]
  unfold aggregateTopology
  rw [if_neg (by simp [hnotStopped])]
  simp only [hobservations, hrequired]
  by_cases hcount : (i.status.sites.filter (·.observes now)).length =
      (i.spec.sites.filter (·.role = .data)).length
  · rw [if_neg (not_not.mpr hcount)]
    have hcur := hreporting.length_observed_iff.mp hcount
    rw [← hcount, hreporting.observed_eq hcur]
    have hne : i.dataEntries.map (·.primary) ≠ [] := by
      simpa using hreporting.dataEntries_ne_nil
    have hagree : ∀ primary, i.Agrees now primary ↔
        (i.dataEntries.map (·.primary)).dedup = [primary] := by
      intro primary
      rw [Tally.dedup_eq_singleton_iff hne, forall_mem_map]
      exact ⟨fun h entry hentry => (h entry hentry).2,
        fun h entry hentry => ⟨hcur entry hentry, h entry hentry⟩⟩
    split
    · rename_i primary hprimary
      exact topologyExact_agreed hreporting ((hagree primary).mpr hprimary)
    · rename_i hmany
      exact topologyExact_unknown fun ⟨primary, h⟩ => hmany primary ((hagree primary).mp h)
  · rw [if_pos hcount]
    refine topologyExact_unknown fun ⟨primary, h⟩ => hcount ?_
    exact hreporting.length_observed_iff.mpr fun entry hentry => (h entry hentry).1

end MultiSitePostgres

namespace Sample

/-- Both data sites see `postgres-vic-0` lead, and one of them knows of one standby more. -/
def observedOrders : MultiSitePostgres :=
  { orders with status := { orders.status with sites := [
      { name := "vic", primary := "postgres-vic-0", topologyObservedAt := some 0
        synchronousStandbys := ["postgres-vic-1", "postgres-nsw-0"] },
      { name := "nsw", primary := "postgres-vic-0", topologyObservedAt := some (60 * second)
        synchronousStandbys := ["postgres-nsw-0"] },
      { name := "qld" }] } }

end Sample

theorem observedOrders_exact :
    Sample.observedOrders.Reporting ∧ Sample.observedOrders.runsEverywhere ∧
      MultiSitePostgres.TopologyExact Sample.observedOrders (100 * second)
        (aggregateTopology Sample.observedOrders (100 * second)) := by
  have hreporting : Sample.observedOrders.Reporting := by
    constructor <;> decide +kernel
  have hruns : Sample.observedOrders.runsEverywhere := by
    constructor <;> decide +kernel
  exact ⟨hreporting, hruns, MultiSitePostgres.aggregateTopology_exact hreporting hruns _⟩

example : (aggregateTopology Sample.observedOrders (100 * second)).status.synchronousStandbys =
    ["postgres-nsw-0"] := by
  decide +kernel

end Mspsql
