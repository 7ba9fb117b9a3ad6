import Mspsql.Agent.Render
import Mspsql.Sample

/-!
# Which site a member belongs to

A member is named after its kind, its site and its ordinal, joined by dashes, and both the
hub and the agents find the site of a member again by a test on the beginning of its name.
Site names are not restricted, so a site whose name goes on with a dash where the name of
another site ends is also found by the test for that other site.  There is no
other way to a wrong site.
-/

namespace Mspsql

open Sample List

def carriesSite (kind member site : String) : Bool :=
  Text.hasPrefix member (kind ++ "-" ++ site ++ "-")

theorem memberBelongsToSite_eq (member site : String) :
    memberBelongsToSite member site = carriesSite "postgres" member site := rfl

theorem hasPrefix_etcd_eq (member site : String) :
    Text.hasPrefix member ("etcd-" ++ site ++ "-") = carriesSite "etcd" member site := rfl

variable {kind member : String} {site : PostgresSiteSpec} {replicas : Nat}

/-- The test finds the site of the member, and every site whose name the site's own name
continues after a dash. -/
theorem carriesSite_iff (hmember : member ∈ siteMembers kind site replicas) (name : String) :
    carriesSite kind member name = true ↔
      name = site.name ∨ Text.hasPrefix site.name (name ++ "-") = true := by
  obtain ⟨ordinal, _, rfl⟩ := mem_map.mp hmember
  simp only [carriesSite, Text.hasPrefix_iff, String.toList_append]
  have hdash : ("-" : String).toList = ['-'] := rfl
  rw [hdash, append_assoc, append_assoc, append_assoc, append_assoc,
    append_assoc, prefix_append_right_inj, prefix_append_right_inj,
    singleton_append, Text.prefix_separated (Text.not_mem_toString (by decide) ordinal),
    String.toList_inj]

theorem addressMigrationJob_none_iff (r : Renderer) (desired : SitePlan)
    (migration : AddressMigrationPlan) : r.addressMigrationJob desired migration = .ok none ↔
      Text.hasPrefix migration.member ("etcd-" ++ desired.site.name ++ "-") = false := by
  unfold Renderer.addressMigrationJob
  constructor
  · intro h
    by_contra htest
    rw [if_neg htest] at h
    simp only at h
    split at h
    · cases h
    · cases h
  · intro htest
    rw [if_pos htest]

/-- No site that runs members has a name that continues the name of a site after a dash. -/
def SiteNamesApart (spec : MultiSitePostgresSpec) : Prop :=
  ∀ site ∈ spec.sites, 0 < site.components.etcdReplicas ∨ 0 < site.components.postgresReplicas →
    ∀ other ∈ spec.sites, Text.hasPrefix site.name (other.name ++ "-") = false
deriving Decidable

structure Attributed (spec : MultiSitePostgresSpec) : Prop where
  postgres : ∀ site ∈ spec.sites,
    ∀ member ∈ siteMembers "postgres" site site.components.postgresReplicas,
      ∀ other ∈ spec.sites, memberBelongsToSite member other.name = true ↔ other = site
  etcd : ∀ site ∈ spec.sites, ∀ member ∈ siteMembers "etcd" site site.components.etcdReplicas,
    ∀ other ∈ spec.sites, Text.hasPrefix member ("etcd-" ++ other.name ++ "-") = true ↔ other = site
  /-- The job that moves an etcd member to its new address is for the agent of its site. -/
  migration : ∀ site ∈ spec.sites, ∀ (r : Renderer) (desired : SitePlan)
    (migration : AddressMigrationPlan), desired.site ∈ spec.sites →
      migration.member ∈ siteMembers "etcd" site site.components.etcdReplicas →
        (r.addressMigrationJob desired migration = .ok none ↔ desired.site ≠ site)
  /-- What the hub reads about the primary is what the site of the primary has reported. -/
  primary : ∀ site ∈ spec.sites, ∀ instance' : MultiSitePostgres, instance'.spec = spec →
    (∀ entry ∈ instance'.status.sites, entry.name ∈ spec.sites.map (·.name)) →
      instance'.status.primary ∈ siteMembers "postgres" site site.components.postgresReplicas →
        primarySite? instance' = instance'.status.sites.find? (·.name = site.name)

theorem carriesSite_iff_eq {spec : MultiSitePostgresSpec} {other : PostgresSiteSpec}
    (hnames : (spec.sites.map (·.name)).Nodup) (hsite : site ∈ spec.sites)
    (hother : other ∈ spec.sites) (hmember : member ∈ siteMembers kind site replicas)
    (hapart : Text.hasPrefix site.name (other.name ++ "-") = false) :
    carriesSite kind member other.name = true ↔ other = site := by
  rw [carriesSite_iff hmember]
  constructor
  · rintro (hname | hextends)
    · exact inj_on_of_nodup_map hnames hother hsite hname
    · rw [hapart] at hextends
      cases hextends
  · rintro rfl
    exact .inl rfl

theorem pos_of_mem_siteMembers (h : member ∈ siteMembers kind site replicas) : 0 < replicas := by
  obtain ⟨ordinal, hordinal, -⟩ := mem_map.mp h
  exact Nat.zero_lt_of_lt (mem_range.mp hordinal)

theorem first_mem_siteMembers (h : 0 < replicas) : kind ++ "-" ++ site.name ++ "-" ++ toString 0 ∈
      siteMembers kind site replicas :=
  mem_map.mpr ⟨0, mem_range.mpr h, rfl⟩

theorem apart_of_exact {other : PostgresSiteSpec} (hpos : 0 < replicas)
    (hexact : ∀ member ∈ siteMembers kind site replicas,
      carriesSite kind member other.name = true ↔ other = site) :
    Text.hasPrefix site.name (other.name ++ "-") = false := by
  by_contra hextends
  have hprefix : Text.hasPrefix site.name (other.name ++ "-") = true := by simpa using hextends
  have hmember := @first_mem_siteMembers kind site replicas hpos
  have hsame : other = site :=
    (hexact _ hmember).mp ((carriesSite_iff hmember other.name).mpr (.inr hprefix))
  rw [hsame, Text.hasPrefix_iff] at hprefix
  have hlength := hprefix.length_le
  simp at hlength

/-- The tests attribute every member of an admitted instance to its own site, and only to
it, exactly when the names of the sites are apart. -/
theorem attributed_iff {lib : AdmissionLibrary} {spec : MultiSitePostgresSpec}
    (hadm : Admitted lib spec) : Attributed spec ↔ SiteNamesApart spec := by
  have hnames := hadm.names_nodup
  constructor
  · intro h site hsite hruns other hother
    rcases hruns with hetcd | hpg
    · refine @apart_of_exact "etcd" _ _ _ hetcd fun member hmember => ?_
      exact h.etcd site hsite member hmember other hother
    · refine @apart_of_exact "postgres" _ _ _ hpg fun member hmember => ?_
      rw [← memberBelongsToSite_eq]
      exact h.postgres site hsite member hmember other hother
  · intro h
    have hpg : ∀ site ∈ spec.sites,
        ∀ member ∈ siteMembers "postgres" site site.components.postgresReplicas,
          ∀ other ∈ spec.sites, memberBelongsToSite member other.name = true ↔ other = site := by
      intro site hsite member hmember other hother
      rw [memberBelongsToSite_eq]
      exact carriesSite_iff_eq hnames hsite hother hmember
        (h site hsite (.inr (pos_of_mem_siteMembers hmember)) other hother)
    have hetcd : ∀ site ∈ spec.sites,
        ∀ member ∈ siteMembers "etcd" site site.components.etcdReplicas, ∀ other ∈ spec.sites,
          Text.hasPrefix member ("etcd-" ++ other.name ++ "-") = true ↔ other = site := by
      intro site hsite member hmember other hother
      rw [hasPrefix_etcd_eq]
      exact carriesSite_iff_eq hnames hsite hother hmember
        (h site hsite (.inl (pos_of_mem_siteMembers hmember)) other hother)
    refine ⟨hpg, hetcd, ?_, ?_⟩
    · intro site hsite r desired migration hdesired hmember
      have htest := hetcd site hsite _ hmember desired.site hdesired
      rw [addressMigrationJob_none_iff, ← Bool.not_eq_true, htest]
    · intro site hsite instance' _ hentries hprimary
      show instance'.status.sites.find? _ = _
      rw [← head?_filter, ← head?_filter]
      congr 1
      refine filter_congr fun entry hentry => ?_
      obtain ⟨other, hother, hname⟩ := mem_map.mp (hentries entry hentry)
      have htest := hpg site hsite _ hprimary other hother
      rw [hname] at htest
      show memberBelongsToSite instance'.status.primary entry.name = _
      rw [Bool.eq_iff_iff, htest, decide_eq_true_eq]
      constructor
      · rintro rfl
        exact hname.symm
      · exact fun hsame => inj_on_of_nodup_map hnames hother hsite (hname.trans hsame)

theorem shipped_example_attributed : Admitted library orders.spec ∧ Attributed orders.spec := by
  have hadm : Admitted library orders.spec := by decide +kernel
  exact ⟨hadm, (attributed_iff hadm).mpr (by decide +kernel)⟩

namespace Sample

/-- The instance with a data site whose name continues that of `vic`. -/
def vicZero : PostgresSiteSpec := { vic with name := "vic-0", namespaceName := "orders-zero" }

/-- The instance after the site `vic-0` became the primary's. -/
def continuedOrders : MultiSitePostgres :=
  { orders with
    spec := specWith [vic, vicZero, qld]
    status := { orders.status with
      primary := "postgres-vic-0-0"
      sites := [{ name := "vic" }, { name := "vic-0" }, { name := "qld" }] } }

end Sample

/-- The webhook admits the sites `vic` and `vic-0`.  The first member of `vic-0` passes the
test for `vic`, and the hub reads the reports of `vic` while it is the primary. -/
theorem continued_name_misattributed : Admitted library continuedOrders.spec ∧
      continuedOrders.status.primary ∈
        siteMembers "postgres" vicZero vicZero.components.postgresReplicas ∧
      memberBelongsToSite continuedOrders.status.primary vic.name = true ∧
      (primarySite? continuedOrders).map (·.name) = some vic.name ∧
      "etcd-vic-0-0" ∈ siteMembers "etcd" vicZero vicZero.components.etcdReplicas ∧
      Text.hasPrefix "etcd-vic-0-0" ("etcd-" ++ vic.name ++ "-") = true := by
  decide +kernel

end Mspsql
