import Mspsql.Agent.Render
import Mspsql.Sample

/-!
# Site policy and what is rendered

`validateSitePolicy` judges the specification of a site, the renderer fills what the
specification leaves out.  The two meet everywhere but in two places: a witness may leave
out the storage of its etcd members, and a backup issuer without a name is not judged.
-/

namespace Mspsql

open List

/-! ## Defaults of the webhook -/

def defaultIssuer (ref : IssuerReference) : IssuerReference :=
  { ref with
    kind := if ref.kind = "" then "ClusterIssuer" else ref.kind
    group := if ref.group = "" then "cert-manager.io" else ref.group }

def defaultCertificates (certificates : SiteCertificateSpec) : SiteCertificateSpec :=
  let postgresIssuerRef := defaultIssuer certificates.postgresIssuerRef
  { etcdIssuerRef := defaultIssuer certificates.etcdIssuerRef
    etcdPeerIssuerRef := defaultIssuer certificates.etcdPeerIssuerRef
    etcdClientIssuerRef := defaultIssuer certificates.etcdClientIssuerRef
    postgresIssuerRef := postgresIssuerRef
    pgpoolIssuerRef := defaultIssuer certificates.pgpoolIssuerRef
    backupIssuerRef := defaultIssuer (if certificates.backupIssuerRef.name = "" then
      postgresIssuerRef else certificates.backupIssuerRef) }

def defaultBackup (backup : BackupSpec) : BackupSpec :=
  let week (d : Duration) := if d = 0 then 7 * 24 * 3600 * second else d
  { backup with
    retention := ⟨week backup.retention.duration, week backup.retention.walDuration⟩
    repository := { backup.repository with
      region := if backup.repository.region = "" then "us-east-1" else backup.repository.region
      uriStyle := if backup.repository.uriStyle = "" then "host"
        else backup.repository.uriStyle } }

def defaultInstance (spec : MultiSitePostgresSpec) : MultiSitePostgresSpec :=
  { spec with
    deletionPolicy := some (spec.deletionPolicy.getD .retain)
    backup := spec.backup.map defaultBackup
    sites := spec.sites.map fun site =>
      { site with certificates := defaultCertificates site.certificates } }

/-! ## Certificates and volume claims -/

/-- The four lists of issuers a registration permits. -/
inductive Component where
  | etcd
  | postgres
  | pgpool
  | backup
deriving DecidableEq, Repr

/-- A `Certificate` of cert-manager, with the component it belongs to. -/
structure Certificate where
  component : Component
  name : String
  issuerRef : IssuerReference
deriving DecidableEq, Repr

def effectiveIssuer (preferred fallback : IssuerReference) : IssuerReference :=
  if preferred.name ≠ "" then preferred else fallback

namespace SitePlan

variable (desired : SitePlan)

def backupWorkloadsEnabled : Bool :=
  desired.backup.isSome ∨ desired.seedRestore.any (desired.site.name = ·.seedSite)

def backupCertificate (name : String) : List Certificate :=
  if desired.backupWorkloadsEnabled then
    [⟨.backup, name, desired.site.certificates.backupIssuerRef⟩] else []

/-- `Renderer.Certificates`. -/
def certificates : List Certificate :=
  let refs := desired.site.certificates
  let etcdPeerIssuer := effectiveIssuer refs.etcdPeerIssuerRef refs.etcdIssuerRef
  let etcdClientIssuer := effectiveIssuer refs.etcdClientIssuerRef refs.etcdIssuerRef
  [⟨.etcd, "etcd-maintenance-client", etcdClientIssuer⟩] ++
    desired.etcdMembers.map (⟨.etcd, ·, etcdPeerIssuer⟩) ++
    (if desired.site.role = .data then
      [⟨.etcd, "patroni-etcd-client", etcdClientIssuer⟩,
        ⟨.postgres, "patroni-api-client", refs.postgresIssuerRef⟩] ++
        desired.backupCertificate "pgbackrest-client" else []) ++
    desired.postgresMembers.flatMap (fun name =>
      ⟨.postgres, name, refs.postgresIssuerRef⟩ ::
        desired.backupCertificate (name ++ "-pgbackrest")) ++
    if desired.site.components.pgpoolReplicas > 0 then
      [⟨.pgpool, "pgpool-" ++ desired.site.name, refs.pgpoolIssuerRef⟩] else []

/-- The storage `pvcTemplate` is given for a StatefulSet: etcd members are those with an
initial cluster. -/
def claimStorage (o : SiteObject) : Component × Option StorageRequest :=
  if o.initialCluster.isSome then (.etcd, desired.site.storage.etcd)
  else (.postgres, desired.site.storage.postgres)

/-- `pvcTemplate`: the StorageClass of the claim, if it names one. -/
def pvcTemplate (storage : Option StorageRequest) : Option String :=
  storage.map (·.storageClassName)

end SitePlan

/-! ## What a registration permits -/

namespace SiteRegistration

variable (registration : SiteRegistration)

def issuers : Component → List IssuerReference
  | .etcd => registration.permittedIssuers.etcd
  | .postgres => registration.permittedIssuers.postgres
  | .pgpool => registration.permittedIssuers.pgpool
  | .backup => if registration.permittedIssuers.backup.isEmpty then
      registration.permittedIssuers.postgres else registration.permittedIssuers.backup

def storageClasses : Component → List String
  | .etcd => registration.permittedStorageClasses.etcd
  | .postgres => registration.permittedStorageClasses.postgres
  | _ => []

def Permits (component : Component) (issuer : IssuerReference) : Prop :=
  issuerAllowed (registration.issuers component) issuer = true

def PermitsIssuers (desired : SitePlan) : Prop :=
  ∀ certificate ∈ desired.certificates,
    registration.Permits certificate.component certificate.issuerRef

/-- Every claim template among the objects names a permitted StorageClass, and so do the
claims of a rollback, which `rollbackClonePVC` and `rollbackRestorePVC` make from the
PostgreSQL storage. -/
def PermitsClaims (desired : SitePlan) (objects : List SiteObject) : Prop :=
  (∀ o ∈ objects, o.kind = .statefulSet →
    ∃ name ∈ registration.storageClasses (desired.claimStorage o).1,
      SitePlan.pvcTemplate (desired.claimStorage o).2 = some name) ∧
  ∀ storage ∈ desired.site.storage.postgres,
    storage.storageClassName ∈ registration.storageClasses .postgres

end SiteRegistration

section Soundness

variable {site : PostgresSiteSpec} {registration : SiteRegistration} {desired : SitePlan}
  {lib : AdmissionLibrary} {raw : MultiSitePostgresSpec}

/-- What a site that `validateSitePolicy` accepts has been judged for. -/
structure SiteAccepted (site : PostgresSiteSpec) (registration : SiteRegistration) : Prop where
  etcdStorage : ∀ storage ∈ site.storage.etcd,
    storage.storageClassName ∈ registration.storageClasses .etcd
  postgresStorage : ∀ storage ∈ site.storage.postgres,
    storage.storageClassName ∈ registration.storageClasses .postgres
  etcdPeer : registration.Permits .etcd
    (effectiveIssuer site.certificates.etcdPeerIssuerRef site.certificates.etcdIssuerRef)
  etcdClient : registration.Permits .etcd
    (effectiveIssuer site.certificates.etcdClientIssuerRef site.certificates.etcdIssuerRef)
  postgres : site.role = .data → registration.Permits .postgres site.certificates.postgresIssuerRef
  pgpool : site.role = .data → registration.Permits .pgpool site.certificates.pgpoolIssuerRef
  backup : site.role = .data → site.certificates.backupIssuerRef.name ≠ "" →
    registration.Permits .backup site.certificates.backupIssuerRef

theorem siteAccepted (h : validateSitePolicy site registration = none) :
    SiteAccepted site registration := by
  unfold validateSitePolicy at h
  rw [Option.map_eq_none_iff, find?_eq_none] at h
  simp only [sitePolicyChecks, forall_mem_cons, Bool.not_eq_true, decide_eq_false_iff_not,
    Bool.not_eq_false', not_and, Bool.not_eq_false] at h
  obtain ⟨-, hetcd, hpg, -, hissuer, hpeer, hclient, hdata, hpgpool, hbackup, -⟩ := h
  have heffective : ∀ preferred : IssuerReference, (preferred.name ≠ "" →
      registration.Permits .etcd preferred) →
        registration.Permits .etcd (effectiveIssuer preferred site.certificates.etcdIssuerRef) := by
    intro preferred hpreferred
    unfold effectiveIssuer
    split
    · exact hpreferred ‹_›
    · exact hissuer
  refine ⟨?_, ?_, heffective _ hpeer, heffective _ hclient, hdata, hpgpool, hbackup⟩
  · intro storage hstorage
    rw [Option.mem_def.mp hstorage] at hetcd
    simpa [SiteRegistration.storageClasses] using hetcd
  · intro storage hstorage
    rw [Option.mem_def.mp hstorage] at hpg
    simpa [SiteRegistration.storageClasses] using hpg

/-- A backup issuer without a name is the PostgreSQL issuer; the registration has to permit it
for backups as well, which nobody checks. -/
def BackupIssuerJudged (registration : SiteRegistration) (desired : SitePlan) : Prop :=
  desired.backupWorkloadsEnabled = true → desired.site.role = .data →
    desired.site.certificates.backupIssuerRef.name = "" →
      registration.permittedIssuers.backup = [] ∨
        desired.site.certificates.backupIssuerRef ∈ registration.permittedIssuers.backup

theorem defaultIssuer_idem (ref : IssuerReference) :
    defaultIssuer (defaultIssuer ref) = defaultIssuer ref := by
  simp only [defaultIssuer, IssuerReference.mk.injEq, true_and]
  constructor <;> split <;> simp_all

theorem nameless_backupIssuer (hsite : site ∈ (defaultInstance raw).sites)
    (hname : site.certificates.backupIssuerRef.name = "") :
    site.certificates.backupIssuerRef = site.certificates.postgresIssuerRef := by
  obtain ⟨given, -, rfl⟩ := mem_map.mp hsite
  by_cases hgiven : given.certificates.backupIssuerRef.name = ""
  · show defaultIssuer (if _ then _ else _) = _
    rw [if_pos hgiven]
    exact defaultIssuer_idem _
  · refine absurd hname ?_
    show (defaultIssuer (if _ then _ else _)).name ≠ ""
    rw [if_neg hgiven]
    exact hgiven

theorem mem_backupCertificate {certificate : Certificate} {name : String} :
    certificate ∈ desired.backupCertificate name ↔ desired.backupWorkloadsEnabled = true ∧
      certificate = ⟨.backup, name, desired.site.certificates.backupIssuerRef⟩ := by
  unfold SitePlan.backupCertificate
  split <;> simp_all

theorem SiteAccepted.certificate (h : SiteAccepted desired.site registration)
    (hadm : Admitted lib raw) (hsite : desired.site ∈ raw.sites) {certificate : Certificate}
    (hmem : certificate ∈ desired.certificates) :
    registration.Permits certificate.component certificate.issuerRef ∨
      desired.backupWorkloadsEnabled = true ∧ desired.site.role = .data ∧
        certificate.component = .backup ∧
        certificate.issuerRef = desired.site.certificates.backupIssuerRef := by
  have hwitness : desired.site.role ≠ .data → desired.site.components.pgpoolReplicas = 0 := by
    intro hrole
    obtain ⟨path, hvalid⟩ := hadm.dataSite hsite
    unfold validateDataSite at hvalid
    cases hwitness : desired.site.role with
    | data => exact absurd hwitness hrole
    | witness =>
      rw [hwitness] at hvalid
      by_contra hpgpool
      simp [hpgpool] at hvalid
  simp only [SitePlan.certificates, mem_append, mem_singleton] at hmem
  rcases hmem with (((rfl | hetcd) | hclients) | hpg) | hpgpool
  · exact .inl h.etcdClient
  · obtain ⟨name, -, rfl⟩ := mem_map.mp hetcd
    exact .inl h.etcdPeer
  · split at hclients
    · rename_i hrole
      rcases mem_append.mp hclients with hclient | hbackup
      · rcases mem_pair.mp hclient with rfl | rfl
        · exact .inl h.etcdClient
        · exact .inl (h.postgres hrole)
      · obtain ⟨henabled, rfl⟩ := mem_backupCertificate.mp hbackup
        exact .inr ⟨henabled, hrole, rfl, rfl⟩
    · cases hclients
  · obtain ⟨name, hname, hcertificate⟩ := mem_flatMap.mp hpg
    have hrole : desired.site.role = .data := by
      obtain ⟨ordinal, hordinal, -⟩ := mem_map.mp hname
      exact (hadm.data_iff hsite).mpr (Nat.zero_lt_of_lt (mem_range.mp hordinal))
    rcases mem_cons.mp hcertificate with rfl | hbackup
    · exact .inl (h.postgres hrole)
    · obtain ⟨henabled, rfl⟩ := mem_backupCertificate.mp hbackup
      exact .inr ⟨henabled, hrole, rfl, rfl⟩
  · split at hpgpool
    · rename_i hpositive
      rw [mem_singleton.mp hpgpool]
      refine .inl (h.pgpool ?_)
      by_contra hrole
      rw [hwitness hrole] at hpositive
      cases hpositive
    · cases hpgpool

theorem permitsIssuers_iff (hadm : Admitted lib (defaultInstance raw))
    (hsite : desired.site ∈ (defaultInstance raw).sites)
    (h : SiteAccepted desired.site registration) :
    registration.PermitsIssuers desired ↔ BackupIssuerJudged registration desired := by
  have hbackup : desired.site.role = .data →
      (registration.Permits .backup desired.site.certificates.backupIssuerRef ↔
        (desired.site.certificates.backupIssuerRef.name = "" →
          registration.permittedIssuers.backup = [] ∨
            desired.site.certificates.backupIssuerRef ∈ registration.permittedIssuers.backup)) := by
    intro hrole
    by_cases hname : desired.site.certificates.backupIssuerRef.name = ""
    · have hpg := h.postgres hrole
      rw [← nameless_backupIssuer hsite hname] at hpg
      by_cases hnone : registration.permittedIssuers.backup = []
      · simpa [SiteRegistration.Permits, SiteRegistration.issuers, hnone] using hpg
      · simp [SiteRegistration.Permits, SiteRegistration.issuers, issuerAllowed, hnone, hname]
    · simpa [hname] using h.backup hrole hname
  constructor
  · intro hpermits henabled hrole
    refine (hbackup hrole).mp (hpermits ⟨.backup, "pgbackrest-client", _⟩ ?_)
    simp only [SitePlan.certificates, if_pos hrole, mem_append]
    exact .inl (.inl (.inr (.inr (mem_backupCertificate.mpr ⟨henabled, rfl⟩))))
  · intro hjudged certificate hmem
    rcases h.certificate hadm hsite hmem with hallowed | ⟨henabled, hrole, hcomponent, hissuer⟩
    · exact hallowed
    · rw [hcomponent, hissuer]
      exact (hbackup hrole).mpr (hjudged henabled hrole)

/-- A claim names a permitted StorageClass, or none: that of an etcd member without a storage
request, which gets the default class of the cluster. -/
theorem claim_permitted (hadm : Admitted lib raw) (hsite : desired.site ∈ raw.sites)
    (h : SiteAccepted desired.site registration) {r : Renderer} {objects : List SiteObject}
    (hrendered : r.workloads desired = .ok objects) :
    ∀ o ∈ objects, o.kind = .statefulSet →
      (∃ name ∈ registration.storageClasses (desired.claimStorage o).1,
        SitePlan.pvcTemplate (desired.claimStorage o).2 = some name) ∨
      desired.claimStorage o = (.etcd, none) ∧ 0 < desired.site.components.etcdReplicas ∧
        desired.site.storage.etcd = none := by
  intro o ho hkind
  cases (Renderer.workloads_spec hrendered).case o ho with
  | plain hother =>
    rw [hkind] at hother
    simp at hother
  | etcd initialCluster hname =>
    obtain ⟨ordinal, hordinal, -⟩ := mem_map.mp hname
    cases hstorage : desired.site.storage.etcd with
    | none =>
      exact .inr ⟨congrArg (Prod.mk _) hstorage, Nat.zero_lt_of_lt (mem_range.mp hordinal), rfl⟩
    | some storage => exact .inl ⟨_, h.etcdStorage storage hstorage, congrArg _ hstorage⟩
  | postgres hruns hname =>
    obtain ⟨path, hvalid⟩ := hadm.dataSite hsite
    unfold validateDataSite at hvalid
    cases hrole : desired.site.role with
    | witness => exact absurd (.inl hrole) hruns
    | data =>
      rw [hrole] at hvalid
      cases hstorage : desired.site.storage.postgres with
      | none => simp [hstorage] at hvalid
      | some storage => exact .inl ⟨_, h.postgresStorage storage hstorage, congrArg _ hstorage⟩
  | pgpool => cases hkind

theorem permitsClaims_iff (hadm : Admitted lib raw) (hsite : desired.site ∈ raw.sites)
    (h : SiteAccepted desired.site registration) {r : Renderer} {objects : List SiteObject}
    (hrendered : r.workloads desired = .ok objects) :
    registration.PermitsClaims desired objects ↔
      (0 < desired.site.components.etcdReplicas → desired.site.storage.etcd.isSome = true) := by
  constructor
  · rintro ⟨hclaims, -⟩ hpositive
    obtain ⟨initialCluster, hmem⟩ := (Renderer.workloads_spec hrendered).etcd _
      (mem_map_of_mem (mem_range.mpr hpositive))
    obtain ⟨name, -, htemplate⟩ := hclaims _ hmem rfl
    obtain ⟨storage, hstorage, -⟩ := Option.map_eq_some_iff.mp htemplate
    exact Option.isSome_iff_exists.mpr ⟨storage, hstorage⟩
  · intro hgiven
    refine ⟨fun o ho hkind => ?_, h.postgresStorage⟩
    refine (claim_permitted hadm hsite h hrendered o ho hkind).resolve_right ?_
    rintro ⟨-, hpositive, hnone⟩
    simpa [hnone] using hgiven hpositive

/-- A site's plan carries its specification as it was judged.  All its certificates have
permitted issuers unless the backup issuer has no name.  Every StorageClass that is claimed is
permitted, and every claim names one unless etcd members run without a storage request. -/
theorem sitePolicy_sound_iff (hadm : Admitted lib (defaultInstance raw))
    (hsite : desired.site ∈ (defaultInstance raw).sites)
    (hpolicy : validateSitePolicy desired.site registration = none) :
    (registration.PermitsIssuers desired ↔ BackupIssuerJudged registration desired) ∧
    ∀ (r : Renderer) (objects : List SiteObject), r.workloads desired = .ok objects →
      (∀ o ∈ objects, o.kind = .statefulSet →
        (∃ name ∈ registration.storageClasses (desired.claimStorage o).1,
          SitePlan.pvcTemplate (desired.claimStorage o).2 = some name) ∨
        desired.claimStorage o = (.etcd, none)) ∧
      (registration.PermitsClaims desired objects ↔
        (0 < desired.site.components.etcdReplicas → desired.site.storage.etcd.isSome = true)) :=
  have haccepted := siteAccepted hpolicy
  ⟨permitsIssuers_iff hadm hsite haccepted, fun _ _ hrendered =>
    ⟨fun o ho hkind => (claim_permitted hadm hsite haccepted hrendered o ho hkind).imp_right
      (·.1), permitsClaims_iff hadm hsite haccepted hrendered⟩⟩

end Soundness

/-! ## The shipped example -/

namespace Sample

def ordersPlan (name : String) (site : PostgresSiteSpec) : SitePlan :=
  let addresses := (expectedAddressMembers orders.spec.sites).map (·, "10.0.0.1")
  sitePlan orders ⟨none, none, none, ⟨.ofList addresses, ∅, none⟩, none⟩ 0 (registration name) site

def renderer : Renderer where
  operationHash := id
  parseURL := library.parseURL

theorem orders_admitted : Admitted library (defaultInstance orders.spec) := by decide +kernel

theorem vic_permitted : validateSitePolicy vic (registration "vic") = none ∧
    (registration "vic").PermitsIssuers (ordersPlan "vic" vic) := by
  have hsite : (ordersPlan "vic" vic).site ∈ (defaultInstance orders.spec).sites := by
    decide +kernel
  have hpolicy : validateSitePolicy vic (registration "vic") = none := by decide +kernel
  refine ⟨hpolicy, (sitePolicy_sound_iff orders_admitted hsite hpolicy).1.mpr fun _ _ hname => ?_⟩
  exact absurd hname (by decide +kernel)

/-- The shipped witness runs an etcd member and requests no storage. -/
theorem qld_claim_unpermitted :
    defaultInstance orders.spec = orders.spec ∧ Admitted library orders.spec ∧
    qld ∈ orders.spec.sites ∧ validateSitePolicy qld (registration "qld") = none ∧
    ∃ o ∈ ((renderer.workloads (ordersPlan "qld" qld)).toOption.getD []), o.kind = .statefulSet ∧
      (ordersPlan "qld" qld).claimStorage o = (.etcd, none) ∧
      SitePlan.pvcTemplate ((ordersPlan "qld" qld).claimStorage o).2 = none := by
  decide +kernel

end Sample

end Mspsql
