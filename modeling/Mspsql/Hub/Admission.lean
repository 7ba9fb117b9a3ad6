import Mspsql.Hub.Checks

/-!
# Admission of instances

The validating webhook for `MultiSitePostgres`.  An instance is admitted when the list of
field errors is empty.  The URL parser and the cron and timezone libraries are parameters.
-/

namespace Mspsql

open List

inductive FieldErrorKind where
  | invalid
  | duplicate
  | required
deriving DecidableEq, Repr

structure FieldError where
  kind : FieldErrorKind
  path : String
  detail : String := ""
deriving DecidableEq, Repr

/-- The libraries the webhook calls. -/
structure AdmissionLibrary where
  /-- `url.Parse`: scheme and host name. -/
  parseURL : String → Option (String × String)
  loadLocation : String → Bool
  /-- `cron.ParseStandard` accepts an expression in a timezone. -/
  parseCron : String → String → Bool

def AdmissionLibrary.absoluteHTTPS (lib : AdmissionLibrary) (url : String) : Bool :=
  match lib.parseURL url with
  | some (scheme, host) => scheme = "https" ∧ host ≠ ""
  | none => false

def labelChar (c : Char) : Bool := c.isLower ∨ c.isDigit

/-- `validation.IsDNS1123Label` accepts. -/
def isDNS1123Label (s : String) : Bool :=
  s.toList.all (fun c => labelChar c ∨ c = '-') ∧ (s.toList.head?.any labelChar) ∧
    (s.toList.getLast?.any labelChar) ∧ s.toList.length ≤ 63

def multiLine (s : String) : Bool := s.toList.any fun c => c = '\r' ∨ c = '\n'

def hasNul (s : String) : Bool := s.toList.any fun c => c = '\x00'

/-- The value of a 32-bit sum. -/
def wrap32 (n : Nat) : Int := ((n : Int) + 2147483648) % 4294967296 - 2147483648

def validateVaultPath (path value : String) : List FieldError :=
  if value = "" then [⟨.required, path, "required"⟩]
  else if value.utf8ByteSize > 1024 ∨ trimSlashes value ≠ value ∨ multiLine value ∨ hasNul value ∨
      Text.contains value "//" ∨
      ((Text.splitOnChar '/' value).any fun s => s = "" ∨ s = "." ∨ s = "..") then
    [⟨.invalid, path, "must be a normalized single-line Vault path"⟩]
  else []

def validateVaultSecretReference (path : String) (reference : VaultSecretReference)
    (requireKey : Bool) : List FieldError :=
  validateVaultPath (path ++ ".mount") reference.mount ++
    validateVaultPath (path ++ ".path") reference.path ++
    if requireKey ∨ reference.key ≠ "" then
      if reference.key = "" then [⟨.required, path ++ ".key", "required"⟩]
      else if reference.key.utf8ByteSize > 253 ∨ multiLine reference.key ∨ hasNul reference.key then
        [⟨.invalid, path ++ ".key", "must be a single-line key no longer than 253 bytes"⟩]
      else []
    else []

def validateDataSite (lib : AdmissionLibrary) (path : String) (site : PostgresSiteSpec) :
    List FieldError :=
  match site.role with
  | .witness =>
    if site.components.postgresReplicas ≠ 0 ∨ site.components.pgpoolReplicas ≠ 0 then
      [⟨.invalid, path ++ ".components", "witness sites cannot run PostgreSQL or Pgpool"⟩]
    else []
  | .data =>
    (if site.components.postgresReplicas = 0 then
      [⟨.invalid, path ++ ".components.postgresReplicas",
        "data sites require at least one PostgreSQL replica"⟩] else []) ++
    (if site.storage.postgres.isNone ∨ site.storage.etcd.isNone then
      [⟨.required, path ++ ".storage", "data sites require etcd and PostgreSQL storage"⟩]
      else []) ++
    match site.vaultAuth with
    | none => [⟨.required, path ++ ".vaultAuth", "data sites require Vault authentication"⟩]
    | some vault =>
      (if lib.absoluteHTTPS vault.address then [] else
        [⟨.invalid, path ++ ".vaultAuth.address", "must be an absolute HTTPS URL"⟩]) ++
      (if vault.authMount = "" then [⟨.required, path ++ ".vaultAuth.authMount", "required"⟩]
        else []) ++
      (if vault.authRole = "" then [⟨.required, path ++ ".vaultAuth.authRole", "required"⟩]
        else []) ++
      if vault.caBundleSecretRef.any (·.name = "") then
        [⟨.required, path ++ ".vaultAuth.caBundleSecretRef.name", "required"⟩] else []

/-- The loop of `validateInstance` over the sites; `names` and `namespaces` are what the
earlier sites have used. -/
def validateSites (lib : AdmissionLibrary) :
    Nat → List String → List String → List PostgresSiteSpec → List FieldError
  | _, _, _, [] => []
  | index, names, namespaces, site :: rest =>
    let path := "spec.sites[" ++ toString index ++ "]"
    let namespaceKey := site.siteRegistrationRef ++ "/" ++ site.namespaceName
    (if site.name ∈ names then [⟨.duplicate, path ++ ".name", site.name⟩] else []) ++
      (if namespaceKey ∈ namespaces then [⟨.duplicate, path ++ ".namespace", namespaceKey⟩]
        else []) ++
      (if isDNS1123Label site.namespaceName then [] else
        [⟨.invalid, path ++ ".namespace", site.namespaceName⟩]) ++
      validateDataSite lib path site ++
      validateSites lib (index + 1) (site.name :: names) (namespaceKey :: namespaces) rest

def validateTDE (tde : TDESpec) : List FieldError :=
  let path := "spec.tde.vault"
  let name (field value : String) : List FieldError :=
    if value = "" then [⟨.required, path ++ "." ++ field, "required"⟩]
    else if value.utf8ByteSize > 63 ∨ multiLine value then
      [⟨.invalid, path ++ "." ++ field, "must be a single-line name no longer than 63 bytes"⟩]
    else []
  if tde.enabled then
    match tde.vault with
    | none => [⟨.required, path, "TDE requires a Vault key identity"⟩]
    | some vault =>
      validateVaultPath (path ++ ".kvMount") vault.kvMount ++
        validateVaultPath (path ++ ".keyPath") vault.keyPath ++
        name "providerName" vault.providerName ++ name "principalKeyName" vault.principalKeyName
  else []

/-- `validateBackupRepository`, with the check that the repository path names the instance. -/
def validateBackupRepository (lib : AdmissionLibrary) (repository : BackupRepositorySpec) :
    List FieldError :=
  let path := "spec.backup.repository"
  let singleLine (field value : String) : List FieldError :=
    if multiLine value then [⟨.invalid, path ++ "." ++ field, "must be a single line"⟩] else []
  (if trimSlashes repository.pathPrefix = "" then
    [⟨.required, path ++ ".prefix", "backup prefix must identify this instance"⟩] else []) ++
  singleLine "bucket" repository.bucket ++ singleLine "prefix" repository.pathPrefix ++
  singleLine "region" repository.region ++
  (if repository.endpoint ≠ "" ∧ lib.absoluteHTTPS repository.endpoint = false then
    [⟨.invalid, path ++ ".endpoint", "must be an absolute HTTPS URL"⟩] else []) ++
  (if repository.caBundleSecretRef.any (·.name = "") then
    [⟨.required, path ++ ".caBundleSecretRef.name", "required"⟩] else []) ++
  validateVaultSecretReference (path ++ ".credentialVaultRef") repository.credentialVaultRef false

def validateBackupSchedules (lib : AdmissionLibrary) (schedules : BackupSchedules) :
    List FieldError :=
  let path := "spec.backup.schedules"
  let timezone := if schedules.timezone = "" then "UTC" else schedules.timezone
  let schedule (field expression : String) : List FieldError :=
    if expression = "" ∨ lib.parseCron expression timezone then []
    else [⟨.invalid, path ++ "." ++ field, expression⟩]
  if lib.loadLocation timezone = false then
    [⟨.invalid, path ++ ".timezone", "must be an IANA timezone"⟩]
  else
    schedule "full" schedules.full ++ schedule "differential" schedules.differential ++
      schedule "incremental" schedules.incremental

def validateInstance (lib : AdmissionLibrary) (spec : MultiSitePostgresSpec) : List FieldError :=
  let etcd := wrap32 (spec.sites.map (·.components.etcdReplicas)).sum
  let postgres := wrap32 (spec.sites.map (·.components.postgresReplicas)).sum
  (if Text.contains spec.postgres.image "@sha256:" then [] else
    [⟨.invalid, "spec.postgres.image", "must be pinned by sha256 digest"⟩]) ++
  validateSites lib 0 [] [] spec.sites ++
  (if etcd < 3 ∨ etcd % 2 = 0 then
    [⟨.invalid, "spec.sites", "total etcd voters must be odd and at least three"⟩] else []) ++
  (if postgres < 2 then
    [⟨.invalid, "spec.sites", "at least two PostgreSQL replicas are required"⟩] else []) ++
  (if (spec.postgres.synchronousStandbyCount : Int) ≥ postgres then
    [⟨.invalid, "spec.postgres.synchronousStandbyCount",
      "must be lower than total PostgreSQL replicas"⟩] else []) ++
  validateTDE spec.tde ++
  validateVaultSecretReference "spec.credentials.postgresVaultRef"
    spec.credentials.postgresVaultRef false ++
  (if spec.sites.any (·.components.pgpoolReplicas > 0) then
    validateVaultSecretReference "spec.credentials.pgpoolVaultRef"
      spec.credentials.pgpoolVaultRef false else []) ++
  match spec.backup with
  | none => []
  | some backup =>
    validateBackupRepository lib backup.repository ++ validateBackupSchedules lib backup.schedules

/-- The webhook lets the specification through. -/
def Admitted (lib : AdmissionLibrary) (spec : MultiSitePostgresSpec) : Prop :=
  validateInstance lib spec = []
deriving Decidable

variable {lib : AdmissionLibrary} {spec : MultiSitePostgresSpec}

theorem validateSites_names {index : Nat} {names namespaces : List String}
    {sites : List PostgresSiteSpec} (h : validateSites lib index names namespaces sites = []) :
    (sites.map (·.name)).Nodup ∧ ∀ s ∈ sites, s.name ∉ names := by
  induction sites generalizing index names namespaces with
  | nil => simp
  | cons site rest ih =>
    simp only [validateSites, append_eq_nil_iff] at h
    obtain ⟨⟨⟨⟨hname, _⟩, _⟩, _⟩, hrest⟩ := h
    have hfresh : site.name ∉ names := fun hm => by simp [hm] at hname
    obtain ⟨hnodup, hdisj⟩ := ih hrest
    refine ⟨?_, ?_⟩
    · rw [map_cons, nodup_cons]
      refine ⟨fun hm => ?_, hnodup⟩
      obtain ⟨s, hs, hsn⟩ := mem_map.mp hm
      exact hdisj s hs (by simp [hsn])
    · intro s hs
      rcases mem_cons.mp hs with rfl | hs
      · exact hfresh
      · exact fun hm => hdisj s hs (mem_cons_of_mem _ hm)

theorem Admitted.names_nodup (h : Admitted lib spec) : (spec.sites.map (·.name)).Nodup := by
  unfold Admitted validateInstance at h
  simp only [append_eq_nil_iff] at h
  exact (validateSites_names h.1.1.1.1.1.1.1.2).1

theorem validateSites_dataSite {index : Nat} {names namespaces : List String}
    {sites : List PostgresSiteSpec} (h : validateSites lib index names namespaces sites = []) :
    ∀ site ∈ sites, ∃ path, validateDataSite lib path site = [] := by
  induction sites generalizing index names namespaces with
  | nil => exact fun _ hs => nomatch hs
  | cons first rest ih =>
    simp only [validateSites, append_eq_nil_iff] at h
    intro site hsite
    rcases mem_cons.mp hsite with rfl | hsite
    · exact ⟨_, h.1.2⟩
    · exact ih h.2 site hsite

theorem Admitted.dataSite (h : Admitted lib spec) {site : PostgresSiteSpec}
    (hsite : site ∈ spec.sites) : ∃ path, validateDataSite lib path site = [] := by
  unfold Admitted validateInstance at h
  simp only [append_eq_nil_iff] at h
  exact validateSites_dataSite h.1.1.1.1.1.1.1.2 site hsite

theorem Admitted.data_iff (h : Admitted lib spec) {site : PostgresSiteSpec}
    (hsite : site ∈ spec.sites) :
    site.role = .data ↔ 0 < site.components.postgresReplicas := by
  obtain ⟨path, hvalid⟩ := h.dataSite hsite
  unfold validateDataSite at hvalid
  cases hrole : site.role with
  | witness =>
    rw [hrole] at hvalid
    by_cases hzero : site.components.postgresReplicas = 0
    · simp [hzero]
    · simp [hzero] at hvalid
  | data =>
    rw [hrole] at hvalid
    by_cases hzero : site.components.postgresReplicas = 0
    · simp [hzero] at hvalid
    · simp [Nat.pos_of_ne_zero hzero]

theorem Admitted.sums (h : Admitted lib spec) :
    let etcd := wrap32 (spec.sites.map (·.components.etcdReplicas)).sum
    let postgres := wrap32 (spec.sites.map (·.components.postgresReplicas)).sum
    ¬ (etcd < 3 ∨ etcd % 2 = 0) ∧ ¬ postgres < 2 ∧
      ¬ (spec.postgres.synchronousStandbyCount : Int) ≥ postgres := by
  unfold Admitted validateInstance at h
  simp only [append_eq_nil_iff] at h
  obtain ⟨⟨⟨⟨⟨⟨-, hetcd⟩, hpg⟩, hstandbys⟩, -⟩, -⟩, -⟩ := h.1
  refine ⟨fun hbad => ?_, fun hbad => ?_, fun hbad => ?_⟩
  · rw [if_pos hbad] at hetcd
    cases hetcd
  · rw [if_pos hbad] at hpg
    cases hpg
  · rw [if_pos hbad] at hstandbys
    cases hstandbys

theorem Admitted.exists_data (h : Admitted lib spec) : ∃ site ∈ spec.sites, site.role = .data := by
  obtain ⟨-, hmembers, -⟩ := h.sums
  by_contra hnone
  have hzero : (spec.sites.map (·.components.postgresReplicas)).sum = 0 := by
    refine sum_eq_zero fun n hn => ?_
    obtain ⟨site, hsite, rfl⟩ := mem_map.mp hn
    by_contra hpos
    exact hnone ⟨site, hsite, (h.data_iff hsite).mpr (Nat.pos_of_ne_zero hpos)⟩
  rw [hzero] at hmembers
  exact hmembers (by decide)

def add32 (total : Int) (n : Nat) : Int := (total + n + 2147483648) % 4294967296 - 2147483648

/-- The sum as the loop over the sites makes it, in 32 bits at every step. -/
def accumulate32 (counts : List Nat) : Int := counts.foldl add32 0

theorem accumulate32_eq (counts : List Nat) : accumulate32 counts = wrap32 counts.sum := by
  have hfrom : ∀ n : Nat, counts.foldl add32 (wrap32 n) = wrap32 (n + counts.sum) := by
    induction counts with
    | nil =>
      intro n
      rw [foldl_nil, sum_nil, Nat.add_zero]
    | cons count rest ih =>
      intro n
      have hstep : add32 (wrap32 n) count = wrap32 (n + count) := by
        unfold add32 wrap32
        omega
      rw [foldl_cons, hstep, ih, sum_cons, Nat.add_assoc]
  have hzero : wrap32 0 = 0 := by decide
  have hall := hfrom 0
  rwa [Nat.zero_add] at hall

/-- A sum of counts is not below its value in 32 bits, and as odd. -/
theorem wrap32_spec (n : Nat) : wrap32 n ≤ n ∧ wrap32 n % 2 = n % 2 := by
  unfold wrap32
  omega

/-- What the checks of the 32-bit sums say of the true ones. -/
theorem admitted_replicas (h : Admitted lib spec) :
    let etcd := (spec.sites.map (·.components.etcdReplicas)).sum
    let postgres := (spec.sites.map (·.components.postgresReplicas)).sum
    (∀ counts, accumulate32 counts = wrap32 counts.sum) ∧ Odd etcd ∧ 3 ≤ etcd ∧ 2 ≤ postgres ∧
      spec.postgres.synchronousStandbyCount < postgres ∧
      ∀ site ∈ spec.sites, if site.role = .witness then
        site.components.postgresReplicas = 0 ∧ site.components.pgpoolReplicas = 0
      else 1 ≤ site.components.postgresReplicas := by
  obtain ⟨hetcd, hpg, hstandbys⟩ := h.sums
  have hetcds := wrap32_spec (spec.sites.map (·.components.etcdReplicas)).sum
  have hpostgress := wrap32_spec (spec.sites.map (·.components.postgresReplicas)).sum
  refine ⟨accumulate32_eq, Nat.odd_iff.mpr (by omega), by omega, by omega, by omega, ?_⟩
  intro site hsite
  obtain ⟨path, hvalid⟩ := h.dataSite hsite
  have hdata := h.data_iff hsite
  split
  · rename_i hwitness
    rw [validateDataSite, hwitness] at hvalid
    by_contra hrunning
    rw [not_and_or] at hrunning
    rw [if_pos hrunning] at hvalid
    cases hvalid
  · rename_i hrole
    cases hsiteRole : site.role with
    | witness => exact absurd hsiteRole hrole
    | data => exact hdata.mp hsiteRole

/-! ## The shipped example

The instance of `docs/examples/multisite-postgres.yaml`, after defaulting.  Left out are the peer
source addresses, the etcd peer and client issuers, the CA of Vault and most of the digest of the
image; the witness has the issuers of the data sites.
-/

namespace Sample

/-- A URL parser that knows absolute HTTPS addresses. -/
def library : AdmissionLibrary where
  parseURL url := if Text.hasPrefix url "https://" then
    some ("https", Text.trimPrefix url "https://") else none
  loadLocation _ := true
  parseCron _ _ := true

def issuer (name : String) : IssuerReference :=
  { name := name, kind := "ClusterIssuer", group := "cert-manager.io" }

def certificates : SiteCertificateSpec where
  etcdIssuerRef := issuer "etcd-vault"
  etcdPeerIssuerRef := issuer ""
  etcdClientIssuerRef := issuer ""
  postgresIssuerRef := issuer "postgres-vault"
  pgpoolIssuerRef := issuer "client-vault"
  backupIssuerRef := issuer "backup-vault"

def dataSite (name : String) (preference : Int) (etcd postgres pgpool : Nat) :
    PostgresSiteSpec where
  name := name
  siteRegistrationRef := "production-" ++ name
  namespaceName := "orders-postgres"
  role := .data
  primaryPreference := preference
  components := ⟨etcd, postgres, pgpool⟩
  storage :=
    { etcd := some ⟨"premium-rwo", "20Gi"⟩, postgres := some ⟨"premium-rwo", "500Gi"⟩ }
  loadBalancer := some { addressPool := "database-services" }
  vaultAuth := some {
    address := "https://vault.example.internal:8200"
    authMount := "kubernetes-" ++ name
    authRole := "orders-postgres-" ++ name }
  certificates := certificates

def witnessSite (name : String) (etcd : Nat) : PostgresSiteSpec where
  name := name
  siteRegistrationRef := "production-" ++ name
  namespaceName := "orders-postgres"
  role := .witness
  components := ⟨etcd, 0, 0⟩
  certificates := certificates

def backup : BackupSpec where
  repository := {
    type := "S3"
    bucket := "database-backups"
    pathPrefix := "orders"
    endpoint := "https://s3.example.internal"
    region := "ap-southeast-2"
    uriStyle := "path"
    caBundleSecretRef := some ⟨"object-storage-ca", "ca.crt"⟩
    credentialVaultRef := { mount := "secret", path := "postgres/orders/pgbackrest" } }
  schedules := {
    full := "30 6 * * 0"
    differential := "30 6 * * 1-6"
    incremental := "30 */6 * * *"
    timezone := "Australia/Sydney" }
  retention := ⟨604800 * second, 604800 * second⟩

def specWith (sites : List PostgresSiteSpec) : MultiSitePostgresSpec where
  deletionPolicy := some .retain
  postgres := {
    majorVersion := 17
    image := "percona/percona-distribution-postgresql@sha256:f10a1100"
    synchronousStandbyCount := 1 }
  sites := sites
  backup := some backup
  credentials := {
    postgresVaultRef := { mount := "secret", path := "postgres/orders/bootstrap" }
    pgpoolVaultRef := { mount := "secret", path := "postgres/orders/pgpool" } }

def vic : PostgresSiteSpec := dataSite "vic" 100 3 2 2

def nsw : PostgresSiteSpec := dataSite "nsw" 50 3 2 2

def qld : PostgresSiteSpec := witnessSite "qld" 1

def orders : MultiSitePostgres where
  name := "orders"
  namespaceName := "database-platform"
  uid := "orders-uid"
  spec := specWith [vic, nsw, qld]

theorem orders_replicas : Admitted library orders.spec ∧
    3 ≤ (orders.spec.sites.map (·.components.etcdReplicas)).sum := by
  have hadm : Admitted library orders.spec := by decide +kernel
  obtain ⟨-, -, hetcd, -⟩ := admitted_replicas hadm
  exact ⟨hadm, hetcd⟩

end Sample

end Mspsql
