import Mspsql.Hub.Checks

/-!
# What a site agent renders

The objects of a plan with the parts that later decide something: kind, name, the revision
in their labels, replicas, and the initial cluster of an etcd StatefulSet.  What is inside
pods, configuration files and certificates is left out.
-/

namespace Mspsql

open List

inductive ObjectKind where
  | serviceAccount
  | service
  | certificate
  | networkPolicy
  | configMap
  | statefulSet
  | deployment
  | job
deriving DecidableEq, Repr

structure SiteObject where
  kind : ObjectKind
  name : String
  /-- The label `multisite-postgres.dev/desired-revision`. -/
  revision : Int
  replicas : Nat := 0
  /-- `--initial-cluster` of an etcd member. -/
  initialCluster : Option String := none
deriving DecidableEq, Repr

/-- The functions a renderer takes from elsewhere: a hash for names, and scheme and host of
a URL. -/
structure Renderer where
  operationHash : String → String
  parseURL : String → Option (String × String)

def memberBelongsToSite (member site : String) : Bool :=
  Text.hasPrefix member ("postgres-" ++ site ++ "-")

namespace SitePlan

variable (desired : SitePlan)

def withAddresses (memberAddresses addressCandidates : StringMap) : SitePlan :=
  { desired with memberAddresses := memberAddresses, addressCandidates := addressCandidates }

def object (kind : ObjectKind) (name : String) : SiteObject :=
  { kind := kind, name := name, revision := desired.revision }

def etcdMembers : List String :=
  siteMembers "etcd" desired.site desired.site.components.etcdReplicas

def postgresMembers : List String :=
  siteMembers "postgres" desired.site desired.site.components.postgresReplicas

def seedRestore : Option RestorePlan := desired.restore.filter (·.phase = .seed)

/-! ## Workloads -/

/-- `etcdInitialCluster`: whatever etcd members the address map has, as long as their number
is odd and at least three. -/
def etcdInitialCluster : Except String String :=
  let voters := desired.memberAddresses.entries.filter fun e => Text.hasPrefix e.1 "etcd-"
  match voters.find? (·.2 = "") with
  | some e => .error ("etcd address for " ++ e.1 ++ " is not allocated")
  | none =>
    let members := Text.sortText (voters.map fun e => e.1 ++ "=https://" ++ e.2 ++ ":2380")
    if members.length < 3 ∨ members.length % 2 = 0 then
      .error "complete odd etcd member address set is required"
    else .ok (Text.join "," members)

/-- The first of the members without an address. -/
def unallocated (members : List String) : Option String :=
  members.find? fun member => (desired.memberAddresses.get? member).getD "" = ""

def etcdStatefulSet (initialCluster name : String) : SiteObject :=
  { desired.object .statefulSet name with
    replicas := 1, initialCluster := some initialCluster }

/-- `Renderer.NetworkPolicies`. -/
def networkPolicies : List SiteObject :=
  let policy (component : String) :=
    desired.object .networkPolicy ("mspsql-" ++ component ++ "-" ++ desired.site.name)
  if desired.site.role = .witness then [policy "etcd"]
  else [policy "etcd", policy "postgres"] ++
    if desired.site.components.pgpoolReplicas > 0 then [policy "pgpool"] else []

def majorMemberStopped (member : String) : Bool :=
  match desired.majorUpgrade with
  | none => false
  | some upgrade =>
    match upgrade.phase with
    | .stop | .snapshot | .upgradePrimary | .stanzaUpgrade | .rollback => true
    | .startPrimary | .rollbackStart => member ≠ upgrade.primary
    | _ => false

def majorWriteServiceStopped : Bool :=
  match desired.majorUpgrade with
  | none => false
  | some upgrade =>
    match upgrade.phase with
    | .drain | .stop | .snapshot | .upgradePrimary | .stanzaUpgrade | .startPrimary | .replicas
    | .rollback | .rollbackStart => true
    | _ => false

def postgresMemberImage (member : String) : String :=
  let ordinary := match desired.upgrade with
    | none => desired.postgres.image
    | some upgrade =>
      if member = upgrade.targetMember ∨ member ∈ upgrade.upgradedMembers then upgrade.targetImage
      else desired.postgres.image
  match desired.majorUpgrade with
  | none => ordinary
  | some upgrade =>
    match upgrade.phase with
    | .startPrimary => if member = upgrade.primary then upgrade.targetImage else ordinary
    | .replicas | .restoreWrites | .finalize => upgrade.targetImage
    | _ => ordinary

/-- `Renderer.postgresWorkloads`. -/
def postgresWorkloads : Except String (List SiteObject) :=
  let members := desired.postgresMembers.filter fun name =>
    desired.seedRestore.all (·.seedMember = name)
  match desired.unallocated members with
  | some name => .error ("address for " ++ name ++ " is not allocated")
  | none =>
    let postgres := members.map fun name => { desired.object .statefulSet name with
      replicas := if desired.majorMemberStopped name then 0 else 1 }
    let pgpool := if desired.site.components.pgpoolReplicas > 0 ∧
        desired.restore.all (·.phase = .verify) then
      [desired.object .configMap ("pgpool-" ++ desired.site.name),
        { desired.object .deployment ("pgpool-" ++ desired.site.name) with
          replicas := if desired.majorWriteServiceStopped then 0
            else desired.site.components.pgpoolReplicas }]
      else []
    let audit := if desired.tde.enabled ∧ desired.majorWriteServiceStopped = false then
      [desired.object .job ("mspsql-tde-audit-" ++ toString desired.revision)] else []
    .ok (postgres ++ pgpool ++ audit)

end SitePlan

namespace Renderer

variable (r : Renderer) (desired : SitePlan)

/-- The errors of `pgBackRestConfig`. -/
def pgBackRestError (backup : BackupSpec) : Option String :=
  let repository := backup.repository
  let region := if repository.region = "" then "us-east-1" else repository.region
  let broken (value : String) : Bool := value.toList.any fun c => c = '\r' ∨ c = '\n'
  let endpoint := if repository.endpoint = "" then "https://s3." ++ region ++ ".amazonaws.com"
    else repository.endpoint
  match [("bucket", repository.bucket), ("prefix", repository.pathPrefix),
      ("region", region)].find? (broken ·.2) with
  | some field => some ("pgBackRest repository " ++ field.1 ++ " must be a single line")
  | none =>
    match r.parseURL endpoint with
    | some ("https", host) =>
      if host = "" then some "pgBackRest endpoint must be an absolute HTTPS URL" else none
    | _ => some "pgBackRest endpoint must be an absolute HTTPS URL"

def operationName (kind operation : String) : String := kind ++ r.operationHash operation

def majorJob (upgrade : MajorUpgradePlan) (kind : String) : SiteObject :=
  desired.object .job (r.operationName kind upgrade.operationUID)

def majorUpgradePhaseJobs : List SiteObject :=
  match desired.majorUpgrade with
  | none => []
  | some upgrade =>
    let onPrimary (kind : String) := if memberBelongsToSite upgrade.primary desired.site.name then
      [r.majorJob desired upgrade kind] else []
    match upgrade.phase with
    | .preflight => if desired.site.role = .data then
        [desired.object .job (r.operationName "major-preflight-"
          (upgrade.operationUID ++ "/" ++ desired.site.name))] else []
    | .startPrimary => onPrimary "major-acceptance-"
    | .restoreWrites => onPrimary "major-write-acceptance-"
    | .rollbackStart => onPrimary "major-rollback-acceptance-"
    | _ => []

/-- The part of `Workloads` that only data sites have. -/
def dataWorkloads : Except String (List SiteObject) :=
  let backup := match desired.seedRestore with
    | some restore => some restore.sourceBackup
    | none => desired.backup
  match backup.bind r.pgBackRestError with
  | some e => .error e
  | none =>
    match desired.postgresWorkloads with
    | .error e => .error e
    | .ok postgres =>
      .ok ([desired.object .configMap ("patroni-" ++ desired.site.name)] ++ (if backup.isSome then
          [desired.object .configMap ("pgbackrest-" ++ desired.site.name)] else []) ++
        (if desired.seedRestore.isSome then
          [desired.object .configMap "restore-bootstrap"] else []) ++
        (if desired.tde.enabled then [desired.object .configMap "pg-tde-bootstrap"] else []) ++
        postgres ++ r.majorUpgradePhaseJobs desired)

/-- `Renderer.Workloads`. -/
def workloads : Except String (List SiteObject) :=
  match desired.etcdInitialCluster with
  | .error e => .error e
  | .ok initialCluster =>
    match desired.unallocated desired.etcdMembers with
    | some name => .error ("address for " ++ name ++ " is not allocated")
    | none =>
      let objects := desired.networkPolicies ++
        desired.etcdMembers.map (desired.etcdStatefulSet initialCluster)
      if desired.site.role = .witness ∨
          desired.seedRestore.any (·.seedSite ≠ desired.site.name) then .ok objects
      else match r.dataWorkloads desired with
        | .error e => .error e
        | .ok data => .ok (objects ++ data)

/-! ## Jobs of operations -/

/-- `Renderer.AddressMigrationJob`. -/
def addressMigrationJob (migration : AddressMigrationPlan) : Except String (Option SiteObject) :=
  if Text.hasPrefix migration.member ("etcd-" ++ desired.site.name ++ "-") = false then .ok none
  else
    let remaining := (desired.memberAddresses.entries.filter fun e =>
      Text.hasPrefix e.1 "etcd-" ∧ e.1 ≠ migration.member).length
    let quorum := (remaining + 1) / 2 + 1
    if remaining < quorum then
      .error ("cannot migrate " ++ migration.member ++ " without " ++ toString quorum ++
        " healthy remaining voters")
    else .ok (some (desired.object .job
      (r.operationName "address-migration-" migration.operationUID)))

/-! ## What is among the workloads -/

inductive Workload : SiteObject → Prop where
  | plain {o : SiteObject}
      (hkind : o.kind = .networkPolicy ∨ o.kind = .configMap ∨ o.kind = .job) : Workload o
  | etcd (initialCluster : String) {name : String} (hname : name ∈ desired.etcdMembers) :
    Workload (desired.etcdStatefulSet initialCluster name)
  | postgres {name : String} (hruns : ¬ (desired.site.role = .witness ∨
        desired.seedRestore.any (·.seedSite ≠ desired.site.name)))
      (hname : name ∈ desired.postgresMembers)
      (hseed : desired.seedRestore.all (·.seedMember = name)) :
    Workload { desired.object .statefulSet name with
      replicas := if desired.majorMemberStopped name then 0 else 1 }
  | pgpool : Workload { desired.object .deployment ("pgpool-" ++ desired.site.name) with
      replicas := if desired.majorWriteServiceStopped then 0
        else desired.site.components.pgpoolReplicas }

variable {r : Renderer} {desired : SitePlan} {objects : List SiteObject}

theorem networkPolicies_kind : ∀ o ∈ desired.networkPolicies, o.kind = .networkPolicy := by
  unfold SitePlan.networkPolicies SitePlan.object
  split
  · simp
  · split <;> simp

theorem majorUpgradePhaseJobs_kind : ∀ o ∈ r.majorUpgradePhaseJobs desired, o.kind = .job := by
  unfold majorUpgradePhaseJobs majorJob SitePlan.object
  split
  · simp
  dsimp only
  split
  · split <;> simp
  · split <;> simp
  · split <;> simp
  · split <;> simp
  · simp

theorem postgresWorkloads_mem (hruns : ¬ (desired.site.role = .witness ∨
      desired.seedRestore.any (·.seedSite ≠ desired.site.name)))
    (h : desired.postgresWorkloads = .ok objects) : ∀ o ∈ objects, Workload desired o := by
  unfold SitePlan.postgresWorkloads at h
  dsimp only at h
  split at h
  · cases h
  rw [← Except.ok.inj h]
  intro o ho
  rw [mem_append, mem_append] at ho
  rcases ho with (hmember | hpgpool) | haudit
  · obtain ⟨name, hname, rfl⟩ := mem_map.mp hmember
    obtain ⟨hname, hseed⟩ := mem_filter.mp hname
    exact .postgres hruns hname hseed
  · split at hpgpool
    · rcases mem_pair.mp hpgpool with rfl | rfl
      · exact .plain (.inr (.inl rfl))
      · exact .pgpool
    · cases hpgpool
  · split at haudit
    · rw [mem_singleton.mp haudit]
      exact .plain (.inr (.inr rfl))
    · cases haudit

theorem mem_postgresWorkloads (h : desired.postgresWorkloads = .ok objects) {name : String}
    (hname : name ∈ desired.postgresMembers)
    (hseed : desired.seedRestore.all (·.seedMember = name) = true) :
    { desired.object .statefulSet name with
      replicas := if desired.majorMemberStopped name then 0 else 1 } ∈ objects := by
  unfold SitePlan.postgresWorkloads at h
  dsimp only at h
  split at h
  · cases h
  rw [← Except.ok.inj h, mem_append, mem_append]
  exact .inl (.inl (mem_map_of_mem (mem_filter.mpr ⟨hname, hseed⟩)))

theorem dataWorkloads_mem (h : r.dataWorkloads desired = .ok objects) :
    ∃ postgres, desired.postgresWorkloads = .ok postgres ∧ (∀ o ∈ postgres, o ∈ objects) ∧
      ∀ o ∈ objects, o ∈ postgres ∨ o.kind = .configMap ∨ o.kind = .job := by
  unfold dataWorkloads at h
  dsimp only at h
  split at h
  · cases h
  split at h
  · cases h
  rename_i postgres hpg
  have hmaps : ∀ (c : Prop) [Decidable c] (name : String),
      ∀ o ∈ (if c then [desired.object .configMap name] else []), o.kind = .configMap := by
    intro c _ name o ho
    split at ho
    · rw [mem_singleton.mp ho]
      rfl
    · cases ho
  refine ⟨postgres, hpg, ?_, ?_⟩
  · intro o ho
    rw [← Except.ok.inj h]
    exact mem_append_left _ (mem_append_right _ ho)
  · intro o ho
    rw [← Except.ok.inj h, mem_append, mem_append, mem_append, mem_append, mem_append] at ho
    rcases ho with ((((ho | ho) | ho) | ho) | ho) | ho
    · rw [mem_singleton.mp ho]
      exact .inr (.inl rfl)
    · exact .inr (.inl (hmaps _ _ o ho))
    · exact .inr (.inl (hmaps _ _ o ho))
    · exact .inr (.inl (hmaps _ _ o ho))
    · exact .inl ho
    · exact .inr (.inr (majorUpgradePhaseJobs_kind o ho))

/-- Everything rendered is one of these, and no member is left out. -/
structure Workloads (desired : SitePlan) (objects : List SiteObject) : Prop where
  case : ∀ o ∈ objects, Workload desired o
  etcd : ∀ name ∈ desired.etcdMembers, ∃ initialCluster,
    desired.etcdStatefulSet initialCluster name ∈ objects
  postgres : ¬ (desired.site.role = .witness ∨
      desired.seedRestore.any (·.seedSite ≠ desired.site.name)) →
    ∀ name ∈ desired.postgresMembers, desired.seedRestore.all (·.seedMember = name) = true →
      { desired.object .statefulSet name with
        replicas := if desired.majorMemberStopped name then 0 else 1 } ∈ objects

theorem workloads_spec (h : r.workloads desired = .ok objects) : Workloads desired objects := by
  unfold workloads at h
  split at h
  · cases h
  rename_i initialCluster _
  split at h
  · cases h
  have hbase : ∀ o ∈ desired.networkPolicies ++
      desired.etcdMembers.map (desired.etcdStatefulSet initialCluster), Workload desired o := by
    intro o ho
    rcases mem_append.mp ho with hpolicy | hset
    · exact .plain (.inl (networkPolicies_kind o hpolicy))
    · obtain ⟨name, hname, rfl⟩ := mem_map.mp hset
      exact .etcd initialCluster hname
  have hetcd : ∀ name ∈ desired.etcdMembers, desired.etcdStatefulSet initialCluster name ∈
      desired.networkPolicies ++ desired.etcdMembers.map (desired.etcdStatefulSet initialCluster) :=
    fun name hname => mem_append_right _ (mem_map_of_mem hname)
  dsimp only at h
  split at h
  · rename_i hstopped
    rw [← Except.ok.inj h]
    exact ⟨hbase, fun name hname => ⟨_, hetcd name hname⟩, fun hruns => absurd hstopped hruns⟩
  · rename_i hruns
    split at h
    · cases h
    rename_i hdata
    obtain ⟨postgres, hpg, hin, hcase⟩ := dataWorkloads_mem hdata
    rw [← Except.ok.inj h]
    refine ⟨?_, fun name hname => ⟨_, mem_append_left _ (hetcd name hname)⟩, ?_⟩
    · intro o ho
      rcases mem_append.mp ho with ho | ho
      · exact hbase o ho
      rcases hcase o ho with ho | hkind
      · exact postgresWorkloads_mem hruns hpg o ho
      · exact .plain (.inr hkind)
    · intro _ name hname hseed
      exact mem_append_right _ (hin _ (mem_postgresWorkloads hpg hname hseed))

end Renderer

/-- `restoreExpectsPostgres`: whether the agent observes PostgreSQL at its site. -/
def Agent.restoreExpectsPostgres (desired : SitePlan) : Bool :=
  let running := desired.seedRestore.all (·.seedSite = desired.site.name)
  decide (desired.site.role = .data) &&
    match desired.majorUpgrade with
    | none => running
    | some upgrade =>
      match upgrade.phase with
      | .stop | .snapshot | .upgradePrimary | .stanzaUpgrade | .rollback => false
      | .startPrimary | .rollbackStart | .restoreWrites =>
        memberBelongsToSite upgrade.primary desired.site.name
      | _ => running

end Mspsql
