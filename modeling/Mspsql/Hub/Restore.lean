import Mspsql.Sample

/-!
# The target of a restore

`newTarget` builds the instance a restore recovers into: the specification of the source
with the restore's own backup and sites.  The instance gets a UID of its own, and from then on
the isolation check of every instance counts it.

The check lets a restore target share the TDE key of the source its annotation names.
The source has no such annotation (`restore_keepsIsolation_iff`).
-/

namespace Mspsql

open Sample

/-! ## Building the target -/

/-- The sites of the target: those the restore lists, or those of the source in namespaces
named after the target. -/
def restoreSites (restore : PostgresRestore) (source : MultiSitePostgres) : List PostgresSiteSpec :=
  if restore.restoreTopology ≠ [] then restore.restoreTopology
  else source.spec.sites.map fun site =>
    { site with namespaceName := restore.targetInstanceRef ++ "-" ++ site.name }

/-- The first site whose namespace is no DNS label; `labelProblems` is the library's
`IsDNS1123Label`, which lists the problems of a text. -/
def checkNamespaces (labelProblems : String → List String) :
    List PostgresSiteSpec → Option String
  | [] => none
  | site :: rest =>
    match labelProblems site.namespaceName with
    | [] => checkNamespaces labelProblems rest
    | problem :: _ => some ("target namespace " ++ quote site.namespaceName ++ " is invalid: " ++
        problem)

/-- `newTarget`.  The object has no UID yet. -/
def newTarget (labelProblems : String → List String) (restore : PostgresRestore)
    (source : MultiSitePostgres) : Except String MultiSitePostgres :=
  let sites := restoreSites restore source
  match selectRestoreSeed sites with
  | .error e => .error e
  | .ok _ =>
    match checkNamespaces labelProblems sites with
    | some e => .error e
    | none => .ok {
        name := restore.targetInstanceRef
        namespaceName := restore.namespaceName
        uid := ""
        finalizer := false
        annotations := {
          restoreUID := restore.uid
          restoreName := restore.name
          restoreSourceUID := source.uid
          restorePhase := .active .seed }
        spec := { source.spec with backup := restore.targetBackup, sites := sites } }

/-- The object as the API server stores it. -/
def MultiSitePostgres.created (target : MultiSitePostgres) (uid : String) : MultiSitePostgres :=
  { target with uid := uid }

theorem newTarget_spec {labelProblems : String → List String} {restore : PostgresRestore}
    {source target : MultiSitePostgres}
    (h : newTarget labelProblems restore source = .ok target) :
    target.deleting = false ∧ target.annotations.restoreSourceUID = source.uid ∧
      target.spec.backup = restore.targetBackup ∧ target.spec.tde = source.spec.tde := by
  simp only [newTarget] at h
  split at h
  · cases h
  split at h
  · cases h
  · cases h
    exact ⟨rfl, rfl, rfl, rfl⟩

/-! ## The isolation check as a relation -/

/-- What `validateInstanceClaims` lets pass between an instance and one other. -/
structure Tolerates (instance' other : MultiSitePostgres) : Prop where
  backup : backupClaimsConflict instance'.spec.backup other.spec.backup = false
  tde : tdeClaimsConflict instance'.spec.tde other.spec.tde = true →
    instance'.annotations.restoreSourceUID = other.uid

theorem validateInstanceClaims_eq_none_iff {instance' : MultiSitePostgres}
    {instances : List MultiSitePostgres} :
    validateInstanceClaims instance' instances = none ↔
      ∀ other ∈ instances, other.uid ≠ instance'.uid → other.deleting = false →
        Tolerates instance' other := by
  induction instances with
  | nil => simp [validateInstanceClaims]
  | cons other rest ih =>
    rw [List.forall_mem_cons, ← ih, validateInstanceClaims]
    by_cases hskip : other.uid = instance'.uid ∨ other.deleting = true
    · rw [if_pos hskip]
      have hfree : other.uid ≠ instance'.uid → other.deleting = false →
          Tolerates instance' other := by
        intro huid hdel
        rcases hskip with hsame | hdeleted
        · exact absurd hsame huid
        · rw [hdel] at hdeleted
          cases hdeleted
      exact ⟨fun h => ⟨hfree, h⟩, fun h => h.2⟩
    · rw [if_neg hskip]
      obtain ⟨huid, hdel⟩ := not_or.mp hskip
      have hcounts : (other.uid ≠ instance'.uid → other.deleting = false →
          Tolerates instance' other) ↔ Tolerates instance' other :=
        ⟨fun h => h huid (Bool.not_eq_true _ ▸ hdel), fun h _ _ => h⟩
      rw [hcounts]
      split
      next hbackup =>
        exact ⟨nofun, fun h => absurd hbackup (by simp [h.1.backup])⟩
      next hbackup =>
        split
        next htde => exact ⟨nofun, fun h => absurd (h.1.tde htde.1) htde.2⟩
        next htde =>
          refine ⟨fun h => ⟨⟨Bool.not_eq_true _ ▸ hbackup, ?_⟩, h⟩, fun h => h.2⟩
          intro hconflict
          exact not_not.mp fun hne => htde ⟨hconflict, hne⟩

theorem backupClaimsConflict_comm (left right : Option BackupSpec) :
    backupClaimsConflict left right = backupClaimsConflict right left := by
  cases left <;> cases right <;> simp [backupClaimsConflict, eq_comm]

def TDESpec.claimsKey (tde : TDESpec) : Bool := tde.enabled && tde.vault.isSome

theorem tdeClaimsConflict_self (tde : TDESpec) : tdeClaimsConflict tde tde = tde.claimsKey := by
  obtain ⟨enabled, vault⟩ := tde
  cases enabled <;> cases vault <;> simp [tdeClaimsConflict, TDESpec.claimsKey]

theorem tdeClaimsConflict_of_not_claimsKey {left : TDESpec} (h : left.claimsKey = false)
    (right : TDESpec) : tdeClaimsConflict left right = false := by
  obtain ⟨enabled, vault⟩ := left
  obtain ⟨enabled', vault'⟩ := right
  cases enabled <;> cases vault <;> cases vault' <;>
    simp_all [tdeClaimsConflict, TDESpec.claimsKey]

/-! ## Source and target after the target is created -/

section Created

variable {labelProblems : String → List String} {restore : PostgresRestore}
  {source target : MultiSitePostgres} {instances : List MultiSitePostgres} {uid : String}

theorem source_tolerates_target_iff (hsource : source ∈ instances)
    (htarget : newTarget labelProblems restore source = .ok target)
    (hunused : ∀ i ∈ instances,
      backupClaimsConflict restore.targetBackup i.spec.backup = false) :
    Tolerates source (target.created uid) ↔
      source.spec.tde.claimsKey = false ∨ source.annotations.restoreSourceUID = uid := by
  obtain ⟨-, -, hbackup, htde⟩ := newTarget_spec htarget
  have hfree : backupClaimsConflict source.spec.backup (target.created uid).spec.backup =
      false := by
    show backupClaimsConflict source.spec.backup target.spec.backup = false
    rw [hbackup, backupClaimsConflict_comm]
    exact hunused source hsource
  have hshared : tdeClaimsConflict source.spec.tde (target.created uid).spec.tde =
      source.spec.tde.claimsKey := by
    show tdeClaimsConflict source.spec.tde target.spec.tde = _
    rw [htde, tdeClaimsConflict_self]
  constructor
  · intro h
    cases hclaims : source.spec.tde.claimsKey with
    | false => exact .inl rfl
    | true => exact .inr (h.tde (by rw [hshared, hclaims]))
  · rintro (hnone | hexempt)
    · exact ⟨hfree, fun hconflict => by rw [hshared, hnone] at hconflict; cases hconflict⟩
    · exact ⟨hfree, fun _ => hexempt⟩

/-- What the source may share with a third instance the target may not: it is exempt for
its source alone. -/
theorem target_tolerates (htarget : newTarget labelProblems restore source = .ok target)
    (hunused : ∀ i ∈ instances,
      backupClaimsConflict restore.targetBackup i.spec.backup = false)
    {other : MultiSitePostgres} (hother : other ∈ instances)
    (htde : other.uid = source.uid ∨
      tdeClaimsConflict source.spec.tde other.spec.tde = false) :
    Tolerates (target.created uid) other := by
  obtain ⟨-, hphaseNow, hbackup, hcopied⟩ := newTarget_spec htarget
  refine ⟨?_, ?_⟩
  · show backupClaimsConflict target.spec.backup other.spec.backup = false
    rw [hbackup]
    exact hunused other hother
  · show tdeClaimsConflict target.spec.tde other.spec.tde = true →
      target.annotations.restoreSourceUID = other.uid
    rw [hcopied, hphaseNow]
    intro hconflict
    rcases htde with hsame | hnone
    · exact hsame.symm
    · rw [hnone] at hconflict
      cases hconflict

/-- Creating the target of a restore leaves source and target isolated exactly when the
source claims no TDE key.  The second disjunct needs a source whose annotation already
names the UID of the target. -/
theorem restore_keepsIsolation_iff {after : List MultiSitePostgres}
    (hsource : source ∈ instances)
    (hpasses : validateInstanceClaims source instances = none)
    (hunused : ∀ i ∈ instances,
      backupClaimsConflict restore.targetBackup i.spec.backup = false)
    (htarget : newTarget labelProblems restore source = .ok target)
    (hfresh : ∀ i ∈ instances, i.uid ≠ uid)
    (hafter : after.Perm (target.created uid :: instances)) :
    validateInstanceClaims source after = none ∧
        validateInstanceClaims (target.created uid) after = none ↔
      source.spec.tde.claimsKey = false ∨ source.annotations.restoreSourceUID = uid := by
  have hmem : ∀ i, i ∈ after ↔ i = target.created uid ∨ i ∈ instances := by
    intro i
    rw [hafter.mem_iff, List.mem_cons]
  have hdel : (target.created uid).deleting = false := (newTarget_spec htarget).1
  have huid : (target.created uid).uid ≠ source.uid := (hfresh source hsource).symm
  simp only [validateInstanceClaims_eq_none_iff] at hpasses ⊢
  constructor
  · rintro ⟨h, -⟩
    exact (source_tolerates_target_iff hsource htarget hunused).mp
      (h _ ((hmem _).mpr (.inl rfl)) huid hdel)
  · intro hcond
    refine ⟨?_, ?_⟩
    · intro other hother hne hlive
      rcases (hmem other).mp hother with rfl | hold
      · exact (source_tolerates_target_iff hsource htarget hunused).mpr hcond
      · exact hpasses other hold hne hlive
    · intro other hother hne hlive
      rcases (hmem other).mp hother with rfl | hold
      · exact absurd rfl hne
      apply target_tolerates htarget hunused hold
      by_cases hsame : other.uid = source.uid
      · exact .inl hsame
      right
      -- the one instance the source may share its key with is gone or the target
      rcases hcond with hnone | hexempt
      · exact tdeClaimsConflict_of_not_claimsKey hnone _
      by_contra hconflict
      have hshared := (hpasses other hold hsame hlive).tde (Bool.not_eq_false _ ▸ hconflict)
      exact hfresh other hold (hshared.symm.trans hexempt)

end Created

namespace Sample

/-- A restore of `orders` into a new instance with a repository of its own. -/
def ordersRestore : PostgresRestore where
  name := "orders-restore"
  namespaceName := "database-platform"
  uid := "restore-uid"
  sourceInstanceRef := "orders"
  targetInstanceRef := "orders-restored"
  targetTime := 0
  targetBackup := some { backup with repository := { backup.repository with
    pathPrefix := "orders-restored"
    credentialVaultRef := { mount := "secret", path := "postgres/orders-restored" } } }

/-- The instance with its data encrypted under a key in Vault. -/
def encryptedOrders : MultiSitePostgres :=
  { orders with spec := { orders.spec with tde := {
      enabled := true
      vault := some ⟨"tde", "orders", "vault", "orders-principal"⟩ } } }

def restored (source : MultiSitePostgres) : MultiSitePostgres :=
  match newTarget (fun _ => []) ordersRestore source with
  | .ok target => target.created "restored-uid"
  | .error _ => source

end Sample

theorem ordersRestore_keepsIsolation :
    validateInstanceClaims orders [restored orders, orders] = none ∧
      validateInstanceClaims (restored orders)
        [restored orders, orders] = none :=
  (@restore_keepsIsolation_iff (fun _ => []) ordersRestore orders _
    [orders] "restored-uid" _
    (by decide) (by decide) (by decide) rfl (by decide) (List.Perm.refl _)).mpr
    (.inl (by decide))

/-- With TDE on, the source fails its check once the target exists. -/
theorem encryptedRestore_breaksIsolation :
    validateInstanceClaims encryptedOrders [encryptedOrders] = none ∧
      newTarget (fun _ => []) ordersRestore encryptedOrders =
        .ok { restored encryptedOrders with uid := "" } ∧
      backupClaimsConflict ordersRestore.targetBackup
        encryptedOrders.spec.backup = false ∧
      validateInstanceClaims encryptedOrders
        [restored encryptedOrders, encryptedOrders] =
        some "TDE key identity conflicts with database-platform/orders-restored" := by
  decide +kernel

end Mspsql
