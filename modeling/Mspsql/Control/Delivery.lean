import Mspsql.Hub.Declarations
import Mspsql.Hub.System

/-!
# Which directives the server sends

On every stream the server looks through all directive ConfigMaps every few seconds and sends
those that belong to the stream's site, that it can trust, and that it has not sent on this
stream.  What a site is sent depends on the status of the instance at that moment: SQL goes
to the site of the primary, a backup to the site of the first synchronous standby.
-/

namespace Mspsql

/-! ## Sites -/

def memberSite (i : MultiSitePostgres) (member : String) : String :=
  match i.status.sites.find? fun observed => (observed.addresses.get? member).isSome with
  | some observed => observed.name
  | none => ""

def registrationOf (i : MultiSitePostgres) (site : String) : Option String :=
  (i.spec.sites.find? fun desired => desired.name = site).map (·.siteRegistrationRef)

def memberTargetsSite (i : MultiSitePostgres) (member siteName : String) : Bool :=
  registrationOf i (memberSite i member) = some siteName

/-- `selectBackupSource`: the first standby whose site is known, or the primary. -/
def selectBackupSource (i : MultiSitePostgres) : String :=
  match (Text.sortText i.status.synchronousStandbys).find? fun standby =>
      memberSite i standby ≠ "" with
  | some standby => standby
  | none => if memberSite i i.status.primary ≠ "" then i.status.primary else ""

def directiveTargetsSite (i : MultiSitePostgres) (directiveType siteName : String) : Bool :=
  if directiveType ≠ "Database" ∧ directiveType ≠ "User" then true
  else if i.status.primary = "" then false
  else (i.status.sites.filter fun observed =>
      (observed.addresses.get? i.status.primary).isSome).findSome?
        (fun observed => registrationOf i observed.name) = some siteName

/-! ## Trust -/

def upgradeBackupRequested (map : DirectiveMap) (u : PostgresUpgrade) : Bool :=
  match map.upgradeBackupPhase with
  | "preflight" => u.status.preflightBackupRequestedAt.isSome &&
      map.name == "mspsql-upgrade-backup-" ++ u.uid &&
      map.operationUID == u.uid ++ "-preflight-backup"
  | "post-upgrade" => u.status.postUpgradeBackupRequestedAt.isSome &&
      map.name == "mspsql-post-upgrade-backup-" ++ u.uid ++ "-" ++
        toString u.status.postUpgradeBackupAttempt &&
      map.operationUID == postUpgradeBackupUID u u.status.postUpgradeBackupAttempt
  | _ => false

def upgradeBackupDirectiveTrusted (map : DirectiveMap) (i : MultiSitePostgres)
    (upgrades : List PostgresUpgrade) : Bool :=
  map.type == "Backup" && !map.deleting &&
    (upgrades.find? fun u => u.name = map.ownerName).any fun u =>
      u.uid == map.ownerUID && u.spec.instanceRef == i.name && upgradeBackupRequested map u

def declaredDirectiveTrusted (map : DirectiveMap) (i : MultiSitePostgres)
    (declared : List DeclaredObject) (kind : DeclarationKind) : Bool :=
  declared.any fun object =>
    object.kind = kind ∧ object.namespaceName = map.namespaceName ∧
      declarationDirectiveTrusted map i.name object

def directiveOwnerTrusted (map : DirectiveMap) (i : MultiSitePostgres)
    (upgrades : List PostgresUpgrade) (declared : List DeclaredObject) : Bool :=
  map.ownerUID != "" && map.instanceRef == i.name &&
    match map.ownerKind with
    | .postgresDatabase => declaredDirectiveTrusted map i declared .database
    | .postgresUser => declaredDirectiveTrusted map i declared .user
    | .multiSitePostgres => scheduledBackupDirectiveTrusted map i
    | .postgresUpgrade => upgradeBackupDirectiveTrusted map i upgrades

theorem declared_of_deleting {map : DirectiveMap} {i : MultiSitePostgres}
    {upgrades : List PostgresUpgrade} {declared : List DeclaredObject}
    (h : directiveOwnerTrusted map i upgrades declared = true) (hdel : map.deleting = true) :
    ∃ object ∈ declared, object.namespaceName = map.namespaceName ∧
      declarationDirectiveTrusted map i.name object = true := by
  have hany : ∀ kind, declaredDirectiveTrusted map i declared kind = true →
      ∃ object ∈ declared, object.namespaceName = map.namespaceName ∧
        declarationDirectiveTrusted map i.name object = true := by
    intro kind hkind
    obtain ⟨object, hobject, htrusted⟩ := List.any_eq_true.mp hkind
    exact ⟨object, hobject, (of_decide_eq_true htrusted).2⟩
  have hkind := (Bool.and_eq_true_iff.mp h).2
  split at hkind
  · exact hany .database hkind
  · exact hany .user hkind
  · unfold scheduledBackupDirectiveTrusted at hkind
    split at hkind
    · cases hkind
    obtain ⟨-, -, -, hkept, -⟩ := of_decide_eq_true hkind
    rw [hdel] at hkept
    cases hkept
  · unfold upgradeBackupDirectiveTrusted at hkind
    rw [hdel, Bool.not_true, Bool.and_false] at hkind
    cases hkind

/-! ## Sending -/

structure DirectivePayload where
  instanceUID : String
  operationUID : String
  objectUID : String
  type : String
  primary : String
  backupSource : String := ""
  backupType : String := ""
  deleting : Bool
  spec : DirectiveSpec
deriving DecidableEq, Repr

/-- What a server reads when it looks for directives to send. -/
structure DirectiveReads where
  instance' : MultiSitePostgres
  upgrades : List PostgresUpgrade := []
  declared : List DeclaredObject := []

namespace DirectiveReads

def targets (reads : DirectiveReads) (siteName : String) (map : DirectiveMap) : Bool :=
  if map.type = "Backup" then
    selectBackupSource reads.instance' ≠ "" ∧
      memberTargetsSite reads.instance' (selectBackupSource reads.instance') siteName
  else directiveTargetsSite reads.instance' map.type siteName

def deliverable (reads : DirectiveReads) (siteName : String) (map : DirectiveMap) : Bool :=
  map.operationUID ≠ "" ∧ map.namespaceName = reads.instance'.namespaceName ∧
    map.instanceRef = reads.instance'.name ∧ reads.targets siteName map ∧
    directiveOwnerTrusted map reads.instance' reads.upgrades reads.declared

def payload (reads : DirectiveReads) (map : DirectiveMap) : DirectivePayload where
  instanceUID := reads.instance'.uid
  operationUID := map.operationUID
  objectUID := map.ownerUID
  type := map.type
  primary := reads.instance'.status.primary
  backupSource := if map.type = "Backup" then selectBackupSource reads.instance' else ""
  backupType := match map.spec with
    | .backup backupType _ => if map.type = "Backup" then backupType else ""
    | .declaration _ => ""
  deleting := map.deleting
  spec := map.spec

/-- `sendDirectives`: `sent` are the operations sent on this stream, and `limit` is how many
more one pass may send. -/
def sendDirectives (reads : DirectiveReads) (siteName : String) :
    List DirectiveMap → List String → Nat → List DirectivePayload
  | [], _, _ => []
  | map :: rest, sent, limit =>
    if map.operationUID ∈ sent ∨ reads.deliverable siteName map = false then
      reads.sendDirectives siteName rest sent limit
    else reads.payload map ::
      if limit ≤ 1 then []
      else reads.sendDirectives siteName rest (map.operationUID :: sent) (limit - 1)

theorem mem_sendDirectives {reads : DirectiveReads} {siteName : String}
    {maps : List DirectiveMap} {sent : List String} {limit : Nat} {p : DirectivePayload}
    (h : p ∈ reads.sendDirectives siteName maps sent limit) :
    ∃ map ∈ maps, reads.deliverable siteName map = true ∧ p = reads.payload map ∧
      p.operationUID ∉ sent := by
  induction maps generalizing sent limit with
  | nil => cases h
  | cons map rest ih =>
    rw [sendDirectives] at h
    split at h
    · obtain ⟨map', hmap', hrest⟩ := ih h
      exact ⟨map', List.mem_cons_of_mem map hmap', hrest⟩
    rename_i hsend
    obtain ⟨hnew, hdeliverable⟩ := not_or.mp hsend
    rcases List.mem_cons.mp h with rfl | h
    · exact ⟨map, List.mem_cons_self, Bool.not_eq_false _ ▸ hdeliverable, rfl, hnew⟩
    split at h
    · cases h
    obtain ⟨map', hmap', hd, hp, hfresh⟩ := ih h
    exact ⟨map', List.mem_cons_of_mem map hmap', hd, hp,
      fun hmem => hfresh (List.mem_cons_of_mem _ hmem)⟩

theorem targets_backup {reads : DirectiveReads} {siteName : String} {map : DirectiveMap}
    (h : reads.deliverable siteName map = true) (htype : map.type = "Backup") :
    selectBackupSource reads.instance' ≠ "" ∧ memberTargetsSite reads.instance'
      (selectBackupSource reads.instance') siteName = true := by
  obtain ⟨-, -, -, htargets, -⟩ := of_decide_eq_true h
  unfold targets at htargets
  rw [if_pos htype] at htargets
  exact of_decide_eq_true htargets

end DirectiveReads

theorem memberTargetsSite_unique {i : MultiSitePostgres} {member a b : String}
    (ha : memberTargetsSite i member a = true) (hb : memberTargetsSite i member b = true) :
    a = b :=
  Option.some.inj ((of_decide_eq_true ha).symm.trans (of_decide_eq_true hb))

/-! ## Streams -/

structure SiteOperation where
  registration : String
  operationUID : String
deriving DecidableEq, Repr

structure SiteStream where
  registration : String
  sent : List String := []
deriving DecidableEq, Repr

end Mspsql
