import Mspsql.Control.ConfigMaps
import Mspsql.Hub.Slots

/-!
# Directives as they are written and as they are trusted

Four controllers write directives: those of databases and users, the backup schedules of an
instance, and the upgrades with their two backups.  The server builds name, operation UID and
specification again from the same objects before it signs a directive.

They do not agree on everything.  The controller of a declaration takes over a ConfigMap that
exists with whatever owner it has, and writes deletions for objects without a deletion policy;
a scheduled backup is written before its slot is recorded; and the server signs a backup's
specification as it finds it.  Where none of this matters they agree (`agreement_iff`).
-/

namespace Mspsql

open Wire Sample List

/-! ## What the controllers write -/

section

variable (P : Printers TextKind) (T : TimeText)

/-- `json.Marshal` of the map with the type and the time of a backup. -/
def backupSpecText (backupType : String) (scheduledAt : Time) : String :=
  String.ofList ((((GoType.map .string).marshal (P := P) (some (.ofList
    [(.ofString "backupType", .ofString backupType),
      (.ofString "scheduledAt", .ofString (T.format scheduledAt))]))).map Json.print).getD [])

def DirectiveSpec.text : DirectiveSpec → String
  | .backup backupType scheduledAt => backupSpecText P T backupType scheduledAt
  | .declaration json => json

def OwnerKind.text : OwnerKind → String
  | .multiSitePostgres => "MultiSitePostgres"
  | .postgresDatabase => "PostgresDatabase"
  | .postgresUser => "PostgresUser"
  | .postgresUpgrade => "PostgresUpgrade"

def boolString (value : Bool) : String := if value then "true" else "false"

namespace DirectiveMap

def owner (map : DirectiveMap) : OwnerReference :=
  ⟨groupVersion, map.ownerKind.text, map.ownerName, map.ownerUID, true⟩

def data (map : DirectiveMap) : StringMap :=
  let common : StringMap := .ofList [("type", map.type), ("instanceRef", map.instanceRef),
    ("deleting", boolString map.deleting), ("operationUID", map.operationUID),
    ("spec.json", map.spec.text P T)]
  if map.upgradeBackupPhase = "" then common
  else common.insert "upgradeBackupPhase" map.upgradeBackupPhase

def encode (map : DirectiveMap) : ConfigMap where
  namespaceName := map.namespaceName
  name := map.name
  labels :=
    let common : StringMap := .ofList [(directiveLabel, map.type),
      ("multisite-postgres.dev/instance-ref", map.instanceRef)]
    if map.ownerKind = .multiSitePostgres then
      common.insert "multisite-postgres.dev/instance-uid" map.ownerUID
    else common
  owners := [map.owner]
  data := map.data P T

end DirectiveMap

end

inductive DirectiveOwner where
  | declared (object : DeclaredObject)
  /-- A slot of a backup schedule of the instance. -/
  | schedule (backupType : String) (slot : Time)
  | preflight (u : PostgresUpgrade)
  | postUpgrade (u : PostgresUpgrade)

namespace DirectiveOwner

/-- What the responsible controller makes of the stored object. -/
def directive (i : MultiSitePostgres) : DirectiveOwner → Option DirectiveMap
  | .declared object =>
    if object.deleting ∧ object.deletionPolicy = some .retain then none
    else some (reconcileDirective none object object.deleting)
  | .schedule backupType slot => some (backupDirective i backupType slot)
  | .preflight u => u.status.preflightBackupRequestedAt.map
      (upgradeBackupDirective u "preflight" i.namespaceName ("mspsql-upgrade-backup-" ++ u.uid)
        (u.uid ++ "-preflight-backup"))
  | .postUpgrade u => u.status.postUpgradeBackupRequestedAt.map
      (upgradeBackupDirective u "post-upgrade" i.namespaceName
        ("mspsql-post-upgrade-backup-" ++ u.uid ++ "-" ++
          toString u.status.postUpgradeBackupAttempt)
        (postUpgradeBackupUID u u.status.postUpgradeBackupAttempt))

/-- What the controller writes over the ConfigMaps that exist: a declaration puts its data into a
ConfigMap of the name, the others leave it alone. -/
def write (P : Printers TextKind) (T : TimeText) (i : MultiSitePostgres) (maps : List ConfigMap)
    (o : DirectiveOwner) : Option ConfigMap :=
  (o.directive i).bind fun map =>
    match maps.find? (fun m => m.namespaceName = map.namespaceName ∧ m.name = map.name), o with
    | none, _ => some (map.encode P T)
    | some m, .declared _ => some { m with data := map.data P T }
    | some _, _ => none

end DirectiveOwner

/-! ## Reading what was written -/

section

variable {P : Printers TextKind} {T : TimeText}

theorem scheduledSpec_text (backupType : String) (t : Time) :
    scheduledSpec P T (backupSpecText P T backupType t) =
      some (.backup backupType (storedTime t)) := by
  let m : SortedMap GoString GoString := .ofList [(.ofString "backupType", .ofString backupType),
    (.ofString "scheduledAt", .ofString (T.format t))]
  let x : (GoType.struct scheduledFields).Val P :=
    (.ofString backupType, .ofString (T.format t), ())
  have hentries : m.entries = [(.ofString "backupType", .ofString backupType),
      (.ofString "scheduledAt", .ofString (T.format t))] := by
    refine SortedMap.insertIn_of_forall_lt fun e he => ?_
    rw [mem_singleton.mp he]
    show GoString.ofString "backupType" < GoString.ofString "scheduledAt"
    decide +kernel
  -- the map is written like the struct it is read into
  have hsame : (GoType.map .string).marshal (P := P) (some m) =
      (GoType.struct scheduledFields).marshal x := by
    rw [GoType.marshal, hentries]
    rfl
  obtain ⟨v, hv⟩ := Option.isSome_iff_exists.mp
    ((GoType.struct scheduledFields).isSome_marshal x ⟨trivial, trivial, trivial⟩)
  have hclean : (GoType.struct scheduledFields).Clean x :=
    ⟨GoString.ofChars_clean _, GoString.ofChars_clean _, trivial⟩
  have hread := GoType.unmarshal_marshal (by decide) hclean hv
  rw [scheduledSpec, backupSpecText, hsame, hv, Option.map_some, Option.getD_some,
    String.toList_ofList, hread]
  show ((GoString.text? (.ofString backupType)).bind fun backupType =>
    ((GoString.text? (.ofString (T.format t))).bind T.parse).map
      (DirectiveSpec.backup backupType)) = _
  rw [text?_ofString, text?_ofString, Option.bind_some, Option.bind_some, T.parse_format]
  rfl

variable {m c : ConfigMap} {map map' : DirectiveMap} {u : PostgresUpgrade} {o : DirectiveOwner}
  {owner : OwnerReference} {maps : List ConfigMap}

theorem value_data (h : m.data = map.data P T) :
    m.value "type" = map.type ∧ m.value "instanceRef" = map.instanceRef ∧
      m.value "deleting" = boolString map.deleting ∧
      m.value "operationUID" = map.operationUID ∧
      m.value "spec.json" = map.spec.text P T ∧
      m.value "upgradeBackupPhase" = map.upgradeBackupPhase := by
  unfold ConfigMap.value
  rw [h, DirectiveMap.data]
  split
  · rename_i hphase
    rw [hphase]
    simp [SortedMap.ofList, SortedMap.get?_insert]
    rfl
  · simp [SortedMap.ofList, SortedMap.get?_insert]

theorem boolString_eq_true (b : Bool) : decide (boolString b = "true") = b := by
  cases b <;> rfl

theorem directive_of_data (h : m.data = map.data P T)
    (hns : m.namespaceName = map.namespaceName) (hname : m.name = map.name)
    (spec : DirectiveSpec) :
    m.directive map.ownerKind map.owner spec = { map with spec } := by
  obtain ⟨htype, hinstance, hdel, hop, -, hphase⟩ := value_data h
  rw [ConfigMap.directive, htype, hinstance, hdel, boolString_eq_true, hop, hphase, hns, hname]
  rfl

/-! ## Trusting what was written -/

/-- Every object has a UID, no two have the same name, and the times are whole seconds. -/
structure WellStored (reads : ServerReads) (i : MultiSitePostgres) : Prop where
  instanceUID : i.uid ≠ ""
  declaredUID : ∀ object ∈ reads.declared, object.uid ≠ ""
  upgradeUID : ∀ u ∈ reads.upgrades, u.2.uid ≠ ""
  declared : (reads.declared.map fun o => (o.kind, o.namespaceName, o.name)).Nodup
  upgrades : (reads.upgrades.map fun u => (u.1, u.2.name)).Nodup
  schedules : ∀ s ∈ i.status.backupSchedules, ∀ t, s.lastScheduledAt = some t → storedTime t = t

def SlotRecorded (i : MultiSitePostgres) (backupType : String) (slot : Time) : Prop :=
  ∃ s ∈ i.status.backupSchedules, s.type = backupType ∧ s.lastScheduledAt = some (storedTime slot)

def DirectiveOwner.Stored (due : List (String × Time)) (reads : ServerReads)
    (i : MultiSitePostgres) : DirectiveOwner → Prop
  | .declared object => object ∈ reads.declared ∧ object.namespaceName = i.namespaceName ∧
      object.instanceRef = i.name
  | .schedule backupType slot => SlotRecorded i backupType slot ∨ (backupType, slot) ∈ due
  | .preflight u => (i.namespaceName, u) ∈ reads.upgrades ∧ u.spec.instanceRef = i.name
  | .postUpgrade u => (i.namespaceName, u) ∈ reads.upgrades ∧ u.spec.instanceRef = i.name

variable {due : List (String × Time)} {reads : ServerReads} {i : MultiSitePostgres}

theorem WellStored.find_upgrade (h : WellStored reads i) {namespaceName : String}
    (hu : (namespaceName, u) ∈ reads.upgrades) :
    (reads.upgradesIn namespaceName).find? (fun v => v.name = u.name) = some u := by
  have hpairs : ((reads.upgradesIn namespaceName).map (·.name)).map (fun n => (namespaceName, n)) =
      (reads.upgrades.filter fun v => v.1 = namespaceName).map fun v => (v.1, v.2.name) := by
    rw [ServerReads.upgradesIn, map_map, map_map]
    refine map_congr_left fun v hv => ?_
    rw [of_decide_eq_true (mem_filter.mp hv).2]
    rfl
  have hnodup : ((reads.upgradesIn namespaceName).map (·.name)).Nodup := by
    refine List.Nodup.of_map (fun n => (namespaceName, n)) ?_
    rw [hpairs]
    exact h.upgrades.sublist (filter_sublist.map _)
  exact Lists.find?_of_nodup hnodup (mem_map.mpr ⟨_, mem_filter.mpr ⟨hu, decide_eq_true rfl⟩, rfl⟩)

theorem WellStored.eq_of_key (h : WellStored reads i) {a b : DeclaredObject}
    (ha : a ∈ reads.declared) (hb : b ∈ reads.declared) (hkind : a.kind = b.kind)
    (hns : a.namespaceName = b.namespaceName) (hname : a.name = b.name) : a = b := by
  refine inj_on_of_nodup_map h.declared ha hb ?_
  rw [hkind, hns, hname]

/-- The forms of the directives that controllers write. -/
inductive Written (map : DirectiveMap) : Prop where
  | declaration (kind : DeclarationKind) (hkind : map.ownerKind = kind.ownerKind) (json : String)
      (hspec : map.spec = .declaration json)
  | schedule (hkind : map.ownerKind = .multiSitePostgres) (backupType : String) (t : Time)
      (hspec : map.spec = .backup backupType (storedTime t)) (hkept : map.deleting = false)
  | upgrade (hkind : map.ownerKind = .postgresUpgrade) (hkept : map.deleting = false)

theorem ownerKind?_text (kind : OwnerKind) : ownerKind? kind.text = some kind := by
  cases kind <;> rfl

theorem text_of_ownerKind? {text : String} {kind : OwnerKind} (h : ownerKind? text = some kind) :
    text = kind.text := by
  unfold ownerKind? at h
  split at h <;> cases h <;> rfl

theorem trusts_written (hwritten : Written map) (h : m.data = map.data P T)
    (hns : m.namespaceName = map.namespaceName) (hname : m.name = map.name) :
    reads.trusts P T m i map.owner = reads.trustsDirective i map := by
  have hread := directive_of_data h hns hname
  obtain ⟨-, -, hdel, -, hspec, -⟩ := value_data h
  have hversion : decide (map.owner.apiVersion = groupVersion) = true := decide_eq_true rfl
  have hkind? : ownerKind? map.owner.kind = some map.ownerKind := ownerKind?_text map.ownerKind
  rw [ServerReads.trusts, hversion, hkind?, Bool.true_and]
  cases hwritten with
  | declaration kind hkind json hjson =>
    have htext : DirectiveSpec.declaration (m.value "spec.json") = map.spec := by
      rw [hspec, hjson]
      rfl
    cases kind with
    | database | user =>
      rw [DeclarationKind.ownerKind] at hkind
      rw [htext, hkind]
      dsimp only
      rw [← hkind, hread]
  | schedule hkind backupType t hbackup hkept =>
    have hkept : decide (m.value "deleting" = "false") = true := by
      rw [hdel, hkept]
      rfl
    have hdecoded : scheduledSpec P T (m.value "spec.json") = some map.spec := by
      rw [hspec, hbackup]
      show scheduledSpec P T (backupSpecText P T backupType (storedTime t)) = _
      rw [scheduledSpec_text, storedTime_storedTime]
    rw [hdecoded, hkept, hkind]
    dsimp only
    rw [Bool.true_and, ← hkind, hread]
  | upgrade hkind hkept =>
    have hkept : decide (m.value "deleting" = "false") = true := by
      rw [hdel, hkept]
      rfl
    rw [hkept, hkind]
    dsimp only
    rw [← hkind, hread]
    -- the specification does not matter
    show directiveOwnerTrusted _ i _ _ = directiveOwnerTrusted map i _ _
    rw [directiveOwnerTrusted, directiveOwnerTrusted, hkind]
    rfl

/-! ## The two directions -/

theorem written_directive (h : o.directive i = some map) : Written map := by
  cases o with
  | declared object =>
    rw [DirectiveOwner.directive] at h
    split at h
    · cases h
    · cases h
      exact .declaration object.kind rfl object.specJSON rfl
  | schedule backupType slot =>
    cases h
    exact .schedule rfl backupType slot rfl rfl
  | preflight u | postUpgrade u =>
    obtain ⟨t, -, rfl⟩ := Option.map_eq_some_iff.mp h
    exact .upgrade rfl rfl

/-- When the server trusts what a controller makes of a stored object: a deletion has to be
asked for, and a slot recorded. -/
def DirectiveOwner.Due (i : MultiSitePostgres) : DirectiveOwner → Prop
  | .declared object => object.deleting = true → object.deletionPolicy = some .delete
  | .schedule backupType slot => SlotRecorded i backupType slot
  | .preflight _ => True
  | .postUpgrade _ => True

theorem trusts_declared_iff (hstored : WellStored reads i) {object : DeclaredObject}
    (hobject : object ∈ reads.declared) (hinstance : object.instanceRef = i.name) :
    reads.trustsDirective i (reconcileDirective none object object.deleting) = true ↔
      (object.deleting = true → object.deletionPolicy = some .delete) := by
  let map := reconcileDirective none object object.deleting
  have hself : declarationDirectiveTrusted map i.name object = true ↔
      (object.deleting = true → object.deletionPolicy = some .delete) := by
    rw [declarationDirectiveTrusted, decide_eq_true_iff]
    constructor
    · rintro ⟨-, -, -, -, -, -, -, hpolicy, -⟩
      exact hpolicy
    · exact fun hpolicy => ⟨rfl, rfl, rfl, rfl, hinstance, rfl, rfl, hpolicy, rfl⟩
  have hany : ∀ kind, kind = object.kind →
      (declaredDirectiveTrusted map i reads.declared kind = true ↔
        declarationDirectiveTrusted map i.name object = true) := by
    rintro kind rfl
    constructor
    · intro h
      obtain ⟨other, hother, htrusted⟩ := any_eq_true.mp h
      obtain ⟨hkind, hsame, htrusted⟩ := of_decide_eq_true htrusted
      have hname : other.name = object.name := (of_decide_eq_true htrusted).2.1.symm
      rwa [hstored.eq_of_key hother hobject hkind hsame hname] at htrusted
    · exact fun h => any_eq_true.mpr ⟨object, hobject, decide_eq_true ⟨rfl, rfl, h⟩⟩
  rw [← hself]
  show directiveOwnerTrusted map i _ reads.declared = true ↔ _
  have huid : (map.ownerUID != "") = true := bne_iff_ne.mpr (hstored.declaredUID object hobject)
  have href : (map.instanceRef == i.name) = true := beq_iff_eq.mpr hinstance
  rw [directiveOwnerTrusted, huid, href, Bool.true_and]
  cases hkind : object.kind with
  | database =>
    have hmap : map.ownerKind = .postgresDatabase := congrArg DeclarationKind.ownerKind hkind
    rw [hmap]
    exact hany .database hkind.symm
  | user =>
    have hmap : map.ownerKind = .postgresUser := congrArg DeclarationKind.ownerKind hkind
    rw [hmap]
    exact hany .user hkind.symm

theorem trusts_schedule_iff (hstored : WellStored reads i) (backupType : String) (slot : Time) :
    reads.trustsDirective i (backupDirective i backupType slot) = true ↔
      SlotRecorded i backupType slot := by
  have huid : (i.uid != "") = true := bne_iff_ne.mpr hstored.instanceUID
  have hname : (i.name == i.name) = true := beq_self_eq_true _
  show (i.uid != "" && i.name == i.name && scheduledBackupDirectiveTrusted _ i) = true ↔ _
  rw [huid, hname, Bool.true_and]
  show decide _ = true ↔ _
  rw [decide_eq_true_iff]
  constructor
  · rintro ⟨-, -, -, -, hany, -⟩
    obtain ⟨s, hs, htype⟩ := any_eq_true.mp hany
    exact ⟨s, hs, of_decide_eq_true htype⟩
  · rintro ⟨s, hs, htype⟩
    refine ⟨rfl, rfl, rfl, rfl, any_eq_true.mpr ⟨s, hs, decide_eq_true htype⟩, ?_, ?_⟩
    · show backupDirectiveName backupType slot = backupDirectiveName backupType (storedTime slot)
      rw [backupDirectiveName, backupDirectiveName, unix_storedTime]
    · show scheduledBackupOperationUID i.uid backupType slot =
        scheduledBackupOperationUID i.uid backupType (storedTime slot)
      rw [scheduledBackupOperationUID, scheduledBackupOperationUID, unix_storedTime]

theorem trusts_upgrade (hstored : WellStored reads i) (hu : (i.namespaceName, u) ∈ reads.upgrades)
    (hinstance : u.spec.instanceRef = i.name) (hkind : map.ownerKind = .postgresUpgrade)
    (hns : map.namespaceName = i.namespaceName) (hname : map.ownerName = u.name)
    (huid : map.ownerUID = u.uid) (href : map.instanceRef = i.name) (htype : map.type = "Backup")
    (hkept : map.deleting = false) (hrequested : upgradeBackupRequested map u = true) :
    reads.trustsDirective i map = true := by
  have hne : (map.ownerUID != "") = true := by
    rw [huid]
    exact bne_iff_ne.mpr (hstored.upgradeUID _ hu)
  rw [ServerReads.trustsDirective, directiveOwnerTrusted, hne, href, hkind, hns,
    beq_self_eq_true, Bool.true_and]
  rw [upgradeBackupDirectiveTrusted, htype, hkept, hname, hstored.find_upgrade hu]
  simp [huid, hinstance, hrequested]

/-- The server trusts what a controller makes of a stored object exactly when it is due. -/
theorem trustsDirective_iff (hstored : WellStored reads i) (ho : o.Stored due reads i)
    (h : o.directive i = some map) :
    reads.trustsDirective i map = true ↔ o.Due i := by
  cases o with
  | declared object =>
    rw [DirectiveOwner.directive] at h
    split at h
    · cases h
    · cases h
      exact trusts_declared_iff hstored ho.1 ho.2.2
  | schedule backupType slot =>
    cases h
    exact trusts_schedule_iff hstored backupType slot
  | preflight u | postUpgrade u =>
    obtain ⟨t, ht, rfl⟩ := Option.map_eq_some_iff.mp h
    refine ⟨fun _ => trivial, fun _ => ?_⟩
    refine trusts_upgrade hstored ho.1 ho.2 rfl rfl rfl rfl ho.2 rfl rfl ?_
    simp [upgradeBackupRequested, upgradeBackupDirective, ht]

structure SignedFields where
  operationUID : String
  type : String
  deleting : Bool
  spec : String
deriving DecidableEq

def ConfigMap.signed (m : ConfigMap) : SignedFields :=
  ⟨m.value "operationUID", m.value "type", m.value "deleting" = "true", m.value "spec.json"⟩

def DirectiveMap.signed (P : Printers TextKind) (T : TimeText) (map : DirectiveMap) :
    SignedFields :=
  ⟨map.operationUID, map.type, map.deleting, map.spec.text P T⟩

def ConfigMap.upgradeOwner? (m : ConfigMap) (u : PostgresUpgrade) : Option DirectiveOwner :=
  if m.value "upgradeBackupPhase" = "preflight" then some (.preflight u)
  else if m.value "upgradeBackupPhase" = "post-upgrade" then some (.postUpgrade u)
  else none

/-- What is known of a directive that is trusted: the object it is for, and all but the
specification of a backup. -/
inductive TrustCase (P : Printers TextKind) (T : TimeText) (due : List (String × Time))
    (reads : ServerReads) (i : MultiSitePostgres) (m : ConfigMap) (owner : OwnerReference) :
    Prop where
  | declared (object : DeclaredObject) (ho : (DirectiveOwner.declared object).Stored due reads i)
      (hdue : (DirectiveOwner.declared object).Due i)
      (howner : owner = (reconcileDirective none object object.deleting).owner)
      (hname : m.name = object.directiveName)
      (hsigned : m.signed = (reconcileDirective none object object.deleting).signed P T)
  | schedule (backupType : String) (slot : Time) (hdue : SlotRecorded i backupType slot)
      (howner : owner = (backupDirective i backupType slot).owner)
      (hspec : scheduledSpec P T (m.value "spec.json") =
        some (.backup backupType (storedTime slot)))
      (hsigned : m.signed =
        { (backupDirective i backupType slot).signed P T with spec := m.value "spec.json" })
  | upgrade (o : DirectiveOwner) (u : PostgresUpgrade) (map : DirectiveMap)
      (ho : m.upgradeOwner? u = some o) (hstored : o.Stored due reads i)
      (hmap : o.directive i = some map) (howner : owner = map.owner)
      (hsigned : m.signed = { map.signed P T with spec := m.value "spec.json" })

section

variable {m : ConfigMap} {owner : OwnerReference}

theorem owner_eq (hversion : owner.apiVersion = groupVersion) {map : DirectiveMap}
    (hkind : owner.kind = map.ownerKind.text) (hname : owner.name = map.ownerName)
    (huid : owner.uid = map.ownerUID) (hctrl : owner.controller = true) :
    owner = map.owner := by
  cases owner
  cases hversion
  cases hkind
  cases hname
  cases huid
  cases hctrl
  rfl

theorem trustCase_declared (hns : m.namespaceName = i.namespaceName)
    (hctrl : owner.controller = true) (hversion : owner.apiVersion = groupVersion)
    {kind : DeclarationKind} (hkind : owner.kind = kind.ownerKind.text)
    (h : declaredDirectiveTrusted (m.directive kind.ownerKind owner
      (.declaration (m.value "spec.json"))) i reads.declared kind = true) :
    TrustCase P T due reads i m owner := by
  obtain ⟨object, hobject, htrusted⟩ := any_eq_true.mp h
  obtain ⟨rfl, hsame, htrusted⟩ := of_decide_eq_true htrusted
  obtain ⟨htype, hownerName, hname, huid, hinstance, hop, hdel, hpolicy, hspec⟩ :=
    of_decide_eq_true htrusted
  rw [hdel] at hop hpolicy
  refine .declared object ⟨hobject, hsame.trans hns, hinstance⟩ hpolicy
    (owner_eq hversion hkind hownerName huid.symm hctrl) hname ?_
  show SignedFields.mk (m.value "operationUID") (m.value "type")
    (decide (m.value "deleting" = "true")) (m.value "spec.json") =
    ⟨directiveOperationUID object object.deleting, object.kind.directiveType, object.deleting,
      object.specJSON⟩
  rw [show m.value "operationUID" = _ from hop, show m.value "type" = _ from htype,
    show decide (m.value "deleting" = "true") = _ from hdel]
  rw [← DirectiveSpec.declaration.inj hspec]

theorem trustCase_schedule (hstored : WellStored reads i)
    (hctrl : owner.controller = true) (hversion : owner.apiVersion = groupVersion)
    (hkind : owner.kind = OwnerKind.multiSitePostgres.text) {spec : DirectiveSpec}
    (hspec : scheduledSpec P T (m.value "spec.json") = some spec)
    (h : scheduledBackupDirectiveTrusted (m.directive .multiSitePostgres owner spec) i = true) :
    TrustCase P T due reads i m owner := by
  rw [scheduledBackupDirectiveTrusted] at h
  split at h
  · cases h
  · rename_i backupType slot hbackup
    have hbackup : spec = .backup backupType slot := hbackup
    obtain ⟨htype, huid, hname, hkept, hany, -, hop⟩ := of_decide_eq_true h
    obtain ⟨s, hs, hrecorded⟩ := any_eq_true.mp hany
    obtain ⟨hstype, hlast⟩ := of_decide_eq_true hrecorded
    have hwhole := hstored.schedules s hs slot hlast
    refine .schedule backupType slot ⟨s, hs, hstype, by rw [hwhole]; exact hlast⟩
      (owner_eq hversion hkind hname huid hctrl) ?_ ?_
    · rw [hspec, hbackup, hwhole]
    · show SignedFields.mk (m.value "operationUID") (m.value "type")
        (decide (m.value "deleting" = "true")) (m.value "spec.json") =
          ⟨scheduledBackupOperationUID i.uid backupType slot, "Backup", false, m.value "spec.json"⟩
      rw [show m.value "operationUID" = _ from hop, show m.value "type" = _ from htype,
        show decide (m.value "deleting" = "true") = _ from hkept]

theorem trustCase_upgrade (hns : m.namespaceName = i.namespaceName)
    (hctrl : owner.controller = true) (hversion : owner.apiVersion = groupVersion)
    (hkind : owner.kind = OwnerKind.postgresUpgrade.text) {spec : DirectiveSpec}
    (h : upgradeBackupDirectiveTrusted (m.directive .postgresUpgrade owner spec) i
      (reads.upgradesIn m.namespaceName) = true) :
    TrustCase P T due reads i m owner := by
  rw [upgradeBackupDirectiveTrusted, Bool.and_eq_true, Bool.and_eq_true, beq_iff_eq] at h
  obtain ⟨⟨htype, hkept⟩, h⟩ := h
  rw [Bool.not_eq_true'] at hkept
  obtain ⟨u, hfound, h⟩ := (Option.any_eq_true _ _).mp h
  rw [Bool.and_eq_true, Bool.and_eq_true, beq_iff_eq, beq_iff_eq] at h
  obtain ⟨⟨huid, hinstance⟩, hrequested⟩ := h
  have hfound' := find?_some hfound
  have hname : u.name = owner.name := of_decide_eq_true hfound'
  have hmem : (i.namespaceName, u) ∈ reads.upgrades := by
    obtain ⟨⟨n, v⟩, hv, rfl⟩ := mem_map.mp (mem_of_find?_eq_some hfound)
    obtain ⟨hv, hn⟩ := mem_filter.mp hv
    have hn : n = m.namespaceName := of_decide_eq_true hn
    rwa [hn, hns] at hv
  have hsigned : ∀ {operationUID : String}, m.value "operationUID" = operationUID →
      m.signed = ⟨operationUID, "Backup", false, m.value "spec.json"⟩ := by
    rintro _ rfl
    rw [ConfigMap.signed, show m.value "type" = _ from htype,
      show decide (m.value "deleting" = "true") = _ from hkept]
  rw [upgradeBackupRequested] at hrequested
  split at hrequested
  · rename_i hphase
    rw [Bool.and_eq_true, Bool.and_eq_true, beq_iff_eq, beq_iff_eq] at hrequested
    obtain ⟨⟨hrequested, -⟩, hop⟩ := hrequested
    obtain ⟨t, ht⟩ := Option.isSome_iff_exists.mp hrequested
    refine .upgrade (.preflight u) u _ (if_pos hphase) ⟨hmem, hinstance⟩
      (congrArg (Option.map _) ht) ?_ ?_
    · exact owner_eq hversion hkind hname.symm huid.symm hctrl
    · exact hsigned hop
  · rename_i hphase
    have hphase : m.value "upgradeBackupPhase" = "post-upgrade" := hphase
    rw [Bool.and_eq_true, Bool.and_eq_true, beq_iff_eq, beq_iff_eq] at hrequested
    obtain ⟨⟨hrequested, -⟩, hop⟩ := hrequested
    obtain ⟨t, ht⟩ := Option.isSome_iff_exists.mp hrequested
    refine .upgrade (.postUpgrade u) u _ (by simp [ConfigMap.upgradeOwner?, hphase])
      ⟨hmem, hinstance⟩ (congrArg (Option.map _) ht) ?_ ?_
    · exact owner_eq hversion hkind hname.symm huid.symm hctrl
    · exact hsigned hop
  · cases hrequested

theorem trustCase (hstored : WellStored reads i) (hns : m.namespaceName = i.namespaceName)
    (hctrl : owner.controller = true) (h : reads.trusts P T m i owner = true) :
    TrustCase P T due reads i m owner := by
  rw [ServerReads.trusts, Bool.and_eq_true, decide_eq_true_iff] at h
  obtain ⟨hversion, h⟩ := h
  cases hkind : ownerKind? owner.kind with
  | none =>
    rw [hkind] at h
    cases h
  | some kind =>
    have htext := text_of_ownerKind? hkind
    rw [hkind] at h
    cases kind with
    | postgresDatabase =>
      have h := (Bool.and_eq_true_iff.mp h).2
      have htext : owner.kind = DeclarationKind.database.ownerKind.text := htext
      exact trustCase_declared hns hctrl hversion htext h
    | postgresUser =>
      have h := (Bool.and_eq_true_iff.mp h).2
      have htext : owner.kind = DeclarationKind.user.ownerKind.text := htext
      exact trustCase_declared hns hctrl hversion htext h
    | multiSitePostgres =>
      have h := (Bool.and_eq_true_iff.mp h).2
      cases hspec : scheduledSpec P T (m.value "spec.json") with
      | none =>
        rw [hspec] at h
        cases h
      | some spec =>
        rw [hspec] at h
        exact trustCase_schedule hstored hctrl hversion htext hspec (Bool.and_eq_true_iff.mp h).2
    | postgresUpgrade =>
      have h := (Bool.and_eq_true_iff.mp h).2
      exact trustCase_upgrade hns hctrl hversion htext (Bool.and_eq_true_iff.mp h).2

end

/-! ## Agreement -/

def DirectiveOwner.upgrade? : DirectiveOwner → Option PostgresUpgrade
  | .declared _ => none
  | .schedule _ _ => none
  | .preflight u => some u
  | .postUpgrade u => some u

theorem upgrade?_of_upgradeOwner? (h : m.upgradeOwner? u = some o) : o.upgrade? = some u := by
  rw [ConfigMap.upgradeOwner?] at h
  split_ifs at h <;> cases h <;> rfl

theorem directive_upgrade (ho : o.upgrade? = some u) (h : o.directive i = some map) :
    map.type = "Backup" ∧ map.ownerKind = .postgresUpgrade ∧ map.ownerName = u.name ∧
      ∃ t, map.spec = .backup "full" t := by
  cases o with
  | declared | schedule => cases ho
  | preflight v | postUpgrade v =>
    cases ho
    obtain ⟨t, -, rfl⟩ := Option.map_eq_some_iff.mp h
    exact ⟨rfl, rfl, rfl, storedTime t, rfl⟩

theorem trustedOwner_eq_some : reads.trustedOwner P T c i = some owner ↔
      c.controllerOf = some owner ∧ reads.trusts P T c i owner = true :=
  Option.filter_eq_some_iff

theorem trustCase_of_trustedOwner (hstored : WellStored reads i)
    (hns : c.namespaceName = i.namespaceName) (h : reads.trustedOwner P T c i = some owner) :
    TrustCase P T due reads i c owner := by
  obtain ⟨hctrl, htrusts⟩ := trustedOwner_eq_some.mp h
  exact trustCase hstored hns (find?_some hctrl) htrusts

theorem exists_of_write (h : o.write P T i maps = some c) :
    ∃ map, o.directive i = some map ∧ c.data = map.data P T ∧
      c.namespaceName = map.namespaceName ∧ c.name = map.name ∧
      (c.controllerOf = some map.owner ∨ ∃ object, o = .declared object) := by
  obtain ⟨map, hmap, h⟩ := Option.bind_eq_some_iff.mp h
  refine ⟨map, hmap, ?_⟩
  split at h
  · cases h
    exact ⟨rfl, rfl, rfl, .inl rfl⟩
  · rename_i object hfound _
    cases h
    have hkey := find?_some hfound
    obtain ⟨hsame, hname⟩ := of_decide_eq_true hkey
    exact ⟨rfl, hsame, hname, .inr ⟨object, rfl⟩⟩
  · cases h

theorem directiveType_inj {a b : DeclarationKind} (h : a.directiveType = b.directiveType) :
    a = b := by
  cases a <;> cases b <;> first | rfl | exact absurd h (by decide)

theorem directiveType_ne_backup (kind : DeclarationKind) : kind.directiveType ≠ "Backup" := by
  cases kind <;> decide

theorem ownerKind_declared (kind : DeclarationKind) :
    kind.ownerKind ≠ .multiSitePostgres ∧ kind.ownerKind ≠ .postgresUpgrade := by
  cases kind <;> decide

theorem directiveName_inj {a b : DeclaredObject} (hkind : a.kind = b.kind)
    (h : a.directiveName = b.directiveName) : a.name = b.name := by
  rw [DeclaredObject.directiveName, DeclaredObject.directiveName, hkind] at h
  cases hb : b.kind with
  | database | user =>
    rw [hb] at h
    exact (Text.append_inj h rfl).2

theorem owner_of_write (hstored : WellStored reads i)
    (hns : c.namespaceName = i.namespaceName) (ho : o.Stored due reads i)
    (hmap : o.directive i = some map) (h : o.write P T i maps = some c)
    (htrusted : reads.trustedOwner P T c i = some owner) : owner = map.owner := by
  obtain ⟨map', hmap', hdata, -, hname, hctrl⟩ := exists_of_write h
  cases hmap.symm.trans hmap'
  rcases hctrl with hctrl | ⟨object, rfl⟩
  · exact Option.some.inj ((trustedOwner_eq_some.mp htrusted).1.symm.trans hctrl)
  · have hmade : reconcileDirective none object object.deleting = map := by
      rw [DirectiveOwner.directive] at hmap
      split at hmap
      · cases hmap
      · exact Option.some.inj hmap
    subst hmade
    have htype : c.value "type" = object.kind.directiveType := (value_data hdata).1
    have hcase : TrustCase P T due reads i c owner :=
      trustCase_of_trustedOwner hstored hns htrusted
    cases hcase with
    | declared other hother hdue howner hsame hsigned =>
      have hkind : other.kind = object.kind :=
        directiveType_inj ((congrArg SignedFields.type hsigned).symm.trans htype)
      have heq : other = object := hstored.eq_of_key hother.1 ho.1 hkind
        (hother.2.1.trans ho.2.1.symm) (directiveName_inj hkind (hsame.symm.trans hname))
      rw [howner, heq]
    | schedule backupType slot hdue howner hspec hsigned =>
      have hbackup : c.value "type" = "Backup" := congrArg SignedFields.type hsigned
      exact absurd (htype.symm.trans hbackup) (directiveType_ne_backup _)
    | upgrade other u made hother hthere hmade howner hsigned =>
      have hbackup : c.value "type" = made.type := congrArg SignedFields.type hsigned
      rw [(directive_upgrade (upgrade?_of_upgradeOwner? hother) hmade).1] at hbackup
      exact absurd (htype.symm.trans hbackup) (directiveType_ne_backup _)

/-- Producer and verifier agree on a ConfigMap: what a controller writes is trusted, and what is
trusted is signed as a controller would write it. -/
structure Agrees (P : Printers TextKind) (T : TimeText) (due : List (String × Time))
    (reads : ServerReads) (i : MultiSitePostgres) (maps : List ConfigMap) (c : ConfigMap) :
    Prop where
  trusted : ∀ o : DirectiveOwner, o.Stored due reads i → o.write P T i maps = some c →
    (reads.trustedOwner P T c i).isSome
  signed : ∀ owner, reads.trustedOwner P T c i = some owner →
    ∃ (o : DirectiveOwner) (map : DirectiveMap), o.Stored due reads i ∧ o.directive i = some map ∧
      owner = map.owner ∧ c.signed = map.signed P T

/-- The ConfigMap was not prepared or edited by someone else: a controller that writes it finds
no other owner there and has reason to write, and a backup has the specification text that its
own object gives. -/
structure Untampered (P : Printers TextKind) (T : TimeText) (due : List (String × Time))
    (reads : ServerReads) (i : MultiSitePostgres) (maps : List ConfigMap) (c : ConfigMap) :
    Prop where
  asked : ∀ o : DirectiveOwner, o.Stored due reads i → o.write P T i maps = some c → o.Due i
  owned : ∀ o : DirectiveOwner, o.Stored due reads i → o.write P T i maps = some c →
    c.controllerOf = (o.directive i).map (·.owner)
  scheduled : ∀ owner, reads.trustedOwner P T c i = some owner →
    owner.kind = OwnerKind.multiSitePostgres.text →
    ∀ spec, scheduledSpec P T (c.value "spec.json") = some spec →
      c.value "spec.json" = spec.text P T
  upgrade : ∀ owner, reads.trustedOwner P T c i = some owner →
    ∀ (u : PostgresUpgrade) (o : DirectiveOwner) (map : DirectiveMap),
      c.upgradeOwner? u = some o → o.Stored due reads i → o.directive i = some map →
      owner = map.owner → c.value "spec.json" = map.spec.text P T

theorem Untampered.agrees (h : Untampered P T due reads i maps c) (hstored : WellStored reads i)
    (hns : c.namespaceName = i.namespaceName) : Agrees P T due reads i maps c where
  trusted o ho hwrite := by
    obtain ⟨map, hmap, hdata, hsame, hname, -⟩ := exists_of_write hwrite
    have hctrl := h.owned o ho hwrite
    rw [hmap] at hctrl
    have htrusts : reads.trusts P T c i map.owner = true := by
      rw [trusts_written (written_directive hmap) hdata hsame hname,
        trustsDirective_iff hstored ho hmap]
      exact h.asked o ho hwrite
    rw [trustedOwner_eq_some.mpr ⟨hctrl, htrusts⟩]
    rfl
  signed owner howner := by
    have hcase : TrustCase P T due reads i c owner :=
      trustCase_of_trustedOwner hstored hns howner
    cases hcase with
    | declared object hobject hdue howner' hname hsigned =>
      refine ⟨.declared object, _, hobject, ?_, howner', hsigned⟩
      refine if_neg fun hretain => ?_
      have hdelete : object.deletionPolicy = some .delete := hdue hretain.1
      rw [hretain.2] at hdelete
      cases hdelete
    | schedule backupType slot hrecorded howner' hspec hsigned =>
      have hkind : owner.kind = OwnerKind.multiSitePostgres.text := by
        rw [howner']
        rfl
      have htext := h.scheduled owner howner hkind _ hspec
      rw [htext] at hsigned
      exact ⟨.schedule backupType slot, _, .inl hrecorded, rfl, howner', hsigned⟩
    | upgrade o u map ho hthere hmap howner' hsigned =>
      have htext := h.upgrade owner howner u o map ho hthere hmap howner'
      rw [htext] at hsigned
      exact ⟨o, map, hthere, hmap, howner', hsigned⟩

theorem upgradeOwner_unique {o' : DirectiveOwner} (ho : o.upgrade? = some u)
    (ho' : o'.upgrade? = some u) (hmap : o.directive i = some map)
    (hmap' : o'.directive i = some map') (h : map.operationUID = map'.operationUID) : o = o' := by
  have hne : ∀ n : Nat, u.uid ++ "-preflight-backup" ≠ postUpgradeBackupUID u n := by
    intro n heq
    rw [postUpgradeBackupUID, String.append_assoc] at heq
    exact Text.append_ne_append "" _ 3 (by decide) (by decide) (by decide)
      ((String.append_empty).trans (Text.append_inj heq rfl).2)
  cases o with
  | declared | schedule => cases ho
  | preflight v | postUpgrade v =>
    cases ho
    obtain ⟨t, -, rfl⟩ := Option.map_eq_some_iff.mp hmap
    cases o' with
    | declared | schedule => cases ho'
    | preflight w | postUpgrade w =>
      cases ho'
      obtain ⟨t', -, rfl⟩ := Option.map_eq_some_iff.mp hmap'
      first | rfl | exact absurd h (hne _) | exact absurd h.symm (hne _)

theorem directive_kind (h : o.directive i = some map) :
    (∃ object, o = .declared object ∧ map.ownerKind = object.kind.ownerKind) ∨
    (∃ backupType slot, o = .schedule backupType slot ∧ map = backupDirective i backupType slot) ∨
      ∃ u, o.upgrade? = some u := by
  cases o with
  | declared object =>
    rw [DirectiveOwner.directive] at h
    split at h
    · cases h
    · cases h
      exact .inl ⟨object, rfl, rfl⟩
  | schedule backupType slot =>
    cases h
    exact .inr (.inl ⟨backupType, slot, rfl, rfl⟩)
  | preflight u | postUpgrade u => exact .inr (.inr ⟨u, rfl⟩)

theorem ownerKind_text_inj {a b : OwnerKind} (h : a.text = b.text) : a = b := by
  have hread := ownerKind?_text a
  rw [h, ownerKind?_text] at hread
  exact (Option.some.inj hread).symm

theorem ownerKind_of_owner (h : map.owner = map'.owner) : map.ownerKind = map'.ownerKind :=
  ownerKind_text_inj (congrArg OwnerReference.kind h)

theorem mem_upgrades (ho : o.upgrade? = some u) (h : o.Stored due reads i) :
    (i.namespaceName, u) ∈ reads.upgrades := by
  cases o with
  | declared | schedule => cases ho
  | preflight v | postUpgrade v =>
    cases ho
    exact h.1

theorem upgrade_of_owner {o' : DirectiveOwner} {u' : PostgresUpgrade}
    (hstored : WellStored reads i) (ho : o.upgrade? = some u) (ho' : o'.upgrade? = some u')
    (hthere : o.Stored due reads i) (hthere' : o'.Stored due reads i)
    (hmap : o.directive i = some map) (hmap' : o'.directive i = some map')
    (h : map.owner = map'.owner) : u = u' := by
  have hname : u.name = u'.name := by
    rw [← (directive_upgrade ho hmap).2.2.1, ← (directive_upgrade ho' hmap').2.2.1]
    exact congrArg OwnerReference.name h
  have hfound := hstored.find_upgrade (mem_upgrades ho hthere)
  rw [hname, hstored.find_upgrade (mem_upgrades ho' hthere')] at hfound
  exact (Option.some.inj hfound).symm

theorem Agrees.exists_owner (h : Agrees P T due reads i maps c) (hstored : WellStored reads i)
    (hns : c.namespaceName = i.namespaceName) (ho : o.Stored due reads i)
    (hwrite : o.write P T i maps = some c) :
    ∃ map, o.directive i = some map ∧ c.controllerOf = some map.owner ∧
      reads.trustsDirective i map = true := by
  obtain ⟨owner, howner⟩ := Option.isSome_iff_exists.mp (h.trusted o ho hwrite)
  obtain ⟨map, hmap, hdata, hsame, hname, -⟩ := exists_of_write hwrite
  cases owner_of_write hstored hns ho hmap hwrite howner
  obtain ⟨hctrl, htrusts⟩ := trustedOwner_eq_some.mp howner
  rw [trusts_written (written_directive hmap) hdata hsame hname] at htrusts
  exact ⟨map, hmap, hctrl, htrusts⟩

theorem Agrees.untampered (h : Agrees P T due reads i maps c) (hstored : WellStored reads i)
    (hns : c.namespaceName = i.namespaceName) : Untampered P T due reads i maps c where
  asked o ho hwrite := by
    obtain ⟨map, hmap, -, htrusts⟩ := h.exists_owner hstored hns ho hwrite
    exact (trustsDirective_iff hstored ho hmap).mp htrusts
  owned o ho hwrite := by
    obtain ⟨map, hmap, hctrl, -⟩ := h.exists_owner hstored hns ho hwrite
    rw [hctrl, hmap]
    rfl
  scheduled owner howner hkind spec hspec := by
    obtain ⟨o, map, -, hmap, rfl, hsigned⟩ := h.signed owner howner
    have hkind : map.ownerKind = .multiSitePostgres := ownerKind_text_inj hkind
    have htext : c.value "spec.json" = map.spec.text P T := congrArg SignedFields.spec hsigned
    rcases directive_kind hmap with ⟨object, -, hobject⟩ | ⟨backupType, slot, -, rfl⟩ | ⟨u, hu⟩
    · exact absurd (hobject.symm.trans hkind) (ownerKind_declared _).1
    · have hdecoded : scheduledSpec P T (c.value "spec.json") =
          some (.backup backupType (storedTime (storedTime slot))) := by
        rw [htext]
        exact scheduledSpec_text backupType (storedTime slot)
      rw [hdecoded, storedTime_storedTime] at hspec
      cases hspec
      exact htext
    · rw [(directive_upgrade hu hmap).2.1] at hkind
      cases hkind
  upgrade owner howner u o map ho hthere hmap howns := by
    obtain ⟨o', map', hthere', hmap', howns', hsigned'⟩ := h.signed owner howner
    have hu := upgrade?_of_upgradeOwner? ho
    have hkind : map'.ownerKind = .postgresUpgrade := by
      rw [ownerKind_of_owner (howns'.symm.trans howns)]
      exact (directive_upgrade hu hmap).2.1
    have htext : c.value "spec.json" = map'.spec.text P T := congrArg SignedFields.spec hsigned'
    -- the operation UID is that of the phase the ConfigMap names
    have hop : c.value "operationUID" = map.operationUID := by
      have hcase : TrustCase P T due reads i c owner :=
        trustCase_of_trustedOwner hstored hns howner
      cases hcase with
      | declared object hobject hdue howner' hname hsigned =>
        have hobject : map.ownerKind = object.kind.ownerKind :=
          ownerKind_of_owner (howns.symm.trans howner')
        rw [(directive_upgrade hu hmap).2.1] at hobject
        exact absurd hobject.symm (ownerKind_declared _).2
      | schedule backupType slot hrecorded howner' hspec hsigned =>
        have hschedule : map.ownerKind = .multiSitePostgres :=
          ownerKind_of_owner (howns.symm.trans howner')
        rw [(directive_upgrade hu hmap).2.1] at hschedule
        cases hschedule
      | upgrade q v made hq hthereq hmade howner' hsigned =>
        cases upgrade_of_owner hstored hu (upgrade?_of_upgradeOwner? hq) hthere hthereq hmap hmade
          (howns.symm.trans howner')
        cases ho.symm.trans hq
        cases hmap.symm.trans hmade
        exact congrArg SignedFields.operationUID hsigned
    rcases directive_kind hmap' with ⟨object, -, hobject⟩ | ⟨backupType, slot, -, rfl⟩ | ⟨v, hv⟩
    · exact absurd (hobject.symm.trans hkind) (ownerKind_declared _).2
    · cases hkind
    · cases upgrade_of_owner hstored hu hv hthere hthere' hmap hmap' (howns.symm.trans howns')
      have hsame : map.operationUID = map'.operationUID :=
        hop.symm.trans (congrArg SignedFields.operationUID hsigned')
      cases upgradeOwner_unique hu hv hmap hmap' hsame
      cases hmap.symm.trans hmap'
      exact htext

/-- Producer and verifier agree on a ConfigMap exactly when nobody else has had a hand in it and
its object asks for it. -/
theorem agreement_iff (P : Printers TextKind) (T : TimeText) (config : BackupConfig) (now : Time)
    {reads : ServerReads} {i : MultiSitePostgres} (hstored : WellStored reads i)
    (maps : List ConfigMap) (c : ConfigMap) (hns : c.namespaceName = i.namespaceName) :
    Agrees P T (dueSlots config i now) reads i maps c ↔
      Untampered P T (dueSlots config i now) reads i maps c :=
  ⟨fun h => h.untampered hstored hns, fun h => h.agrees hstored hns⟩

end

/-! ## A backup that is edited, and a database whose ConfigMap was there before -/

def backedUpgrade : PostgresUpgrade :=
  { ledgerUpgrade with status := { preflightBackupRequestedAt := some 0 } }

def appDatabase : DeclaredObject where
  kind := .database
  namespaceName := "database-platform"
  name := "app"
  uid := "app-database-uid"
  instanceRef := "ledger"

def ledgerReads : ServerReads where
  instances := [ledger]
  declared := [appDatabase]
  upgrades := [("database-platform", backedUpgrade)]

theorem ledgerReads_wellStored : WellStored ledgerReads ledger where
  instanceUID := by decide
  declaredUID := by decide
  upgradeUID := by decide
  declared := by decide
  upgrades := by decide
  schedules s hs := absurd hs not_mem_nil

def editedBackup : DirectiveMap :=
  { upgradeBackupDirective backedUpgrade "preflight" "database-platform"
      "mspsql-upgrade-backup-ledger-18-uid" "ledger-18-uid-preflight-backup" 0 with
    spec := .backup "incr" 0 }

def editedMap : ConfigMap := editedBackup.encode plainPrinters plainTimes

def unownedMap : ConfigMap where
  namespaceName := "database-platform"
  name := "mspsql-database-app"

def takenOver : ConfigMap :=
  { unownedMap with
    data := (reconcileDirective none appDatabase false).data plainPrinters plainTimes }

theorem editedMap_trusted : ledgerReads.trustedOwner plainPrinters plainTimes editedMap
    ledger = some editedBackup.owner := by
  refine trustedOwner_eq_some.mpr ⟨rfl, ?_⟩
  have hwritten : Written editedBackup := .upgrade rfl rfl
  rw [trusts_written hwritten rfl rfl rfl]
  exact trusts_upgrade ledgerReads_wellStored (u := backedUpgrade) (mem_singleton.mpr rfl)
    rfl rfl rfl rfl rfl rfl rfl rfl rfl

/-- The server trusts an incremental backup where the controller of the upgrade asks for a full
one, and does not trust what the controller of a database has written into a ConfigMap that was
there before. -/
theorem edited_backup_trusted :
    ((ledgerReads.trustedOwner plainPrinters plainTimes editedMap ledger).isSome ∧
      ¬ Agrees plainPrinters plainTimes (dueSlots config ledger 0) ledgerReads
        ledger [] editedMap) ∧
    (DirectiveOwner.declared appDatabase).write plainPrinters plainTimes ledger
      [unownedMap] = some takenOver ∧
    ledgerReads.trustedOwner plainPrinters plainTimes takenOver ledger = none ∧
    ¬ Agrees plainPrinters plainTimes (dueSlots config ledger 0) ledgerReads
      ledger [unownedMap] takenOver := by
  have hwrite : (DirectiveOwner.declared appDatabase).write plainPrinters plainTimes ledger
      [unownedMap] = some takenOver := rfl
  have hnone : ledgerReads.trustedOwner plainPrinters plainTimes takenOver ledger = none :=
    rfl
  refine ⟨⟨?_, fun h => ?_⟩, hwrite, hnone, fun h => ?_⟩
  · rw [editedMap_trusted]
    rfl
  · obtain ⟨o, map, -, hmap, howner, hsigned⟩ := h.signed _ editedMap_trusted
    have hkind : .postgresUpgrade = map.ownerKind := ownerKind_of_owner howner
    rcases directive_kind hmap with ⟨object, -, hobject⟩ | ⟨backupType, slot, -, rfl⟩ | ⟨u, hu⟩
    · exact (ownerKind_declared _).2 (hkind.trans hobject).symm
    · cases hkind
    · obtain ⟨-, -, -, t, hspec⟩ := directive_upgrade hu hmap
      have htext : editedMap.value "spec.json" =
          backupSpecText plainPrinters plainTimes "full" t := by
        rw [show editedMap.value "spec.json" = _ from congrArg SignedFields.spec hsigned]
        show map.spec.text _ _ = _
        rw [hspec]
        rfl
      have hdata : editedMap.data = editedBackup.data plainPrinters plainTimes := rfl
      have hedited := (value_data hdata).2.2.2.2.1
      have hdecoded := congrArg (scheduledSpec plainPrinters plainTimes) (htext.symm.trans hedited)
      rw [scheduledSpec_text] at hdecoded
      rw [show editedBackup.spec.text plainPrinters plainTimes =
        backupSpecText plainPrinters plainTimes "incr" 0 from rfl, scheduledSpec_text] at hdecoded
      exact absurd (DirectiveSpec.backup.inj (Option.some.inj hdecoded)).1 (by decide)
  · have hsome := h.trusted (.declared appDatabase) ⟨mem_singleton.mpr rfl, rfl, rfl⟩ hwrite
    rw [hnone] at hsome
    cases hsome

def appDirective : ConfigMap :=
  (reconcileDirective none appDatabase false).encode plainPrinters plainTimes

theorem appDirective_agreement : WellStored ledgerReads ledger ∧
    (Agrees plainPrinters plainTimes (dueSlots config ledger 0) ledgerReads ledger [] appDirective ↔
      Untampered plainPrinters plainTimes (dueSlots config ledger 0) ledgerReads
        ledger [] appDirective) :=
  ⟨ledgerReads_wellStored, agreement_iff plainPrinters plainTimes config 0
    ledgerReads_wellStored [] appDirective rfl⟩

end Mspsql
