import Mspsql.Agent.SitePolicy
import Mspsql.Hub.Rollout
import Mspsql.Lib.IPv4

/-!
# The addresses in etcd peer certificates

Members check the address a peer connects from against its certificate, so the certificates of
a site carry the source addresses that are configured for it.  Whatever an issued
certificate holds and the plan does not know as the address of an etcd member is taken for a
source address and carried on.

An address that a member had before a migration is of that kind as soon as the plan no longer
mentions it, and stays (`migratedAddress_stays`).  `oldAddress_leaves` says after which plans an
address leaves the certificates, however they were issued in between.
-/

namespace Mspsql

open List

namespace SitePlan

variable (desired : SitePlan)

def peerSourceAddresses : List String :=
  (desired.site.loadBalancer.map (·.peerSourceAddresses)).getD []

/-- The addresses that the plan has for etcd members. -/
def etcdAddresses : List String :=
  ((desired.memberAddresses.entries ++ desired.addressCandidates.entries).filter fun e =>
      Text.hasPrefix e.1 "etcd-" ∧ e.2 ≠ "").map (·.2) ++
    match desired.addressMigration with
    | none => []
    | some migration =>
      if Text.hasPrefix migration.member "etcd-" then
        [migration.oldAddress, migration.newAddress].filter (· ≠ "")
      else []

/-- The IP addresses in the issued certificates of a site, by the name of the Secret.  A Secret
that cannot be read or parsed ends the reconcile before anything is rendered. -/
abbrev IssuedAddresses := SortedMap String (List String)

/-- `preserveIssuedEtcdPeerSourceAddresses`. -/
def preserveIssuedEtcdPeerSourceAddresses (issued : IssuedAddresses) : SitePlan :=
  let sourceAddresses := compact (Text.sortText (desired.peerSourceAddresses ++
    desired.etcdMembers.flatMap fun name =>
      ((issued.get? (name ++ "-tls")).getD []).filter (· ∉ desired.etcdAddresses)))
  if sourceAddresses = [] then desired
  else
    let loadBalancer := desired.site.loadBalancer.getD { addressPool := "" }
    { desired with
      site := { desired.site with
        loadBalancer := some { loadBalancer with peerSourceAddresses := sourceAddresses } } }

def certificateAddresses (member : String) : List String :=
  compact (Text.sortText ( [(desired.memberAddresses.get? member).getD "",
      (desired.addressCandidates.get? member).getD ""] ++
    (if Text.hasPrefix member "etcd-" then desired.peerSourceAddresses else []) ++
    match desired.addressMigration with
    | none => []
    | some migration =>
      if migration.member = member ∧ migration.oldAddress ≠ "" ∧
          migration.oldAddress ≠ migration.newAddress then [migration.oldAddress]
      else []))

/-- The addresses of the certificate that `reconcileCertificates` renders for a member. -/
def peerCertificateAddresses (issued : IssuedAddresses) (member : String) : List String :=
  (desired.preserveIssuedEtcdPeerSourceAddresses issued).certificateAddresses member

/-- What the plan itself gives a reason to keep in the certificate of a member. -/
def NamesAddress (member address : String) : Prop :=
  address = (desired.memberAddresses.get? member).getD "" ∨
    address = (desired.addressCandidates.get? member).getD "" ∨
    address ∈ desired.peerSourceAddresses

def Issued (issued : IssuedAddresses) (address : String) : Prop :=
  ∃ name ∈ desired.etcdMembers, address ∈ (issued.get? (name ++ "-tls")).getD []

variable {desired} {issued : IssuedAddresses} {member address : String}

theorem mem_peerSourceAddresses_preserve :
    address ∈ (desired.preserveIssuedEtcdPeerSourceAddresses issued).peerSourceAddresses ↔
      address ∈ desired.peerSourceAddresses ∨
        desired.Issued issued address ∧ address ∉ desired.etcdAddresses := by
  have hmem : address ∈ compact (Text.sortText (desired.peerSourceAddresses ++
      desired.etcdMembers.flatMap fun name =>
        ((issued.get? (name ++ "-tls")).getD []).filter (· ∉ desired.etcdAddresses))) ↔
      address ∈ desired.peerSourceAddresses ∨
        desired.Issued issued address ∧ address ∉ desired.etcdAddresses := by
    simp only [mem_compact, Text.mem_sortText, Issued]
    grind
  rw [← hmem, preserveIssuedEtcdPeerSourceAddresses]
  split
  · rename_i hnone
    grind
  · rfl

theorem etcdMembers_etcd (h : member ∈ desired.etcdMembers) :
    Text.hasPrefix member "etcd-" = true := by
  obtain ⟨ordinal, -, rfl⟩ := mem_map.mp h
  exact Text.hasPrefix_iff.mpr ⟨(desired.site.name ++ "-" ++ toString ordinal).toList, by simp⟩

/-- A certificate holds what the plan puts there and what was issued before, except the
addresses of etcd members. -/
theorem mem_peerCertificateAddresses (h : member ∈ desired.etcdMembers) :
    address ∈ desired.peerCertificateAddresses issued member ↔
      address ∈ desired.certificateAddresses member ∨
        desired.Issued issued address ∧ address ∉ desired.etcdAddresses := by
  have hsame : (desired.preserveIssuedEtcdPeerSourceAddresses issued).memberAddresses =
        desired.memberAddresses ∧
      (desired.preserveIssuedEtcdPeerSourceAddresses issued).addressCandidates =
        desired.addressCandidates ∧
      (desired.preserveIssuedEtcdPeerSourceAddresses issued).addressMigration =
        desired.addressMigration := by
    rw [preserveIssuedEtcdPeerSourceAddresses]
    split <;> exact ⟨rfl, rfl, rfl⟩
  simp only [peerCertificateAddresses, certificateAddresses, mem_compact, Text.mem_sortText,
    if_pos (etcdMembers_etcd h), mem_append, mem_peerSourceAddresses_preserve]
  grind

theorem mem_certificateAddresses (h : member ∈ desired.etcdMembers)
    (hover : ∀ migration ∈ desired.addressMigration, migration.member ≠ member) :
    address ∈ desired.certificateAddresses member ↔ desired.NamesAddress member address := by
  rw [certificateAddresses, mem_compact, Text.mem_sortText, if_pos (etcdMembers_etcd h),
    NamesAddress]
  cases hmig : desired.addressMigration with
  | none => simp
  | some migration => simp [hover migration hmig]

end SitePlan

/-! ## Histories of plans -/

/-- The certificates of the etcd members of a site. -/
structure PeerCertificates where
  /-- The addresses in the `Certificate` of a member as it was applied last. -/
  rendered : String → List String := fun _ => []
  issued : SitePlan.IssuedAddresses := ∅
  /-- The plans that were applied, the newest first. -/
  applied : List SitePlan := []

inductive CertificateEvent where
  /-- `reconcileCertificates` of a plan. -/
  | apply (desired : SitePlan)
  /-- The certificate of a member is issued as it is rendered. -/
  | issue (member : String)

namespace PeerCertificates

open Machine

section

-- `net.ParseIP` and the text of its result
variable (parseIP : String → Option String)

def step (s : PeerCertificates) : CertificateEvent → Option PeerCertificates
  | .apply desired => some { s with
      rendered := fun member => if member ∈ desired.etcdMembers then
        desired.peerCertificateAddresses s.issued member else s.rendered member
      applied := desired :: s.applied }
  | .issue member => some { s with
      issued := s.issued.insert (member ++ "-tls") ((s.rendered member).filterMap parseIP) }

/-- One of the plans puts the address into the certificate of an etcd member. -/
def PutBy (plans : List SitePlan) (address : String) : Prop :=
  ∃ p ∈ plans, ∃ member ∈ p.etcdMembers, ∃ text ∈ p.certificateAddresses member,
    parseIP text = some address

/-- However the certificates were issued while the plans were applied, with the next plan the
certificate of the member holds the address only if the plan names it. -/
def Leaves (plans : List SitePlan) (desired : SitePlan) (member address : String) : Prop :=
  ∀ s t, Reach (step parseIP) (· = {}) anyStep s → s.applied = plans →
    s.step parseIP (.apply desired) = some t → address ∈ t.rendered member →
      desired.NamesAddress member address

/-- Whatever is issued, or will be, was put there by a plan. -/
structure Traced (s : PeerCertificates) : Prop where
  rendered : ∀ member, ∀ text ∈ s.rendered member, ∀ address, parseIP text = some address →
    PutBy parseIP s.applied address
  issued : ∀ secret, ∀ address ∈ (s.issued.get? secret).getD [], PutBy parseIP s.applied address

end

variable {parseIP : String → Option String} {s t : PeerCertificates} {e : CertificateEvent}
  {plans : List SitePlan} {desired : SitePlan} {member address : String}

theorem Traced.step (hparse : ∀ text ip, parseIP text = some ip → parseIP ip = some ip)
    (h : Traced parseIP s) (hst : s.step parseIP e = some t) : Traced parseIP t := by
  cases e with
  | apply desired =>
    obtain rfl := Option.some.inj hst
    have hold : ∀ {address}, PutBy parseIP s.applied address →
        PutBy parseIP (desired :: s.applied) address :=
      fun ⟨p, hp, hput⟩ => ⟨p, mem_cons_of_mem _ hp, hput⟩
    refine ⟨fun member text htext address hip => ?_, fun secret address hmem =>
      hold (h.issued secret address hmem)⟩
    dsimp only at htext
    split at htext
    · rename_i hmember
      rcases (SitePlan.mem_peerCertificateAddresses hmember).mp htext with hput | ⟨hissued, -⟩
      · exact ⟨desired, mem_cons_self, member, hmember, text, hput, hip⟩
      · -- an address that was read from a certificate is the text of an IP address
        obtain ⟨name, -, hmem⟩ := hissued
        obtain ⟨p, hp, n, hn, given, hgiven, htext⟩ := h.issued _ text hmem
        obtain rfl := Option.some.inj ((hparse given text htext).symm.trans hip)
        exact hold ⟨p, hp, n, hn, given, hgiven, htext⟩
    · exact hold (h.rendered member text htext address hip)
  | issue member =>
    obtain rfl := Option.some.inj hst
    refine ⟨h.rendered, fun secret address hmem => ?_⟩
    rw [SortedMap.get?_insert] at hmem
    split at hmem
    · obtain ⟨text, htext, hip⟩ := mem_filterMap.mp hmem
      exact h.rendered member text htext address hip
    · exact h.issued secret address hmem

theorem Traced.of_reach (hparse : ∀ text ip, parseIP text = some ip → parseIP ip = some ip)
    (h : Reach (PeerCertificates.step parseIP) (· = {}) anyStep s) : Traced parseIP s := by
  refine h.invariant (fun _ h0 => ?_) fun _ _ _ hinv _ hst => hinv.step hparse hst
  rw [h0]
  exact ⟨fun _ _ htext => absurd htext not_mem_nil, fun _ _ hmem => absurd hmem not_mem_nil⟩

theorem exists_applied (plans : List SitePlan) :
    ∃ s, Reach (step parseIP) (· = {}) anyStep s ∧ s.applied = plans := by
  induction plans with
  | nil => exact ⟨{}, .start rfl, rfl⟩
  | cons q rest ih =>
    obtain ⟨s, hs, rfl⟩ := ih
    exact ⟨_, hs.next trivial (e := .apply q) rfl, rfl⟩

/-- The plans are applied one after the other, and the certificate of a member is issued after
one of them only. -/
theorem exists_issued {p : SitePlan} {text : String} (hp : p ∈ plans)
    (hmember : member ∈ p.etcdMembers) (htext : text ∈ p.certificateAddresses member)
    (hip : parseIP text = some address) :
    ∃ s, Reach (step parseIP) (· = {}) anyStep s ∧ s.applied = plans ∧
      address ∈ (s.issued.get? (member ++ "-tls")).getD [] := by
  induction plans with
  | nil => cases hp
  | cons q rest ih =>
    rcases mem_cons.mp hp with rfl | hrest
    · obtain ⟨s, hs, rfl⟩ := @exists_applied parseIP rest
      refine ⟨_, (hs.next trivial (e := .apply p) rfl).next trivial (e := .issue member) rfl, rfl,
        ?_⟩
      rw [SortedMap.get?_insert_self, Option.getD_some]
      dsimp only
      rw [if_pos hmember]
      exact mem_filterMap.mpr
        ⟨text, (SitePlan.mem_peerCertificateAddresses hmember).mpr (.inl htext), hip⟩
    · obtain ⟨s, hs, rfl, hissued⟩ := ih hrest
      exact ⟨_, hs.next trivial (e := .apply q) rfl, rfl, hissued⟩

/-- An address leaves with a plan that does not migrate the member, if the plan has every address
that an earlier one put into a certificate of the site as that of an etcd member or names it.
No less is enough as long as the site keeps its members. -/
theorem oldAddress_leaves (hparse : ∀ text ip, parseIP text = some ip → parseIP ip = some ip)
    (hmember : member ∈ desired.etcdMembers)
    (hover : ∀ migration ∈ desired.addressMigration, migration.member ≠ member) :
    ((PutBy parseIP plans address → address ∈ desired.etcdAddresses ∨
        desired.NamesAddress member address) → Leaves parseIP plans desired member address) ∧
    ((∀ p ∈ plans, p.etcdMembers ⊆ desired.etcdMembers) →
      Leaves parseIP plans desired member address → PutBy parseIP plans address →
        address ∈ desired.etcdAddresses ∨ desired.NamesAddress member address) := by
  refine ⟨fun hknown s t hs happlied hst hmem => ?_, fun hkept hleaves hput => ?_⟩
  · have htraced := Traced.of_reach hparse hs
    obtain rfl := Option.some.inj hst
    dsimp only at hmem
    rw [if_pos hmember, SitePlan.mem_peerCertificateAddresses hmember,
      SitePlan.mem_certificateAddresses hmember hover] at hmem
    rcases hmem with hnamed | ⟨⟨name, -, hissued⟩, hother⟩
    · exact hnamed
    · exact (hknown (happlied ▸ htraced.issued _ _ hissued)).resolve_left hother
  · obtain ⟨p, hp, name, hname, text, htext, hip⟩ := hput
    obtain ⟨s, hs, happlied, hissued⟩ := exists_issued hp hname htext hip
    by_contra hnot
    rw [not_or] at hnot
    refine hnot.2 (hleaves s _ hs happlied rfl ?_)
    dsimp only
    rw [if_pos hmember, SitePlan.mem_peerCertificateAddresses hmember]
    exact .inr ⟨⟨name, hkept p hp hname, hissued⟩, hnot.1⟩

/-- IPv4 addresses. -/
def parseIPv4 (text : String) : Option String := (IPv4.parseAddr text).map (IPv4.text ∘ some)

theorem parseIPv4_canonical (text ip : String) (h : parseIPv4 text = some ip) :
    parseIPv4 ip = some ip := by
  obtain ⟨a, -, rfl⟩ := Option.map_eq_some_iff.mp h
  exact congrArg (Option.map _) (IPv4.parseAddr_text a)

/-- The example's plan for a site after its first etcd member got another address. -/
def movedPlan (migration : Option AddressMigrationPlan) (others : List (String × String)) :
    SitePlan :=
  { Sample.ordersPlan "vic" Sample.vic with
    memberAddresses := .ofList (("etcd-vic-0", "10.0.0.2") :: others)
    addressMigration := migration }

/-- The certificate is issued during the migration and holds the old address. -/
def migrated : PeerCertificates :=
  let migration := ⟨"operation", "etcd-vic-0", "10.0.0.1", "10.0.0.2"⟩
  reached (step parseIPv4) anyStep {} [fun _ => .apply (movedPlan (some migration) []),
    fun _ => .issue "etcd-vic-0"]

def HoldsOld (s : PeerCertificates) : Prop :=
  "10.0.0.1" ∈ (s.issued.get? "etcd-vic-0-tls").getD []
deriving Decidable

theorem migrated_reach : Reach (step parseIPv4) (· = {}) anyStep migrated ∧ HoldsOld migrated :=
  played rfl (by decide +kernel)

/-- Another site gets the old address, and the certificate lets go of it. -/
theorem takenOver_leaves : HoldsOld migrated ∧
    ∃ t, migrated.step parseIPv4 (.apply (movedPlan none [("etcd-nsw-0", "10.0.0.1")])) = some t ∧
      "10.0.0.1" ∉ t.rendered "etcd-vic-0" := by
  refine ⟨migrated_reach.2, _, rfl, fun hmem => ?_⟩
  have hnamed := (oldAddress_leaves parseIPv4_canonical (by decide +kernel)
    fun _ h => by cases h).1 (fun _ => .inl (by decide +kernel)) _ _ migrated_reach.1 rfl rfl hmem
  revert hnamed
  unfold SitePlan.NamesAddress
  decide +kernel

/-- Otherwise the plan after the migration keeps it. -/
theorem migratedAddress_stays : Reach (step parseIPv4) (· = {}) anyStep migrated ∧
    ∃ t, migrated.step parseIPv4 (.apply (movedPlan none [])) = some t ∧
      "10.0.0.1" ∈ t.rendered "etcd-vic-0" ∧
      ¬ (movedPlan none []).NamesAddress "etcd-vic-0" "10.0.0.1" := by
  refine ⟨migrated_reach.1, _, rfl, by decide +kernel, ?_⟩
  unfold SitePlan.NamesAddress
  decide +kernel

end PeerCertificates

end Mspsql
