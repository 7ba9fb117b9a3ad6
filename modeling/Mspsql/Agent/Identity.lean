import Mspsql.Api

/-!
# The agent's identity

The agent's certificate and keys lie in an immutable Secret that its Deployment mounts.  A
renewed certificate goes into the one of two slots that the Deployment does not refer to,
together with what else the mounted identity holds, and the Deployment is pointed there.  The
bootstrap stores ten keys and a rotation reads seven of them (`survives_iff`).
-/

namespace Mspsql.Identity

open List

/-- What the bootstrap keeps of the answer to its bind request. -/
structure BindResponse where
  certificatePEM : String
  caBundlePEM : String
  planPublicKey : String
  planPublicKeyID : String
  wireGuardKeyID : String
  revocationEpoch : String
  wireGuardPeerState : String

/-- The identity that `bootstrapIfRequired` creates. -/
def bootstrapIdentity (binding : BindResponse) (tlsKey wireGuardPrivate wireGuardPublic : String) :
    StringMap :=
  .ofList [("tls.crt", binding.certificatePEM), ("tls.key", tlsKey),
    ("ca.crt", binding.caBundlePEM), ("plan-public-key", binding.planPublicKey),
    ("plan-public-key-id", binding.planPublicKeyID), ("wireguard-private-key", wireGuardPrivate),
    ("wireguard-public-key", wireGuardPublic), ("wireguard-key-id", binding.wireGuardKeyID),
    ("revocation-epoch", binding.revocationEpoch),
    ("wg0.conf", "[Interface]\nPrivateKey = " ++ wireGuardPrivate ++ "\n" ++
      binding.wireGuardPeerState)]

def identityKeys : List String :=
  ["ca.crt", "plan-public-key", "tls.crt", "tls.key", "wg0.conf", "wireguard-private-key",
    "wireguard-public-key"]

def optionalKeys : List String := ["wg0.conf", "wireguard-private-key", "wireguard-public-key"]

/-- One pass of the loop of `readCurrentIdentity` over a mounted identity, a file for a key. -/
def readKey (mounted data : StringMap) (key : String) : Except String StringMap :=
  match mounted.get? key with
  | some value => .ok (data.insert key value)
  | none =>
    if key ∈ optionalKeys then .ok data
    else .error ("open " ++ key ++ ": no such file or directory")

def readCurrentIdentity (mounted : StringMap) : Except String StringMap :=
  identityKeys.foldlM (readKey mounted) ∅

/-- A certificate with its private key and the bundle of its authority. -/
structure Renewal where
  certificatePem : String
  keyPEM : String
  caBundlePem : String

/-- What `Install` stores. -/
def Renewal.over (renewal : Renewal) (data : StringMap) : StringMap :=
  ((data.insert "tls.crt" renewal.certificatePem).insert "tls.key" renewal.keyPEM).insert
    "ca.crt" renewal.caBundlePem

/-- The identity after a rotation of the one that is mounted. -/
def rotated (mounted : StringMap) (renewal : Renewal) : Except String StringMap :=
  (readCurrentIdentity mounted).map renewal.over

def renewedKeys : List String := ["tls.crt", "tls.key", "ca.crt"]

/-- Nothing but the certificate, its key and its authority has changed. -/
def Survives (old new : StringMap) : Prop :=
  new.keys = old.keys ∧ ∀ key, key ∉ renewedKeys → new.get? key = old.get? key

theorem readKey_foldlM {mounted : StringMap} (keys : List String) (data : StringMap)
    (h : ∀ key ∈ keys, (mounted.get? key).isSome) :
    ∃ read, keys.foldlM (readKey mounted) data = .ok read ∧
      ∀ key, read.get? key = if key ∈ keys then mounted.get? key else data.get? key := by
  induction keys generalizing data with
  | nil => exact ⟨data, rfl, fun _ => rfl⟩
  | cons first rest ih =>
    obtain ⟨value, hvalue⟩ := Option.isSome_iff_exists.mp (h first mem_cons_self)
    obtain ⟨read, hread, hget⟩ :=
      ih (data.insert first value) fun key hkey => h key (mem_cons_of_mem _ hkey)
    refine ⟨read, ?_, fun key => ?_⟩
    · rw [foldlM_cons, readKey, hvalue]
      exact hread
    · rw [hget, SortedMap.get?_insert]
      grind

/-- A rotation stores the keys that it reads and no others. -/
theorem rotated_spec {mounted : StringMap} (renewal : Renewal)
    (h : ∀ key ∈ identityKeys, (mounted.get? key).isSome) :
    ∃ data, rotated mounted renewal = .ok data ∧ (∀ key ∈ identityKeys, (data.get? key).isSome) ∧
      ∀ key, key ∉ renewedKeys →
        data.get? key = if key ∈ identityKeys then mounted.get? key else none := by
  obtain ⟨read, hread, hget⟩ := readKey_foldlM identityKeys ∅ h
  have hover (key : String) : (renewal.over read).get? key =
      if "ca.crt" = key then some renewal.caBundlePem
      else if "tls.key" = key then some renewal.keyPEM
      else if "tls.crt" = key then some renewal.certificatePem
      else if key ∈ identityKeys then mounted.get? key else none := by
    simp only [Renewal.over, SortedMap.get?_insert, hget, SortedMap.get?_empty]
  refine ⟨renewal.over read, by rw [rotated, readCurrentIdentity, hread]; rfl, ?_, ?_⟩
  · intro key hkey
    grind
  · intro key hkey
    grind [renewedKeys]

/-- The keys that a rotation reads come through any number of them; no other key comes through
the first. -/
theorem rotations_spec {mounted : StringMap} (rotations : List Renewal)
    (h : ∀ key ∈ identityKeys, (mounted.get? key).isSome) :
    ∃ data, rotations.foldlM rotated mounted = .ok data ∧ ∀ key, key ∉ renewedKeys →
        data.get? key = if key ∈ identityKeys ∨ rotations = [] then mounted.get? key else none := by
  induction rotations generalizing mounted with
  | nil => exact ⟨mounted, rfl, by simp⟩
  | cons renewal rest ih =>
    obtain ⟨next, hnext, hall, hkept⟩ := rotated_spec renewal h
    obtain ⟨data, hdata, hrest⟩ := ih hall
    refine ⟨data, ?_, fun key hkey => ?_⟩
    · rw [foldlM_cons, hnext]
      exact hdata
    · grind

section Bootstrap

variable (binding : BindResponse) (tlsKey wireGuardPrivate wireGuardPublic : String)

theorem bootstrapIdentity_isSome (key : String) (hkey : key ∈ "revocation-epoch" :: identityKeys) :
    ((bootstrapIdentity binding tlsKey wireGuardPrivate wireGuardPublic).get? key).isSome := by
  simp only [identityKeys, mem_cons, not_mem_nil, or_false] at hkey
  simp only [bootstrapIdentity, SortedMap.ofList, foldl_cons, foldl_nil, SortedMap.get?_insert]
  grind

/-- The identity that the bootstrap created survives until its first rotation. -/
theorem survives_iff (rotations : List Renewal) : ∃ data, rotations.foldlM rotated
        (bootstrapIdentity binding tlsKey wireGuardPrivate wireGuardPublic) = .ok data ∧
      (Survives (bootstrapIdentity binding tlsKey wireGuardPrivate wireGuardPublic) data ↔
        rotations = []) := by
  have hpresent := bootstrapIdentity_isSome binding tlsKey wireGuardPrivate wireGuardPublic
  obtain ⟨data, hdata, hkept⟩ := rotations_spec rotations
    fun key hkey => hpresent key (mem_cons_of_mem _ hkey)
  refine ⟨data, hdata, fun h => ?_, ?_⟩
  · by_contra hne
    have hlost := hkept "revocation-epoch" (by decide)
    rw [if_neg (by simp [identityKeys, hne]), h.2 _ (by decide)] at hlost
    have := hpresent "revocation-epoch" mem_cons_self
    rw [hlost] at this
    cases this
  · rintro rfl
    cases hdata
    exact ⟨rfl, fun _ _ => rfl⟩

end Bootstrap

theorem revocationEpoch_lost :
    let identity := bootstrapIdentity ⟨"certificate", "ca", "plan-key", "plan-key-1", "wireguard-1",
      "4", "[Peer]"⟩ "key" "private" "public"
    ∃ data, rotated identity ⟨"renewed", "renewed-key", "ca"⟩ = .ok data ∧
      identity.get? "revocation-epoch" = some "4" ∧ data.get? "revocation-epoch" = none ∧
      ¬ Survives identity data := by
  refine ⟨_, rfl, by decide, by decide, fun h => ?_⟩
  have := h.2 "revocation-epoch" (by decide)
  revert this
  decide

end Mspsql.Identity
