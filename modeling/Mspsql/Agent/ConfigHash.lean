import Mspsql.Lib.Lists
import Mspsql.Lib.SortedMap
import Mathlib.Order.Fin.Basic

/-!
# What the agent hashes

The Pod templates carry a hash of the mounted configuration and one of the certificates, so that
a change of either rolls the workload.  The configuration is hashed with the length of each
value in front of it, and the bytes that are hashed determine it (`configHash_separates`).  The
three fields of a certificate Secret are hashed one after the other, and the bytes do not say
where one ends (`certificateInput_determines_iff`).
-/

namespace Mspsql

open List

/-- The bytes of a Go string. -/
abbrev Bytes := List (Fin 256)

/-! ## Values -/

/-- `strconv.Itoa` of a length. -/
def itoa (n : Nat) : Bytes := (Nat.toDigits 10 n).map fun c => Fin.ofNat 256 c.toNat

/-- What `hashValues` writes. -/
def hashInput (values : List Bytes) : Bytes :=
  values.flatMap fun value => itoa value.length ++ 0 :: value

/-- `hashValues`; `sum` is the SHA-256 sum in hexadecimal. -/
def hashValues (sum : Bytes → Bytes) (values : List Bytes) : Bytes := sum (hashInput values)

theorem toNat_of_mem_toDigits {n : Nat} {c : Char} (h : c ∈ Nat.toDigits 10 n) :
    48 ≤ c.toNat ∧ c.toNat ≤ 57 := by
  have hdigit := Nat.isDigit_of_mem_toDigits (by decide) (by decide) h
  simpa [Char.isDigit, UInt32.le_iff_toNat_le] using hdigit

theorem zero_notMem_itoa (n : Nat) : 0 ∉ itoa n := by
  intro h
  obtain ⟨c, hc, hzero⟩ := mem_map.mp h
  have hdigit := toNat_of_mem_toDigits hc
  have hmod : c.toNat % 256 = 0 := congrArg Fin.val hzero
  omega

theorem itoa_injective : Function.Injective itoa := by
  have hback : ∀ n, (itoa n).map (fun b => Char.ofNat b.val) = Nat.toDigits 10 n := by
    intro n
    rw [itoa, map_map]
    refine (map_congr_left fun c hc => ?_).trans (map_id _)
    have hdigit := toNat_of_mem_toDigits hc
    show Char.ofNat (c.toNat % 256) = c
    rw [Nat.mod_eq_of_lt (by omega), Char.ofNat_toNat]
  intro m n h
  rw [← @Nat.ofDigitChars_toDigits 10 m (by decide) (by decide), ← hback m, h, hback n,
    Nat.ofDigitChars_toDigits (by decide) (by decide)]

/-- A length with a zero byte after it is read back from any rest. -/
theorem itoa_append_inj {m n : Nat} {rest rest' : Bytes}
    (h : itoa m ++ 0 :: rest = itoa n ++ 0 :: rest') : m = n ∧ rest = rest' := by
  have hcut : ∀ k (tail : Bytes), (itoa k ++ 0 :: tail).takeWhile (· ≠ 0) = itoa k := by
    intro k tail
    have hdigits : ∀ b ∈ itoa k, decide (b ≠ 0) = true := by
      intro b hb
      exact decide_eq_true fun hzero => zero_notMem_itoa k (hzero ▸ hb)
    rw [takeWhile_append_of_pos hdigits]
    simp
  have hsame : itoa m = itoa n := by rw [← hcut m rest, h, hcut]
  rw [hsame, append_cancel_left_eq, List.cons.injEq] at h
  exact ⟨itoa_injective hsame, h.2⟩

theorem hashInput_cons (value : Bytes) (rest : List Bytes) :
    hashInput (value :: rest) = itoa value.length ++ 0 :: (value ++ hashInput rest) := by
  simp [hashInput]

theorem hashInput_injective : Function.Injective hashInput := by
  intro values
  induction values with
  | nil =>
    rintro (_ | ⟨value, rest⟩) h
    · rfl
    · simp [hashInput] at h
  | cons value rest ih =>
    rintro (_ | ⟨value', rest'⟩) h
    · simp [hashInput] at h
    · rw [hashInput_cons, hashInput_cons] at h
      obtain ⟨hlength, hrest⟩ := itoa_append_inj h
      obtain ⟨rfl, htail⟩ := append_inj hrest hlength
      rw [ih htail]

/-! ## ConfigMaps -/

/-- The data of a ConfigMap. -/
abbrev ConfigData := SortedMap Bytes Bytes

/-- The values that `configMapDataHash` hashes: each key, in order, and its value. -/
def configMapValues (data : ConfigData) : List Bytes := data.entries.flatMap fun e => [e.1, e.2]

def configMapDataHash (sum : Bytes → Bytes) (data : ConfigData) : Bytes :=
  hashValues sum (configMapValues data)

/-- The mounted ConfigMaps, in the order in which they are hashed. -/
def mounted (patroni : ConfigData) (backup tde restore : Option ConfigData) : List ConfigData :=
  patroni :: (backup.toList ++ tde.toList ++ restore.toList)

/-- `postgresConfigHash`. -/
def postgresConfigHash (sum : Bytes → Bytes) (patroni : ConfigData)
    (backup tde restore : Option ConfigData) : Bytes :=
  hashValues sum ((mounted patroni backup tde restore).map (configMapDataHash sum))

theorem configMapValues_injective : Function.Injective configMapValues := by
  have hpairs : ∀ l l' : List (Bytes × Bytes),
      l.flatMap (fun e => [e.1, e.2]) = l'.flatMap (fun e => [e.1, e.2]) → l = l' := by
    intro l
    induction l with
    | nil => rintro (_ | ⟨e, rest⟩) h <;> simp_all
    | cons e rest ih =>
      rintro (_ | ⟨e', rest'⟩) h
      · cases h
      · simp only [flatMap_cons, cons_append, List.cons.injEq] at h
        rw [Prod.ext h.1 h.2.1, ih rest' h.2.2]
  rintro ⟨entries, _⟩ ⟨entries', _⟩ h
  obtain rfl := hpairs entries entries' h
  rfl

/-- What is given to the hash function for a set of ConfigMaps. -/
def hashedInputs (sum : Bytes → Bytes) (maps : List ConfigData) : List Bytes :=
  hashInput (maps.map (configMapDataHash sum)) :: maps.map fun data =>
    hashInput (configMapValues data)

/-- What is hashed determines the values and the data, and equal hashes of two sets of mounted
ConfigMaps are a collision between what is hashed for the one and for the other. -/
theorem configHash_separates (sum : Bytes → Bytes) : Function.Injective hashInput ∧
    Function.Injective (fun data => hashInput (configMapValues data)) ∧
    ∀ (patroni patroni' : ConfigData) (backup backup' tde tde' restore restore' :
        Option ConfigData),
      postgresConfigHash sum patroni backup tde restore =
        postgresConfigHash sum patroni' backup' tde' restore' →
      mounted patroni backup tde restore = mounted patroni' backup' tde' restore' ∨
        ∃ x ∈ hashedInputs sum (mounted patroni backup tde restore),
          ∃ y ∈ hashedInputs sum (mounted patroni' backup' tde' restore'),
            x ≠ y ∧ sum x = sum y := by
  have hvalues := hashInput_injective.comp configMapValues_injective
  refine ⟨hashInput_injective, hvalues, ?_⟩
  intro patroni patroni' backup backup' tde tde' restore restore' h
  by_cases hsame : mounted patroni backup tde restore = mounted patroni' backup' tde' restore'
  · exact .inl hsame
  right
  by_cases houter : hashInput ((mounted patroni backup tde restore).map (configMapDataHash sum)) =
      hashInput ((mounted patroni' backup' tde' restore').map (configMapDataHash sum))
  · -- the hashes of the single ConfigMaps agree, so two different ones have the same hash
    obtain ⟨a, ha, b, hb, hne, heq⟩ := Lists.exists_ne_of_map_eq (hashInput_injective houter) hsame
    exact ⟨_, mem_cons_of_mem _ (mem_map_of_mem ha), _,
      mem_cons_of_mem _ (mem_map_of_mem hb), hvalues.ne hne, heq⟩
  · exact ⟨_, mem_cons_self, _, mem_cons_self, houter, h⟩

/-! ## Certificates -/

/-- The data of a Secret. -/
abbrev SecretData := SortedMap String Bytes

def certificateKeys : List String := ["ca.crt", "tls.crt", "tls.key"]

/-- The three fields; one that is missing is empty. -/
def certificateFields (data : SecretData) : List Bytes :=
  certificateKeys.map fun key => (data.get? key).getD []

/-- What `certificateHashes` writes for a Secret. -/
def certificateInput (data : SecretData) : Bytes := (certificateFields data).flatten

/-- `certificateHashes`, for the output Secrets of the certificates. -/
def certificateHashes (sum : Bytes → Bytes) (secret? : String → Option SecretData)
    (secretNames : List String) : Option (SortedMap String Bytes) :=
  secretNames.foldlM (fun versions name =>
    if name = "" then none
    else (secret? name).map fun data => versions.insert name (sum (certificateInput data))) ∅

theorem certificateInput_single {key : String} (hkey : key ∈ certificateKeys) (bytes : Bytes) :
    certificateInput (SortedMap.insert ∅ key bytes) = bytes := by
  simp only [certificateKeys, mem_cons, not_mem_nil, or_false] at hkey
  rcases hkey with rfl | rfl | rfl <;>
    simp [certificateInput, certificateFields, certificateKeys, SortedMap.get?_insert]

/-- The bytes determine the three fields of a Secret only when they are empty; among Secrets whose
fields have the same lengths they do. -/
theorem certificateInput_determines_iff (data : SecretData) :
    ((∀ data', certificateInput data' = certificateInput data →
        certificateFields data' = certificateFields data) ↔
      ∀ field ∈ certificateFields data, field = []) ∧
    ∀ data', (certificateFields data').map List.length = (certificateFields data).map List.length →
      certificateInput data' = certificateInput data →
        certificateFields data' = certificateFields data := by
  refine ⟨⟨fun h => ?_, fun h data' hsame => ?_⟩, fun data' hlengths hsame => ?_⟩
  · -- all bytes in the first field, and all in the last
    have hfirst := h (SortedMap.insert ∅ "ca.crt" (certificateInput data))
      (certificateInput_single (by decide) _)
    have hlast := h (SortedMap.insert ∅ "tls.key" (certificateInput data))
      (certificateInput_single (by decide) _)
    have hempty : certificateInput data = [] := by
      have := hfirst.trans hlast.symm
      simpa [certificateFields, certificateKeys, SortedMap.get?_insert] using this
    exact flatten_eq_nil_iff.mp hempty
  · have hempty : certificateInput data' = [] :=
      hsame.trans (flatten_eq_nil_iff.mpr h)
    have hfields := flatten_eq_nil_iff.mp hempty
    refine map_congr_left fun key hkey => ?_
    rw [hfields _ (mem_map.mpr ⟨key, hkey, rfl⟩), h _ (mem_map.mpr ⟨key, hkey, rfl⟩)]
  · exact eq_iff_flatten_eq.mpr ⟨hsame, hlengths⟩

/-- A Secret whose bundle holds a second block, and one in which the block has moved to the
certificate. -/
theorem movedBlock_same_hash : ∃ before after : SecretData,
    certificateFields before ≠ certificateFields after ∧ ∀ sum,
      certificateHashes sum (fun _ => some before) ["postgres-a-0-tls"] =
        certificateHashes sum (fun _ => some after) ["postgres-a-0-tls"] := by
  refine ⟨.ofList [("ca.crt", [65, 66]), ("tls.crt", [67])],
    .ofList [("ca.crt", [65]), ("tls.crt", [66, 67])], by decide, fun sum => ?_⟩
  rfl

end Mspsql
