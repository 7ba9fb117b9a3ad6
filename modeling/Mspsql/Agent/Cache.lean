import Mspsql.Wire.Envelope
import Mspsql.Lib.Machine
import Mspsql.Api

/-!
# The agent's plan cache

The agent keeps the last accepted plan of every instance in a ConfigMap of its namespace.
`Cache.Store` accepts an envelope in two stages: the signature, the identity and the revision
are checked against the plan that is cached, and what would be written is compared with what
is there.  Neither stage alone keeps a cached revision from changing; `store_cases` says what
the two do together.
-/

namespace Mspsql

open Wire

/-- A ConfigMap of the agent's namespace. -/
structure AgentConfigMap where
  labels : StringMap
  data : SortedMap String GoString

/-- The ConfigMaps of the agent's namespace by name. -/
abbrev AgentNamespace := SortedMap String AgentConfigMap

def AgentConfigMap.value (m : AgentConfigMap) (key : String) : GoString := (m.data.get? key).getD []

structure ApiCalls where
  load : Bool := true
  get : Bool := true
  write : Bool := true

inductive CacheError where
  | notFound
  | api
  | decode
  | verify (reason : VerifyError)
  | encode
  | changed (revision : Int)

structure PlanCache (E : Ed25519) where
  publicKey : E.PublicKey
  siteUID : String

def cacheChar (c : Char) : Char := if c.toLower = '_' then '-' else c.toLower

def cacheName (instanceUID : String) : String :=
  "multisite-postgres-plan-" ++ String.ofList ((instanceUID.toList.map cacheChar).take 40)

def managedByLabel : String := "app.kubernetes.io/managed-by"

def instanceUIDLabel : String := "multisite-postgres.dev/instance-uid"

namespace PlanCache

variable {E : Ed25519} {P : Printers TextKind}

def read (c : PlanCache E) (m : AgentConfigMap) (instanceUID : String) :
    Except CacheError (PlanDocument P) :=
  match (m.value "site-plan.json").chars?.bind Json.parse with
  | none => .error .decode
  | some (text, _) =>
    match PlanDocument.verify E c.publicKey { plan := some text, signature := m.value "signature" }
        (.ofString c.siteUID) (.ofString instanceUID) 1 with
    | .ok desired => .ok desired
    | .error reason => .error (.verify reason)

/-- `Cache.Load`. -/
def load (c : PlanCache E) (ns : AgentNamespace) (instanceUID : String) :
    Except CacheError (PlanDocument P) :=
  match ns.get? (cacheName instanceUID) with
  | none => .error .notFound
  | some m => c.read m instanceUID

def minimumRevision : Except CacheError (PlanDocument P) → Except CacheError Int
  | .ok current => .ok current.revision.1
  | .error .notFound => .ok 1
  | .error reason => .error reason

def planData (revision : Int) (planJSON : List Char) (signature receivedAt : GoString) :
    SortedMap String GoString :=
  .ofList [("revision", .ofChars (Json.intText revision)), ("site-plan.json", .ofChars planJSON),
    ("signature", signature), ("received-at", receivedAt)]

def planLabels (instanceUID : String) : StringMap :=
  .ofList [(managedByLabel, "mspsql-agent"), (instanceUIDLabel, instanceUID)]

/-- The second half of `Cache.Store`: what is there decides. -/
def put (calls : ApiCalls) (ns : AgentNamespace) (instanceUID : String) (revision : Int)
    (data : SortedMap String GoString) : Except CacheError Unit × AgentNamespace :=
  if calls.get = false then (.error .api, ns)
  else
    match ns.get? (cacheName instanceUID) with
    | none =>
      if calls.write then
        (.ok (), ns.insert (cacheName instanceUID) { labels := planLabels instanceUID, data })
      else (.error .api, ns)
    | some m =>
      let stored : AgentConfigMap := { m with data }
      if m.value "revision" = stored.value "revision" ∧
          m.value "site-plan.json" = stored.value "site-plan.json" ∧
          m.value "signature" = stored.value "signature" then (.ok (), ns)
      else if m.value "revision" = stored.value "revision" then (.error (.changed revision), ns)
      else if calls.write then (.ok (), ns.insert (cacheName instanceUID) stored)
      else (.error .api, ns)

/-- `Cache.Store`. -/
def store (c : PlanCache E) (now : GoString) (calls : ApiCalls) (ns : AgentNamespace)
    (e : Envelope) (instanceUID : String) : Except CacheError (PlanDocument P) × AgentNamespace :=
  match minimumRevision (P := P) (if calls.load then c.load ns instanceUID else .error .api) with
  | .error reason => (.error reason, ns)
  | .ok least =>
    match PlanDocument.verify E c.publicKey e (.ofString c.siteUID) (.ofString instanceUID)
        least with
    | .error reason => (.error (.verify reason), ns)
    | .ok desired =>
      match (GoType.raw : GoType TextKind).marshal (P := P) e.plan with
      | none => (.error .encode, ns)
      | some v =>
        match put calls ns instanceUID desired.revision.1
            (planData desired.revision.1 v.print e.signature now) with
        | (.ok (), ns) => (.ok desired, ns)
        | (.error reason, ns) => (.error reason, ns)

/-! ## What a store does -/

section

variable {calls : ApiCalls} {ns ns' : AgentNamespace} {instanceUID : String} {revision : Int}
  {data : SortedMap String GoString} {reason : CacheError}

inductive Put (ns : AgentNamespace) (instanceUID : String) (data : SortedMap String GoString) :
    AgentNamespace → Prop where
  | created (habsent : ns.get? (cacheName instanceUID) = none) : Put ns instanceUID data
      (ns.insert (cacheName instanceUID) { labels := planLabels instanceUID, data })
  | kept {m : AgentConfigMap} (hfound : ns.get? (cacheName instanceUID) = some m)
      (hplan : m.value "site-plan.json" = AgentConfigMap.value { m with data } "site-plan.json")
      (hsignature : m.value "signature" = AgentConfigMap.value { m with data } "signature") :
      Put ns instanceUID data ns
  | replaced {m : AgentConfigMap} (hfound : ns.get? (cacheName instanceUID) = some m)
      (hrev : m.value "revision" ≠ AgentConfigMap.value { m with data } "revision") :
      Put ns instanceUID data (ns.insert (cacheName instanceUID) { m with data })

theorem put_ok (h : put calls ns instanceUID revision data = (.ok (), ns')) :
    Put ns instanceUID data ns' := by
  rw [put] at h
  split at h
  · cases h
  · split at h
    · rename_i habsent
      split at h
      · cases h
        exact .created habsent
      · cases h
    · rename_i hfound
      dsimp only at h
      split at h
      · rename_i hsame
        cases h
        exact .kept hfound hsame.2.1 hsame.2.2
      · split at h
        · cases h
        · rename_i hrev
          split at h
          · cases h
            exact .replaced hfound hrev
          · cases h

theorem put_absent (h : ns.get? (cacheName instanceUID) = none) :
    put {} ns instanceUID revision data =
      (.ok (), ns.insert (cacheName instanceUID) { labels := planLabels instanceUID, data }) := by
  rw [put, h]
  rfl

theorem put_newer {m : AgentConfigMap} (h : ns.get? (cacheName instanceUID) = some m)
    (hrev : m.value "revision" ≠ AgentConfigMap.value { m with data } "revision") :
    put {} ns instanceUID revision data =
      (.ok (), ns.insert (cacheName instanceUID) { m with data }) := by
  have hcall : ¬ ({} : ApiCalls).get = false := by decide
  rw [put, if_neg hcall, h]
  dsimp only
  rw [if_neg fun hsame => hrev hsame.1, if_neg hrev, if_pos rfl]

theorem put_same {m : AgentConfigMap} (h : ns.get? (cacheName instanceUID) = some m)
    (hrev : m.value "revision" = AgentConfigMap.value { m with data } "revision")
    (hplan : m.value "site-plan.json" = AgentConfigMap.value { m with data } "site-plan.json")
    (hsigned : m.value "signature" = AgentConfigMap.value { m with data } "signature") :
    put {} ns instanceUID revision data = (.ok (), ns) := by
  have hcall : ¬ ({} : ApiCalls).get = false := by decide
  rw [put, if_neg hcall, h]
  exact if_pos ⟨hrev, hplan, hsigned⟩

theorem put_error (h : put calls ns instanceUID revision data = (.error reason, ns')) :
    ns' = ns := by
  rw [put] at h
  split at h
  · cases h
    rfl
  · split at h
    · split at h
      · cases h
      · cases h
        rfl
    · dsimp only at h
      split at h
      · cases h
      · split at h
        · cases h
          rfl
        · split at h
          · cases h
          · cases h
            rfl

end

section

variable {c : PlanCache E} {now : GoString} {calls : ApiCalls} {ns ns' : AgentNamespace}
  {e : Envelope} {instanceUID : String} {desired : PlanDocument P} {reason : CacheError}

theorem store_error
    (h : c.store (P := P) now calls ns e instanceUID = (.error reason, ns')) : ns' = ns := by
  rw [store] at h
  split at h
  · cases h
    rfl
  · split at h
    · cases h
      rfl
    · split at h
      · cases h
        rfl
      · split at h
        · cases h
        · rename_i hput
          cases h
          exact put_error hput

theorem store_ok (h : c.store now calls ns e instanceUID = (.ok desired, ns')) :
    ∃ least v, minimumRevision (c.load (P := P) ns instanceUID) = .ok least ∧
      PlanDocument.Signed E c.publicKey e (.ofString c.siteUID) (.ofString instanceUID) desired ∧
      least ≤ desired.revision.1 ∧
      (GoType.raw : GoType TextKind).marshal (P := P) e.plan = some v ∧
      Put ns instanceUID (planData desired.revision.1 v.print e.signature now) ns' := by
  rw [store] at h
  split at h
  · cases h
  · rename_i least hleast
    split at h
    · cases h
    · rename_i hverify
      split at h
      · cases h
      · rename_i v hv
        split at h
        · rename_i hput
          cases h
          obtain ⟨hsigned, hrev⟩ := PlanDocument.verify_ok_iff.mp hverify
          refine ⟨least, v, ?_, hsigned, hrev, hv, put_ok hput⟩
          by_cases hload : calls.load = true
          · rwa [if_pos hload] at hleast
          · rw [if_neg hload] at hleast
            cases hleast
        · cases h

end

/-! ## Names -/

/-- The characters of a UID in Kubernetes' lower-case form. -/
def uidChars : List Char :=
  ['0', '1', '2', '3', '4', '5', '6', '7', '8', '9', 'a', 'b', 'c', 'd', 'e', 'f', '-']

/-- The form of the UIDs Kubernetes gives. -/
def LowerUID (uid : String) : Prop := uid.toList.length = 36 ∧ ∀ ch ∈ uid.toList, ch ∈ uidChars

instance (uid : String) : Decidable (LowerUID uid) :=
  @instDecidableAnd _ _ inferInstance (List.decidableBAll _ _)

theorem cacheChar_of_mem (ch : Char) (hch : ch ∈ uidChars) : cacheChar ch = ch := by
  have hall : uidChars.all (fun ch => cacheChar ch = ch) = true := by decide +kernel
  simpa using List.all_eq_true.mp hall ch hch

theorem cacheName_of_lowerUID {uid : String} (h : LowerUID uid) :
    cacheName uid = "multisite-postgres-plan-" ++ uid := by
  have hmap : uid.toList.map cacheChar = uid.toList :=
    (List.map_congr_left fun ch hch => cacheChar_of_mem ch (h.2 ch hch)).trans (List.map_id _)
  have htake : uid.toList.take 40 = uid.toList := List.take_of_length_le (by
    rw [h.1]
    decide)
  show "multisite-postgres-plan-" ++ String.ofList ((uid.toList.map cacheChar).take 40) = _
  rw [hmap, htake, String.ofList_toList]

theorem cacheName_inj {a b : String} (ha : LowerUID a) (hb : LowerUID b)
    (h : cacheName a = cacheName b) : a = b := by
  rw [cacheName_of_lowerUID ha, cacheName_of_lowerUID hb] at h
  exact (Text.append_inj h rfl).2

/-! ## Safety -/

/-- A ConfigMap that holds a plan signed for this site and for the instance, and says which
revision it is. -/
structure Vouches (c : PlanCache E) (m : AgentConfigMap) (instanceUID : String)
    (p : PlanDocument P) : Prop where
  signed : ∃ text, m.value "site-plan.json" = .ofChars text ∧
    (∃ v, Json.parse text = some (text, v)) ∧
    PlanDocument.Signed E c.publicKey { plan := some text, signature := m.value "signature" }
      (.ofString c.siteUID) (.ofString instanceUID) p
  positive : 1 ≤ p.revision.1
  revision : m.value "revision" = .ofChars (Json.intText p.revision.1)

/-- Every cached plan is signed for this site and the instance it is stored under. -/
def Vouched (P : Printers TextKind) (c : PlanCache E) (ns : AgentNamespace) : Prop :=
  ∀ uid, LowerUID uid → ∀ m, ns.get? (cacheName uid) = some m →
    ∃ p : PlanDocument P, Vouches c m uid p

section

variable {c : PlanCache E} {m : AgentConfigMap} {uid : String} {p : PlanDocument P}
  {ns ns' : AgentNamespace} {e : Envelope} {desired : PlanDocument P}

theorem Vouches.read (h : Vouches c m uid p) : c.read m uid = .ok p := by
  obtain ⟨text, htext, ⟨v, hparse⟩, hsigned⟩ := h.signed
  rw [PlanCache.read, htext, GoString.chars?_ofChars, Option.bind_some, hparse]
  dsimp only
  rw [PlanDocument.verify_ok_iff.mpr ⟨hsigned, h.positive⟩]

theorem Vouches.load (h : Vouches c m uid p) (hfound : ns.get? (cacheName uid) = some m) :
    c.load ns uid = .ok p := by
  rw [PlanCache.load, hfound]
  exact h.read

/-- The same text is read as the same plan. -/
theorem Vouches.eq_of_text {text : List Char} (h : Vouches c m uid p)
    (hsigned : PlanDocument.Signed E c.publicKey e (.ofString c.siteUID) (.ofString uid) desired)
    (hplan : e.plan = some text) (hsame : m.value "site-plan.json" = .ofChars text) :
    p = desired := by
  obtain ⟨old, hold, -, hread⟩ := h.signed
  obtain rfl := GoString.ofChars_injective (hold.symm.trans hsame)
  have hdocument := hsigned.document
  rw [hplan] at hdocument
  exact congrArg PlanDocument.ofVal (Option.some.inj (hread.document.symm.trans hdocument))

theorem value_planData (labels : StringMap) (revision : Int) (planJSON : List Char)
    (signature receivedAt : GoString) :
    AgentConfigMap.value ⟨labels, planData revision planJSON signature receivedAt⟩ "revision" =
        .ofChars (Json.intText revision) ∧
      AgentConfigMap.value ⟨labels, planData revision planJSON signature receivedAt⟩
        "site-plan.json" = .ofChars planJSON ∧
      AgentConfigMap.value ⟨labels, planData revision planJSON signature receivedAt⟩
        "signature" = signature := by
  simp [AgentConfigMap.value, planData, SortedMap.ofList, SortedMap.get?_insert]

/-- An envelope that verifies only if the hub has signed what it carries. -/
def Genuine (P : Printers TextKind) (c : PlanCache E) (e : Envelope) : Prop :=
  ∀ s, E.decode e.signature = some s → E.verify c.publicKey (e.plan.getD []) s = true →
    Issued P (e.plan.getD [])

theorem vouches_planData (hgenuine : Genuine P c e)
    (hsigned : PlanDocument.Signed E c.publicKey e (.ofString c.siteUID) (.ofString uid) desired)
    (hpositive : 1 ≤ desired.revision.1) {v : Json}
    (hv : (GoType.raw : GoType TextKind).marshal (P := P) e.plan = some v)
    (labels : StringMap) (now : GoString) :
    e.plan = some v.print ∧
      Vouches c ⟨labels, planData desired.revision.1 v.print e.signature now⟩ uid desired := by
  obtain ⟨s, hs, hverify⟩ := hsigned.signature
  obtain ⟨w, htidy, htext⟩ := (hgenuine s hs hverify).printed
  have hplan : e.plan = some w.print := by
    cases hp : e.plan with
    | none =>
      have hdocument := hsigned.document
      rw [hp] at hdocument
      cases hdocument
    | some text =>
      rw [hp] at htext
      exact congrArg some htext
  have hparse := Json.parse_print htidy
  have hvw : v = w := by
    rw [hplan] at hv
    have hraw : (Json.parse w.print).map (fun r => r.2.tidy) = some v := hv
    rw [hparse, Option.map_some, htidy] at hraw
    exact (Option.some.inj hraw).symm
  rw [hvw]
  obtain ⟨hrev, hjson, hsignature⟩ :=
    value_planData labels desired.revision.1 w.print e.signature now
  refine ⟨hplan, ⟨w.print, hjson, ⟨w, hparse⟩, ?_⟩, hpositive, hrev⟩
  rw [hsignature, ← hplan]
  exact hsigned

theorem Put.others {instanceUID : String} {data : SortedMap String GoString}
    (h : Put ns instanceUID data ns') (hinstance : LowerUID instanceUID) (huid : LowerUID uid)
    (hne : uid ≠ instanceUID) : ns'.get? (cacheName uid) = ns.get? (cacheName uid) := by
  have hname : cacheName instanceUID ≠ cacheName uid := fun heq =>
    hne (cacheName_inj huid hinstance heq.symm)
  cases h with
  | created | replaced => exact SortedMap.get?_insert_of_ne _ _ hname
  | kept => rfl

/-- What is cached for an instance after one of its plans was accepted: that plan, which is
what was cached before or a newer one. -/
theorem accepted (hvouched : Vouched P c ns) (huid : LowerUID uid) (hgenuine : Genuine P c e)
    {now : GoString} {calls : ApiCalls}
    (h : c.store now calls ns e uid = (.ok desired, ns')) :
    (∃ m, ns'.get? (cacheName uid) = some m ∧ Vouches c m uid desired) ∧
      ∀ p : PlanDocument P, c.load ns uid = .ok p → p.revision.1 ≤ desired.revision.1 ∧
        (desired.revision.1 = p.revision.1 → ns' = ns ∧ ∃ m, ns.get? (cacheName uid) = some m ∧
          e.plan.map GoString.ofChars = some (m.value "site-plan.json") ∧
          e.signature = m.value "signature") := by
  obtain ⟨least, v, hleast, hsigned, hrev, hv, hput⟩ := store_ok h
  -- what is cached bounds the revision from below
  have hcached : ∀ m, ns.get? (cacheName uid) = some m → ∀ p : PlanDocument P, Vouches c m uid p →
      p.revision.1 ≤ desired.revision.1 := by
    intro m hm p hp
    rw [hp.load hm] at hleast
    cases hleast
    exact hrev
  have hpositive : 1 ≤ desired.revision.1 := by
    cases hm : ns.get? (cacheName uid) with
    | none =>
      rw [load, hm] at hleast
      cases hleast
      exact hrev
    | some m =>
      obtain ⟨p, hp⟩ := hvouched uid huid m hm
      exact le_trans hp.positive (hcached m hm p hp)
  have hstored := fun labels => vouches_planData hgenuine hsigned hpositive hv labels now
  have hplan := (hstored ∅).1
  cases hput with
  | created habsent =>
    refine ⟨⟨_, SortedMap.get?_insert_self _ _ _, (hstored _).2⟩, fun p hp => ?_⟩
    rw [load, habsent] at hp
    cases hp
  | @kept m hfound hsamePlan hsameSignature =>
    obtain ⟨-, hjson, hsignature⟩ :=
      value_planData m.labels desired.revision.1 v.print e.signature now
    rw [hjson] at hsamePlan
    rw [hsignature] at hsameSignature
    obtain ⟨p₀, hp₀⟩ := hvouched uid huid m hfound
    obtain rfl := hp₀.eq_of_text hsigned hplan hsamePlan
    refine ⟨⟨m, hfound, hp₀⟩, fun p hp => ?_⟩
    rw [hp₀.load hfound] at hp
    cases hp
    exact ⟨le_refl _, fun _ => ⟨rfl, m, hfound, by rw [hplan, Option.map_some, hsamePlan],
      hsameSignature.symm⟩⟩
  | @replaced m hfound hchanged =>
    obtain ⟨p₀, hp₀⟩ := hvouched uid huid m hfound
    refine ⟨⟨_, SortedMap.get?_insert_self _ _ _, (hstored m.labels).2⟩, fun p hp => ?_⟩
    rw [hp₀.load hfound] at hp
    cases hp
    refine ⟨hcached m hfound p₀ hp₀, fun heq => absurd ?_ hchanged⟩
    rw [hp₀.revision, (value_planData m.labels _ _ _ _).1, heq]

end

/-- For the instance nothing is cached, or an older plan, or what is in the envelope, which is then
delivered again. -/
def Awaits (P : Printers TextKind) (c : PlanCache E) (ns : AgentNamespace) (instanceUID : String)
    (e : Envelope) (revision : Int) : Prop :=
  ∀ m, ns.get? (cacheName instanceUID) = some m → ∃ q : PlanDocument P, Vouches c m instanceUID q ∧
    (q.revision.1 < revision ∨ e.plan.map .ofChars = some (m.value "site-plan.json") ∧
      e.signature = m.value "signature")

section

variable {c : PlanCache E} {ns ns' : AgentNamespace} {uid : String} {e : Envelope}
  {desired : PlanDocument P} {v : Json} {now : GoString}

theorem store_of_put {least : Int} (hleast : minimumRevision (c.load (P := P) ns uid) = .ok least)
    (hsigned : PlanDocument.Signed E c.publicKey e (.ofString c.siteUID) (.ofString uid) desired)
    (hrev : least ≤ desired.revision.1)
    (hraw : (GoType.raw : GoType TextKind).marshal (P := P) e.plan = some v)
    (hput : put {} ns uid desired.revision.1
      (planData desired.revision.1 v.print e.signature now) = (.ok (), ns')) :
    c.store now {} ns e uid = (.ok desired, ns') := by
  rw [store, if_pos rfl, hleast]
  dsimp only
  rw [PlanDocument.verify_ok_iff.mpr ⟨hsigned, hrev⟩, hraw]
  dsimp only
  rw [hput]

/-- A plan that is awaited and whose signature is valid is accepted, if the API calls go
through. -/
theorem store_awaited (hv : v.tidy = v) (hplan : e.plan = some v.print)
    (hsigned : PlanDocument.Signed E c.publicKey e (.ofString c.siteUID) (.ofString uid) desired)
    (hpositive : 1 ≤ desired.revision.1)
    (hawaits : Awaits P c ns uid e desired.revision.1) (now : GoString) :
    ∃ ns', c.store now {} ns e uid = (.ok desired, ns') ∧ c.load ns' uid = .ok desired := by
  have hraw : (GoType.raw : GoType TextKind).marshal (P := P) e.plan = some v := by
    rw [hplan]
    show (Json.parse v.print).map (fun r => r.2.tidy) = some v
    rw [Json.parse_print hv, Option.map_some, hv]
  have hstored : ∀ labels, Vouches c
      ⟨labels, planData desired.revision.1 v.print e.signature now⟩ uid desired := by
    intro labels
    obtain ⟨hrev, hjson, hsignature⟩ :=
      value_planData labels desired.revision.1 v.print e.signature now
    refine ⟨⟨v.print, hjson, ⟨v, Json.parse_print hv⟩, ?_⟩, hpositive, hrev⟩
    rw [hsignature, ← hplan]
    exact hsigned
  cases hm : ns.get? (cacheName uid) with
  | none =>
    have hleast : minimumRevision (c.load (P := P) ns uid) = .ok 1 := by
      rw [load, hm]
      rfl
    exact ⟨_, store_of_put hleast hsigned hpositive hraw (put_absent hm),
      (hstored _).load (SortedMap.get?_insert_self _ _ _)⟩
  | some m =>
    obtain ⟨q, hq, hcase⟩ := hawaits m hm
    have hleast : minimumRevision (c.load (P := P) ns uid) = .ok q.revision.1 := by
      rw [hq.load hm]
      rfl
    rcases hcase with hlt | ⟨htext, hsignature⟩
    · have hnew : m.value "revision" ≠ AgentConfigMap.value
          ⟨m.labels, planData desired.revision.1 v.print e.signature now⟩ "revision" := by
        rw [hq.revision, (hstored m.labels).revision]
        exact fun heq =>
          absurd (Json.intText_injective (GoString.ofChars_injective heq)) (ne_of_lt hlt)
      exact ⟨_, store_of_put hleast hsigned hlt.le hraw (put_newer hm hnew),
        (hstored _).load (SortedMap.get?_insert_self _ _ _)⟩
    · -- the plan is cached already, and nothing is written
      rw [hplan, Option.map_some, Option.some.injEq] at htext
      obtain rfl := hq.eq_of_text hsigned hplan htext.symm
      obtain ⟨hrev, hjson, hsame⟩ :=
        value_planData m.labels q.revision.1 v.print e.signature now
      exact ⟨ns, store_of_put hleast hsigned le_rfl hraw (put_same hm
        (hq.revision.trans hrev.symm) (htext.symm.trans hjson.symm)
        (hsignature.symm.trans hsame.symm)), hq.load hm⟩

end

/-! ## Runs of the cache -/

structure StoreCall where
  now : GoString
  calls : ApiCalls
  envelope : Envelope
  instanceUID : String

def step (P : Printers TextKind) (c : PlanCache E) (ns : AgentNamespace) (call : StoreCall) :
    Option AgentNamespace :=
  some (c.store (P := P) call.now call.calls ns call.envelope call.instanceUID).2

/-- Nothing is cached yet. -/
def Fresh (ns : AgentNamespace) : Prop :=
  ∀ uid, LowerUID uid → ns.get? (cacheName uid) = none

/-- Any envelope, provided that signatures cannot be forged, for an instance UID of the form
Kubernetes gives. -/
def Offered (P : Printers TextKind) (c : PlanCache E) (_ : AgentNamespace) (call : StoreCall) :
    Prop :=
  LowerUID call.instanceUID ∧ Genuine P c call.envelope

section

variable {c : PlanCache E} {ns ns' : AgentNamespace} {call : StoreCall}
  {r : Except CacheError (PlanDocument P)}

theorem vouched_store (hvouched : Vouched P c ns) (hcall : Offered P c ns call)
    (h : c.store call.now call.calls ns call.envelope call.instanceUID = (r, ns')) :
    Vouched P c ns' := by
  cases r with
  | error reason => rwa [store_error h]
  | ok desired =>
    obtain ⟨⟨m, hm, hvouches⟩, -⟩ := accepted hvouched hcall.1 hcall.2 h
    obtain ⟨least, v, -, -, -, -, hput⟩ := store_ok h
    intro uid huid m' hm'
    by_cases heq : uid = call.instanceUID
    · subst heq
      rw [hm] at hm'
      cases hm'
      exact ⟨desired, hvouches⟩
    · rw [hput.others hcall.1 huid heq] at hm'
      exact hvouched uid huid m' hm'

theorem vouched_of_reach (h : Machine.Reach (step P c) Fresh (Offered P c) ns) :
    Vouched P c ns := by
  refine h.invariant (fun s hs uid huid m hm => ?_) (fun s call t hs hcall hst => ?_)
  · rw [hs uid huid] at hm
    cases hm
  · cases hst
    exact vouched_store hs hcall (Prod.mk.eta).symm

theorem revision_mono (hvouched : Vouched P c ns) (hcall : Offered P c ns call)
    (h : c.store call.now call.calls ns call.envelope call.instanceUID = (r, ns'))
    {uid : String} (huid : LowerUID uid) {p : PlanDocument P} (hp : c.load ns uid = .ok p) :
    ∃ p' : PlanDocument P, c.load ns' uid = .ok p' ∧ p.revision.1 ≤ p'.revision.1 := by
  cases r with
  | error reason =>
    rw [store_error h]
    exact ⟨p, hp, le_refl _⟩
  | ok desired =>
    obtain ⟨⟨m, hm, hvouches⟩, hbefore⟩ := accepted hvouched hcall.1 hcall.2 h
    obtain ⟨least, v, -, -, -, -, hput⟩ := store_ok h
    by_cases heq : uid = call.instanceUID
    · subst heq
      exact ⟨desired, hvouches.load hm, (hbefore p hp).1⟩
    · refine ⟨p, ?_, le_refl _⟩
      rw [load, hput.others hcall.1 huid heq]
      exact hp

end

/-- In every run of stores a cached plan carries a valid signature for this site and the
instance it is stored under, the cached revision never decreases, a cached revision is only
accepted again with the same bytes and signature, and a failed store changes nothing. -/
theorem safe_of_reach (c : PlanCache E) {ns : AgentNamespace}
    (h : Machine.Reach (step P c) Fresh (Offered P c) ns) :
    (∀ uid, LowerUID uid → ∀ m, ns.get? (cacheName uid) = some m →
      ∃ (text : List Char) (signature : E.Signature) (p : PlanDocument P),
        m.value "site-plan.json" = .ofChars text ∧ E.decode (m.value "signature") = some signature ∧
        E.verify c.publicKey text signature = true ∧ c.load ns uid = .ok p ∧
        p.siteUID = .ofString c.siteUID ∧ p.instanceUID = .ofString uid) ∧
    ∀ call, Offered P c ns call → ∀ r ns',
      c.store (P := P) call.now call.calls ns call.envelope call.instanceUID = (r, ns') →
      (∀ uid, LowerUID uid → ∀ p : PlanDocument P, c.load ns uid = .ok p →
        ∃ p' : PlanDocument P, c.load ns' uid = .ok p' ∧ p.revision.1 ≤ p'.revision.1) ∧
      (∀ p desired : PlanDocument P, c.load ns call.instanceUID = .ok p → r = .ok desired →
        desired.revision.1 = p.revision.1 → ns' = ns ∧
          ∃ m, ns.get? (cacheName call.instanceUID) = some m ∧
            call.envelope.plan.map GoString.ofChars = some (m.value "site-plan.json") ∧
            call.envelope.signature = m.value "signature") ∧
      ∀ reason, r = .error reason → ns' = ns := by
  have hvouched := vouched_of_reach h
  constructor
  · intro uid huid m hm
    obtain ⟨p, hp⟩ := hvouched uid huid m hm
    obtain ⟨text, htext, -, hsigned⟩ := hp.signed
    obtain ⟨signature, hdecode, hverify⟩ := hsigned.signature
    exact ⟨text, signature, p, htext, hdecode, hverify, hp.load hm, hsigned.site, hsigned.instance'⟩
  · intro call hcall r ns' hstore
    refine ⟨fun uid huid p hp => revision_mono hvouched hcall hstore huid hp, ?_, ?_⟩
    · rintro p desired hp rfl hrev
      exact ((accepted hvouched hcall.1 hcall.2 hstore).2 p hp).2 hrev
    · rintro reason rfl
      exact store_error hstore

def boundCache : PlanCache oneKey := { publicKey := (), siteUID := "site" }

def ledgerUID : String := "5f0c7a52-91de-4c1b-8a4e-2f60b1d3c7aa"

theorem cached_plan_safe :
    ∃ ns m, Machine.Reach (step plainPrinters boundCache) Fresh
        (Offered plainPrinters boundCache) ns ∧
      ns.get? (cacheName ledgerUID) = some m ∧
      ∃ p : PlanDocument plainPrinters, boundCache.load ns ledgerUID = .ok p ∧
        p.siteUID = .ofString "site" ∧ p.instanceUID = .ofString ledgerUID := by
  let p : PlanDocument plainPrinters :=
    barePlan (.ofString "site") (.ofString ledgerUID) [] ⟨1, by decide⟩
  have hlower : LowerUID ledgerUID := by decide +kernel
  have hok : (p.sign oneKey ()).isOk = true := by decide +kernel
  cases hsign : p.sign oneKey () with
  | error reason =>
    rw [hsign] at hok
    cases hok
  | ok e =>
    obtain ⟨-, v, hv, rfl⟩ := PlanDocument.sign_ok hsign
    have hclean : sitePlanType.Clean p.stamp.val :=
      ⟨GoString.ofChars_clean _, GoString.ofChars_clean _, GoString.ofChars_clean _,
        (fun _ h => nomatch h), (fun _ h => nomatch h), trivial, planContents.clean_zero⟩
    have hsigned : PlanDocument.Signed oneKey ()
        { plan := some v.print, signature := .ofChars [] } (.ofString "site") (.ofString ledgerUID)
        (PlanDocument.ofVal (sitePlanType.norm p.stamp.val)) :=
      ⟨⟨(), rfl, rfl⟩, GoType.unmarshal_marshal sitePlanType_wellFormed hclean hv, rfl, rfl, rfl⟩
    have hawaits : Awaits plainPrinters boundCache ∅ ledgerUID
        { plan := some v.print, signature := .ofChars [] } p.stamp.revision.1 :=
      fun m hm => nomatch hm
    obtain ⟨ns, hstore, hload⟩ := store_awaited (c := boundCache)
      (sitePlanType.tidy_marshal _ v hv) rfl hsigned (by decide) hawaits []
    have hissued : Issued plainPrinters v.print := .inl ⟨p.stamp, by
      rw [canonical_eq, hv]
      rfl⟩
    let call : StoreCall := ⟨[], {}, { plan := some v.print, signature := .ofChars [] }, ledgerUID⟩
    have hstep : step plainPrinters boundCache ∅ call = some ns := by
      show some (boundCache.store (P := plainPrinters) [] {} ∅ _ ledgerUID).2 = some ns
      rw [hstore]
    have hreach : Machine.Reach (step plainPrinters boundCache) Fresh
        (Offered plainPrinters boundCache) ns :=
      .next (e := call) (.start fun _ _ => rfl) ⟨hlower, fun _ _ _ => hissued⟩ hstep
    cases hm : ns.get? (cacheName ledgerUID) with
    | none =>
      rw [load, hm] at hload
      cases hload
    | some m =>
      obtain ⟨text, signature, q, -, -, -, hq, hsite, hinstance⟩ :=
        (safe_of_reach boundCache hreach).1 ledgerUID hlower m hm
      exact ⟨ns, m, hreach, hm, q, hq, hsite, hinstance⟩

end PlanCache

end Mspsql
