import Mspsql.Control.Agreement

/-!
# Sending directives a few at a time

A pass over the directive ConfigMaps stops after `limit` directives and remembers what the stream
has been sent.  What is eligible does not depend on the order of the listing, so every pass sends
the next ones: nothing is sent twice, and nothing is left out in the end (`syncs_spec`).
-/

namespace Mspsql

open Wire List

variable {E : Ed25519} {P : Printers TextKind}

/-! ## One ConfigMap -/

/-- The operation is directed at the site of the stream. -/
def targetsSite (siteName : String) (i : MultiSitePostgres) (m : ConfigMap) : Bool :=
  if m.value "type" = "Backup" then
    selectBackupSource i ≠ "" && memberTargetsSite i (selectBackupSource i) siteName
  else directiveTargetsSite i (m.value "type") siteName

/-- The directive is targeted at the site and trusted. -/
def eligible (P : Printers TextKind) (T : TimeText) (siteName : String) (reads : ServerReads)
    (m : ConfigMap) : Bool :=
  m.value "operationUID" ≠ "" &&
    (reads.instance? m.namespaceName (m.value "instanceRef")).any fun i =>
      targetsSite siteName i m && (reads.trustedOwner P T m i).isSome

/-- The specification of a directive can be decoded. -/
structure Decodes (P : Printers TextKind) (m : ConfigMap) : Prop where
  spec : (Json.parse (m.value "spec.json").toList).isSome = true
  backupType : m.value "type" = "Backup" → (backupTypeOf P (m.value "spec.json")).isSome = true

/-- Registrations and instances have UIDs, as all objects have. -/
structure Serving (link : SiteLink E) (reads : ServerReads) : Prop where
  siteUID : link.siteUID ≠ ""
  instanceUID : ∀ i ∈ reads.instances, i.uid ≠ ""

theorem ofString_ne_nil {s : String} (h : s ≠ "") : GoString.ofString s ≠ [] := by
  intro hnil
  have htext := text?_ofString s
  rw [hnil] at htext
  exact h (Option.some.inj htext).symm

theorem Wire.Payload.signed (key : E.PrivateKey) {p : Payload P}
    (hid : p.siteUID ≠ [] ∧ p.instanceUID ≠ [] ∧ p.objectUID ≠ [] ∧ p.operationUID ≠ [] ∧
      p.type ≠ []) (hnow : p.generatedAt.isSome = true)
    (hspec : ∀ text ∈ p.spec, (Json.parse text).isSome = true) :
    ∃ e text, p.sign E key = .ok e ∧ e.encode P = some text := by
  have hwritable : payload.Writable p.stamp.val := ⟨trivial, trivial, trivial, trivial, trivial,
    trivial, trivial, trivial, trivial, trivial, hnow, hspec, trivial⟩
  obtain ⟨v, hv⟩ := Option.isSome_iff_exists.mp (payload.isSome_marshal _ hwritable)
  obtain ⟨text, hencode, -⟩ := Envelope.decode_encode (payload.tidy_marshal _ v hv)
    (GoString.ofChars_clean (E.encode (E.sign key v.print)))
  refine ⟨_, text, ?_, hencode⟩
  rw [Payload.sign, if_neg (by simp [hid]), canonical_eq, hv]
  rfl

section Directive

variable {T : TimeText} {link : SiteLink E} {now : (GoType.custom TextKind.time).Val P}
  {reads : ServerReads} {m : ConfigMap} {i : MultiSitePostgres} {sent : List String}

theorem directiveOwnerTrusted_type {map : DirectiveMap} {upgrades : List PostgresUpgrade}
    {declared : List DeclaredObject} (h : directiveOwnerTrusted map i upgrades declared = true) :
    map.ownerUID ≠ "" ∧ map.type ≠ "" := by
  have hdeclared : ∀ kind, declaredDirectiveTrusted map i declared kind = true → map.type ≠ "" := by
    intro kind hkind
    obtain ⟨object, -, htrusted⟩ := any_eq_true.mp hkind
    have hobject := of_decide_eq_true (of_decide_eq_true htrusted).2.2
    rw [hobject.1]
    cases object.kind <;> decide
  rw [directiveOwnerTrusted, Bool.and_eq_true, Bool.and_eq_true, bne_iff_ne] at h
  refine ⟨h.1.1, ?_⟩
  have hkind := h.2
  split at hkind
  · exact hdeclared .database hkind
  · exact hdeclared .user hkind
  · rw [scheduledBackupDirectiveTrusted] at hkind
    split at hkind
    · cases hkind
    · exact (of_decide_eq_true hkind).1 ▸ by decide
  · rw [upgradeBackupDirectiveTrusted, Bool.and_eq_true, Bool.and_eq_true, beq_iff_eq] at hkind
    exact hkind.1.1 ▸ by decide

theorem trustedOwner_type {owner : OwnerReference}
    (h : reads.trustedOwner P T m i = some owner) : owner.uid ≠ "" ∧ m.value "type" ≠ "" := by
  have htrusts := (Option.filter_eq_some_iff.mp h).2
  rw [ServerReads.trusts, Bool.and_eq_true] at htrusts
  have hkind := htrusts.2
  split at hkind
  · exact directiveOwnerTrusted_type hkind
  · exact directiveOwnerTrusted_type hkind
  · have hspec := (Bool.and_eq_true_iff.mp hkind).2
    split at hspec
    · cases hspec
    · exact directiveOwnerTrusted_type hspec
  · exact directiveOwnerTrusted_type (Bool.and_eq_true_iff.mp hkind).2
  · cases hkind

theorem signDirective_of_trusted (hserving : Serving link reads) (hi : i ∈ reads.instances)
    (hm : Decodes P m) (huid : m.value "operationUID" ≠ "") (hnow : now.isSome = true)
    {owner : OwnerReference} (howner : reads.trustedOwner P T m i = some owner) (source : String)
    (backupType : GoString) :
    ∃ message, signDirective T link now reads i m source backupType = .send message ∧
      message.operationUID = m.value "operationUID" := by
  obtain ⟨hobject, htype⟩ := trustedOwner_type howner
  rw [signDirective, howner]
  dsimp only
  generalize hp : (⟨[], _, _, _, _, _, _, _, _, _, _, _⟩ : Payload P) = p
  obtain ⟨e, text, hsign, hencode⟩ := Payload.signed link.key (p := p)
    (by subst hp; simp [ofString_ne_nil, hserving.siteUID, hserving.instanceUID i hi, hobject, huid,
      htype]) (by subst hp; exact hnow) (by subst hp; rintro _ ⟨⟩; exact hm.spec)
  rw [hsign]
  dsimp only
  rw [hencode]
  exact ⟨_, rfl, rfl⟩

theorem considerDirective_spec (hserving : Serving link reads) (hm : Decodes P m)
    (hnow : now.isSome = true) (sent : List String) :
    if eligible P T link.siteName reads m = true ∧ m.value "operationUID" ∉ sent then
      ∃ message, considerDirective T link now reads sent m = .send message ∧
        message.operationUID = m.value "operationUID"
    else considerDirective T link now reads sent m = .skip := by
  rw [considerDirective, eligible]
  by_cases huid : m.value "operationUID" = "" ∨ m.value "operationUID" ∈ sent
  · rw [if_pos huid, if_neg (by grind)]
  obtain ⟨huid, hnew⟩ := not_or.mp huid
  cases hi : reads.instance? m.namespaceName (m.value "instanceRef") with
  | none => simp
  | some i =>
    have hmem : i ∈ reads.instances := mem_of_find?_eq_some hi
    -- the two kinds of directives differ in how they are targeted only
    have hsign : ∀ source backupType,
        if (reads.trustedOwner P T m i).isSome = true then
          ∃ message, signDirective T link now reads i m source backupType = .send message ∧
            message.operationUID = m.value "operationUID"
        else signDirective T link now reads i m source backupType = .skip := by
      intro source backupType
      cases howner : reads.trustedOwner P T m i with
      | none => simp [signDirective, howner]
      | some owner =>
        exact signDirective_of_trusted hserving hmem hm huid hnow howner source backupType
    by_cases htype : m.value "type" = "Backup"
    · obtain ⟨backupType, hbackup⟩ := Option.isSome_iff_exists.mp (hm.backupType htype)
      have := hsign (selectBackupSource i) backupType
      simp only [targetsSite, htype, hbackup]
      grind
    · have := hsign "" []
      simp only [targetsSite, htype]
      grind

/-! ## Passes -/

/-- The operations that are targeted at the site and trusted. -/
def operations (P : Printers TextKind) (T : TimeText) (siteName : String) (reads : ServerReads)
    (maps : List ConfigMap) : Finset String :=
  ((maps.filter (eligible P T siteName reads)).map (·.value "operationUID")).toFinset

theorem operations_cons (m : ConfigMap) (rest : List ConfigMap) :
    operations P T link.siteName reads (m :: rest) =
      if eligible P T link.siteName reads m = true then
        insert (m.value "operationUID") (operations P T link.siteName reads rest)
      else operations P T link.siteName reads rest := by
  unfold operations
  rw [filter_cons]
  split <;> simp

/-- Up to `limit` of the operations that have not been sent are sent, each once. -/
structure SendsNext (operations : Finset String) (sent : List String) (limit : Nat)
    (pass : SendPass DirectiveDelivery (List String)) : Prop where
  ok : pass.ok = true
  memory : pass.memory.toFinset = (pass.messages.map (·.operationUID)).toFinset ∪ sent.toFinset
  nodup : (pass.messages.map (·.operationUID)).Nodup
  unsent : (pass.messages.map (·.operationUID)).toFinset ⊆ operations \ sent.toFinset
  count : pass.messages.length = min limit (operations \ sent.toFinset).card

theorem sendDirectives_sends (hserving : Serving link reads) (hnow : now.isSome = true)
    {maps : List ConfigMap} (hmaps : ∀ m ∈ maps, Decodes P m) {limit : Nat} (hlimit : 1 ≤ limit) :
    SendsNext (operations P T link.siteName reads maps) sent limit
      (sendDirectives T link now reads maps sent limit) := by
  induction maps generalizing sent limit with
  | nil => exact ⟨rfl, rfl, .nil, Finset.empty_subset _, by simp [operations, sendDirectives]⟩
  | cons m rest ih =>
    have hconsider := considerDirective_spec (T := T) hserving (hmaps m mem_cons_self) hnow sent
    have hrest := fun m hm => hmaps m (mem_cons_of_mem _ hm)
    rw [sendDirectives]
    split at hconsider
    · rename_i hsend
      obtain ⟨message, hmessage, huid⟩ := hconsider
      rw [hmessage]
      have hsplit : operations P T link.siteName reads (m :: rest) \ sent.toFinset =
          insert (m.value "operationUID") (operations P T link.siteName reads rest \
            (m.value "operationUID" :: sent).toFinset) := by
        rw [operations_cons, if_pos hsend.1, toFinset_cons,
          Finset.insert_sdiff_of_notMem _ (by simpa using hsend.2)]
        ext uid
        simp only [Finset.mem_insert, Finset.mem_sdiff]
        tauto
      have hcard : (operations P T link.siteName reads (m :: rest) \ sent.toFinset).card =
          (operations P T link.siteName reads rest \
            (m.value "operationUID" :: sent).toFinset).card + 1 := by
        rw [hsplit, Finset.card_insert_of_notMem (by simp)]
      dsimp only
      split
      · refine ⟨rfl, by simp [huid], by simp, ?_, ?_⟩
        · simp [hsplit, huid]
        · simp only [length_cons, length_nil]
          omega
      · obtain ⟨hok, hmemory, hnodup, hunsent, hcount⟩ :=
          @ih (m.value "operationUID" :: sent) hrest (limit - 1) (by omega)
        refine ⟨hok, ?_, ?_, ?_, ?_⟩
        · rw [hmemory]
          simp [huid]
        · rw [map_cons, nodup_cons]
          refine ⟨fun hmem => ?_, hnodup⟩
          have := hunsent (mem_toFinset.mpr hmem)
          simp [huid] at this
        · rw [map_cons, toFinset_cons, huid, hsplit]
          exact Finset.insert_subset_insert _ hunsent
        · rw [length_cons, hcard]
          omega
    · rw [hconsider]
      have hsame : operations P T link.siteName reads (m :: rest) \ sent.toFinset =
          operations P T link.siteName reads rest \ sent.toFinset := by
        rw [operations_cons]
        split
        · exact Finset.insert_sdiff_of_mem _ (by simp_all)
        · rfl
      obtain ⟨hok, hmemory, hnodup, hunsent, hcount⟩ := ih hrest hlimit
      exact ⟨hok, hmemory, hnodup, hsame ▸ hunsent, hsame ▸ hcount⟩

theorem SendsNext.append {operations : Finset String} {sent : List String} {limit limit' : Nat}
    {pass later : SendPass DirectiveDelivery (List String)}
    (h : SendsNext operations sent limit pass)
    (h' : SendsNext operations pass.memory limit' later) :
    SendsNext operations sent (limit + limit')
      ⟨pass.messages ++ later.messages, later.memory, later.ok⟩ := by
  obtain ⟨hok, hmemory, hnodup, hunsent, hcount⟩ := h'
  have hleft : operations \ pass.memory.toFinset =
      (operations \ sent.toFinset) \ (pass.messages.map (·.operationUID)).toFinset := by
    rw [h.memory, Finset.union_comm, sdiff_sdiff_left, Finset.sup_eq_union]
  have hcard : (operations \ pass.memory.toFinset).card =
      (operations \ sent.toFinset).card - pass.messages.length := by
    rw [hleft, Finset.card_sdiff_of_subset h.unsent, toFinset_card_of_nodup h.nodup, length_map]
  rw [hleft] at hunsent
  refine ⟨hok, ?_, ?_, ?_, ?_⟩
  · rw [hmemory, h.memory, map_append, toFinset_append, ← Finset.union_assoc,
      Finset.union_comm (pass.messages.map _).toFinset]
  · rw [map_append, nodup_append']
    refine ⟨h.nodup, hnodup, fun uid hpass hlater => ?_⟩
    exact (Finset.mem_sdiff.mp (hunsent (mem_toFinset.mpr hlater))).2 (mem_toFinset.mpr hpass)
  · rw [map_append, toFinset_append]
    exact Finset.union_subset h.unsent (hunsent.trans Finset.sdiff_subset)
  · rw [length_append, hcount, hcard, h.count]
    omega

/-! ## Streams -/

/-- The passes of a stream, each at its time and over its listing. -/
def syncs (T : TimeText) (link : SiteLink E) (reads : ServerReads) (limit : Nat) :
    List ((GoType.custom TextKind.time).Val P × List ConfigMap) → List String →
      SendPass DirectiveDelivery (List String)
  | [], sent => ⟨[], sent, true⟩
  | (now, listing) :: rest, sent =>
    let pass := sendDirectives T link now reads listing sent limit
    if pass.ok = false then pass
    else
      let later := syncs T link reads limit rest pass.memory
      ⟨pass.messages ++ later.messages, later.memory, later.ok⟩

variable {maps : List ConfigMap} {limit : Nat}
  {rounds : List ((GoType.custom TextKind.time).Val P × List ConfigMap)}

theorem operations_perm {listing : List ConfigMap} (h : listing.Perm maps) :
    operations P T link.siteName reads listing = operations P T link.siteName reads maps :=
  toFinset_eq_of_perm _ _ ((h.filter _).map _)

theorem syncs_sends (hserving : Serving link reads) (hmaps : ∀ m ∈ maps, Decodes P m)
    (hlimit : 1 ≤ limit) (hrounds : ∀ r ∈ rounds, r.1.isSome = true ∧ r.2.Perm maps)
    (sent : List String) :
    SendsNext (operations P T link.siteName reads maps) sent (rounds.length * limit)
      (syncs T link reads limit rounds sent) := by
  induction rounds generalizing sent with
  | nil => exact ⟨rfl, rfl, .nil, Finset.empty_subset _, by simp [syncs]⟩
  | cons round rest ih =>
    obtain ⟨hnow, hperm⟩ := hrounds round mem_cons_self
    have hpass : SendsNext _ sent _ _ := sendDirectives_sends (T := T) hserving hnow
      (fun m hm => hmaps m (hperm.mem_iff.mp hm)) hlimit
    rw [operations_perm hperm] at hpass
    rw [syncs]
    rw [if_neg (by simp [hpass.ok]), length_cons, Nat.succ_mul, Nat.add_comm]
    exact hpass.append (ih (fun r hr => hrounds r (mem_cons_of_mem _ hr)) _)

/-- `k` passes send `min (k * limit) n` of the `n` operations that are targeted at the site and
trusted, each once, in whatever order each pass lists them. -/
theorem syncs_spec (hserving : Serving link reads) (hmaps : ∀ m ∈ maps, Decodes P m)
    (hlimit : 1 ≤ limit) (hrounds : ∀ r ∈ rounds, r.1.isSome = true ∧ r.2.Perm maps) :
    let n := (operations P T link.siteName reads maps).card
    let run := syncs T link reads limit rounds []
    let uids := run.messages.map (·.operationUID)
    run.ok = true ∧ run.messages.length = min (rounds.length * limit) n ∧ uids.Nodup ∧
      (∀ uid ∈ uids, uid ∈ operations P T link.siteName reads maps) ∧
      ((n + limit - 1) / limit ≤ rounds.length →
        ∀ uid ∈ operations P T link.siteName reads maps, uids.count uid = 1) := by
  obtain ⟨hok, -, hnodup, hunsent, hcount⟩ :=
    syncs_sends hserving hmaps hlimit hrounds []
  rw [toFinset_nil, Finset.sdiff_empty] at hunsent hcount
  refine ⟨hok, hcount, hnodup, fun uid huid => hunsent (mem_toFinset.mpr huid), ?_⟩
  intro henough uid huid
  have hall : (operations P T link.siteName reads maps).card ≤ rounds.length * limit := by
    have := Nat.div_le_iff_le_mul_add_pred hlimit |>.mp henough
    rw [Nat.mul_comm] at this
    omega
  refine count_eq_one_of_mem hnodup (mem_toFinset.mp ?_)
  rw [Finset.eq_of_subset_of_card_le hunsent (by
    rw [toFinset_card_of_nodup hnodup, length_map, hcount, Nat.min_eq_right hall])]
  exact huid

end Directive

/-! ## Two databases, one directive at a time -/

def backlogDatabases : List DeclaredObject :=
  ["sales", "stock"].map fun name =>
    { appDatabase with name := name, uid := name ++ "-uid", specJSON := "null" }

def backlog : List ConfigMap := backlogDatabases.map fun object =>
  (reconcileDirective none object false).encode plainPrinters plainTimes

def backlogReads : ServerReads where
  instances := [{ Sample.ledger with status := {
    primary := Sample.vic0
    sites := [{ name := "production-vic", addresses := .ofList [(Sample.vic0, "10.1.0.9")] }] } }]
  declared := backlogDatabases

def backlogLink : SiteLink oneKey :=
  { siteName := "production-vic", siteUID := "vic-uid", key := () }

/-- The second pass lists the directives the other way round. -/
def backlogRounds : List ((GoType.custom TextKind.time).Val plainPrinters × List ConfigMap) :=
  [backlog, backlog.reverse].map fun listing => (GoType.zero (.custom TextKind.time), listing)

theorem backlog_sent :
    let run := syncs plainTimes backlogLink backlogReads 1 backlogRounds []
    run.messages.length = 2 ∧
      (run.messages.map (·.operationUID)).count "stock-uid-1-false" = 1 := by
  have hall : operations plainPrinters plainTimes backlogLink.siteName backlogReads backlog =
      {"sales-uid-1-false", "stock-uid-1-false"} := by
    decide +kernel
  have hspec : ∀ m ∈ backlog, (Json.parse (m.value "spec.json").toList).isSome = true := by
    decide +kernel
  have htype : ∀ m ∈ backlog, m.value "type" ≠ "Backup" := by decide +kernel
  have hrounds : ∀ r ∈ backlogRounds, r.1.isSome = true ∧ r.2.Perm backlog := by
    intro r hr
    obtain ⟨listing, hlisting, rfl⟩ := mem_map.mp hr
    rcases mem_pair.mp hlisting with rfl | rfl
    · exact ⟨rfl, .refl _⟩
    · exact ⟨rfl, reverse_perm _⟩
  obtain ⟨-, hcount, -, -, hsent⟩ := @syncs_spec _ _ plainTimes backlogLink backlogReads backlog 1
    backlogRounds ⟨by decide, by decide⟩ (fun m hm => ⟨hspec m hm, fun h => absurd h (htype m hm)⟩)
    (le_refl 1) hrounds
  rw [hall] at hcount hsent
  exact ⟨hcount, hsent (by decide) _ (by decide)⟩

end Mspsql
