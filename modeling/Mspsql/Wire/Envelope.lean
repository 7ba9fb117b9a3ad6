import Mspsql.Wire.Documents

/-!
# Signed envelopes

`plan.Sign` and `directive.Sign` sign the canonical encoding of a document and put both into
one envelope; the two `Verify` functions check the signature and read the document back.  The
key and the format are the same for both, so that a plan is told from a directive by its
fields alone: neither document has the field on which the other verification insists
(`never_confused`).
-/

namespace Mspsql.Wire

variable {E : Ed25519} {e : Envelope} {v : Json}

/-- Ed25519 signatures and their base64 form. -/
structure Ed25519 where
  PrivateKey : Type
  PublicKey : Type
  Signature : Type
  publicKey : PrivateKey → PublicKey
  sign : PrivateKey → List Char → Signature
  verify : PublicKey → List Char → Signature → Bool
  encode : Signature → List Char
  decode : GoString → Option Signature
  verify_sign : ∀ k m, verify (publicKey k) m (sign k m) = true
  decode_encode : ∀ s, decode (GoString.ofChars (encode s)) = some s

def oneKey : Ed25519 where
  PrivateKey := Unit
  PublicKey := Unit
  Signature := Unit
  publicKey _ := ()
  sign _ _ := ()
  verify _ _ _ := true
  encode _ := []
  decode _ := some ()
  verify_sign _ _ := rfl
  decode_encode _ := rfl

variable {P : Printers TextKind}

/-- `plan.ProtocolVersion`. -/
def planProtocolVersion : GoString := GoString.ofString "v1alpha1"

def PlanDocument.stamp (p : PlanDocument P) : PlanDocument P :=
  { p with protocolVersion := planProtocolVersion }

def Payload.stamp (p : Payload P) : Payload P := { p with protocolVersion := planProtocolVersion }

/-- `plan.Canonical`: `json.Marshal` and `json.Compact`. -/
def canonical (t : GoType TextKind) (x : t.Val P) : Option (List Char) :=
  (t.marshal x).bind fun v => (Json.parse v.print).map fun r => r.2.print

theorem canonical_eq (t : GoType TextKind) (x : t.Val P) :
    canonical t x = (t.marshal x).map Json.print := by
  rw [canonical]
  cases h : t.marshal x with
  | none => rfl
  | some v =>
    rw [Option.bind_some, Json.parse_print (t.tidy_marshal x v h)]
    rfl

inductive SignError where
  | identity
  | encoding
deriving DecidableEq

inductive VerifyError where
  | signatureEncoding
  | signature
  | document
  | version (found : GoString)
  | identity
  | revision (found least : Int)
deriving DecidableEq

namespace PlanDocument

/-- `plan.Sign`. -/
def sign (E : Ed25519) (key : E.PrivateKey) (desired : PlanDocument P) :
    Except SignError Envelope :=
  if desired.revision.1 < 1 || desired.siteUID = [] || desired.instanceUID = [] then
    .error .identity
  else
    match canonical sitePlanType desired.stamp.val with
    | none => .error .encoding
    | some text =>
      .ok { plan := some text, signature := GoString.ofChars (E.encode (E.sign key text)) }

/-- `plan.Verify`. -/
def verify (E : Ed25519) (key : E.PublicKey) (e : Envelope)
    (expectedSiteUID expectedInstanceUID : GoString) (minimumRevision : Int) :
    Except VerifyError (PlanDocument P) :=
  match E.decode e.signature with
  | none => .error .signatureEncoding
  | some signature =>
    if E.verify key (e.plan.getD []) signature = false then .error .signature
    else
      match (sitePlanType.unmarshal (e.plan.getD []) : Option (sitePlanType.Val P)) with
      | none => .error .document
      | some x =>
        let desired := PlanDocument.ofVal x
        if desired.protocolVersion ≠ planProtocolVersion then
          .error (.version desired.protocolVersion)
        else if desired.siteUID ≠ expectedSiteUID ∨ desired.instanceUID ≠ expectedInstanceUID then
          .error .identity
        else if desired.revision.1 < minimumRevision then
          .error (.revision desired.revision.1 minimumRevision)
        else .ok desired

end PlanDocument

namespace Payload

/-- `directive.Sign`. -/
def sign (E : Ed25519) (key : E.PrivateKey) (p : Payload P) : Except SignError Envelope :=
  if p.siteUID = [] || p.instanceUID = [] || p.objectUID = [] || p.operationUID = [] ||
      p.type = [] then
    .error .identity
  else
    match canonical payload p.stamp.val with
    | none => .error .encoding
    | some text =>
      .ok { plan := some text, signature := GoString.ofChars (E.encode (E.sign key text)) }

/-- `directive.Verify`. -/
def verify (E : Ed25519) (key : E.PublicKey) (e : Envelope)
    (siteUID instanceUID operationUID : GoString) : Except VerifyError (Payload P) :=
  match E.decode e.signature with
  | none => .error .signatureEncoding
  | some signature =>
    if E.verify key (e.plan.getD []) signature = false then .error .signature
    else
      match (payload.unmarshal (e.plan.getD []) : Option (payload.Val P)) with
      | none => .error .document
      | some x =>
        let p := Payload.ofVal x
        if p.protocolVersion ≠ planProtocolVersion then .error (.version p.protocolVersion)
        else if p.siteUID ≠ siteUID ∨ p.instanceUID ≠ instanceUID ∨
            p.operationUID ≠ operationUID then
          .error .identity
        else .ok p

end Payload

/-! ## What a signature says -/

theorem PlanDocument.sign_ok {key : E.PrivateKey} {desired : PlanDocument P}
    (h : desired.sign E key = .ok e) :
    1 ≤ desired.revision.1 ∧ ∃ v, sitePlanType.marshal desired.stamp.val = some v ∧
      e = { plan := some v.print, signature := .ofChars (E.encode (E.sign key v.print)) } := by
  rw [PlanDocument.sign] at h
  split at h
  · cases h
  · rename_i hid
    rw [canonical_eq] at h
    have hrev : 1 ≤ desired.revision.1 := by
      by_contra hlt
      exact hid (by simp [not_le.mp hlt])
    cases hv : sitePlanType.marshal desired.stamp.val with
    | none =>
      rw [hv] at h
      cases h
    | some v =>
      rw [hv] at h
      cases h
      exact ⟨hrev, v, rfl, rfl⟩

theorem Payload.sign_ok {key : E.PrivateKey} {p : Payload P} (h : p.sign E key = .ok e) :
    ∃ v, payload.marshal p.stamp.val = some v ∧
      e = { plan := some v.print, signature := .ofChars (E.encode (E.sign key v.print)) } := by
  rw [Payload.sign] at h
  split at h
  · cases h
  · rw [canonical_eq] at h
    cases hv : payload.marshal p.stamp.val with
    | none =>
      rw [hv] at h
      cases h
    | some v =>
      rw [hv] at h
      cases h
      exact ⟨v, rfl, rfl⟩

/-- The envelope carries the plan `p` for the site and the instance, under the key. -/
structure PlanDocument.Signed (E : Ed25519) (key : E.PublicKey) (e : Envelope)
    (siteUID instanceUID : GoString) (p : PlanDocument P) : Prop where
  signature : ∃ s, E.decode e.signature = some s ∧ E.verify key (e.plan.getD []) s = true
  document : sitePlanType.unmarshal (e.plan.getD []) = some p.val
  version : p.protocolVersion = planProtocolVersion
  site : p.siteUID = siteUID
  instance' : p.instanceUID = instanceUID

theorem PlanDocument.verify_ok_iff {key : E.PublicKey} {siteUID instanceUID : GoString}
    {least : Int} {p : PlanDocument P} :
    PlanDocument.verify E key e siteUID instanceUID least = .ok p ↔
      PlanDocument.Signed E key e siteUID instanceUID p ∧ least ≤ p.revision.1 := by
  constructor
  · intro h
    rw [PlanDocument.verify] at h
    split at h
    · cases h
    · rename_i signature hsignature
      split at h
      · cases h
      · rename_i hverify
        split at h
        · cases h
        · rename_i x hx
          dsimp only at h
          split at h
          · cases h
          · rename_i hversion
            split at h
            · cases h
            · rename_i hid
              split at h
              · cases h
              · rename_i hrev
                cases h
                rw [not_or, not_not, not_not] at hid
                exact ⟨⟨⟨signature, hsignature, by simpa using hverify⟩, hx, not_not.mp hversion,
                  hid.1, hid.2⟩, not_lt.mp hrev⟩
  · rintro ⟨⟨⟨signature, hsignature, hverify⟩, hdocument, hversion, hsite, hinstance⟩, hrev⟩
    have hp : PlanDocument.ofVal p.val = p := rfl
    rw [PlanDocument.verify, hsignature]
    simp only [hverify, hdocument, Bool.true_eq_false, if_false, hp, hversion, hsite, hinstance,
      ne_eq, not_true_eq_false, or_self, not_lt.mpr hrev]

/-- Only what the hub puts under a key verifies under it: canonical encodings of plans and of
directives. -/
def Issued (P : Printers TextKind) (text : List Char) : Prop :=
  (∃ p : PlanDocument P, canonical sitePlanType p.val = some text) ∨
    ∃ p : Payload P, canonical payload p.val = some text

theorem Issued.printed {text : List Char} (h : Issued P text) :
    ∃ v : Json, v.tidy = v ∧ text = v.print := by
  rcases h with ⟨p, hp⟩ | ⟨p, hp⟩
  · rw [canonical_eq, Option.map_eq_some_iff] at hp
    obtain ⟨v, hv, rfl⟩ := hp
    exact ⟨v, sitePlanType.tidy_marshal _ v hv, rfl⟩
  · rw [canonical_eq, Option.map_eq_some_iff] at hp
    obtain ⟨v, hv, rfl⟩ := hp
    exact ⟨v, payload.tidy_marshal _ v hv, rfl⟩

/-! ## Plans and directives -/

theorem unmarshal_other {fs : GoFields TextKind} (gs : GoFields TextKind) {x : fs.Val P}
    (h : (GoType.struct fs).marshal x = some v) :
    ∃ ms, (∀ m ∈ ms, ∃ name ∈ fs.names, m.1 = Json.quote (GoString.ofString name)) ∧
      ((GoType.struct gs).unmarshal v.print : Option (gs.Val P)) =
        gs.decode gs.names (.ofList ms) gs.zero := by
  have htidy := (GoType.struct fs).tidy_marshal x v h
  rw [GoType.marshal, Option.map_eq_some_iff] at h
  obtain ⟨ms, hms, rfl⟩ := h
  refine ⟨ms, fs.exists_name_of_mem_marshal x ms hms, ?_⟩
  rw [GoType.unmarshal, Json.parse_print htidy]
  rfl

theorem decodeInto_untouched {fs : GoFields TextKind} {names : List String} {name : String}
    (hnames : ∀ n ∈ fs.names, resolve names (GoString.ofString n) ≠ some name)
    {ms : List (List Json.Piece × Json)}
    (hms : ∀ m ∈ ms, ∃ n ∈ fs.names, m.1 = Json.quote (GoString.ofString n))
    {α : Type} {f : List Char → Json → α → Option α} (a : α) :
    (JsonMembers.ofList ms).decodeInto (fun key => resolve names key = some name) f a = some a := by
  refine JsonMembers.decodeInto_of_forall (fun m hm => ?_) a
  obtain ⟨n, hn, hkey⟩ := hms m hm
  rw [hkey, unquote_quote_ofString, decide_eq_false_iff_not]
  exact hnames n hn

-- The first is what `plan.Verify` insists on, the second what `directive.Verify` does.
theorem payload_without_revision : ∀ n ∈ payloadFields.names,
    resolve sitePlanFields.names (GoString.ofString n) ≠ some "revision" := by decide +kernel

theorem sitePlan_without_operationUID : ∀ n ∈ sitePlanFields.names,
    resolve payloadFields.names (GoString.ofString n) ≠ some "operationUID" := by decide +kernel

theorem unmarshal_payload_revision {p : Payload P} (h : payload.marshal p.val = some v)
    {x : sitePlanType.Val P} (hx : sitePlanType.unmarshal v.print = some x) : (PlanDocument.ofVal
    x).revision.1 = 0 := by
  obtain ⟨ms, hms, hread⟩ := unmarshal_other sitePlanFields h
  have hdecode : sitePlanFields.decode sitePlanFields.names (.ofList ms) sitePlanFields.zero =
      some x := hread.symm.trans hx
  -- the revision is the sixth field
  have hfield := GoFields.decode_fst (GoFields.decode_snd (GoFields.decode_snd
    (GoFields.decode_snd (GoFields.decode_snd (GoFields.decode_snd hdecode)))))
  rw [decodeInto_untouched payload_without_revision hms] at hfield
  exact congrArg Subtype.val (Option.some.inj hfield).symm

theorem unmarshal_sitePlan_operationUID {p : PlanDocument P}
    (h : sitePlanType.marshal p.val = some v) {x : payload.Val P}
    (hx : payload.unmarshal v.print = some x) : (Payload.ofVal
    x).operationUID = [] := by
  obtain ⟨ms, hms, hread⟩ := unmarshal_other payloadFields h
  have hdecode : payloadFields.decode payloadFields.names (.ofList ms) payloadFields.zero =
      some x := hread.symm.trans hx
  -- the operation UID is the fifth field
  have hfield := GoFields.decode_fst (GoFields.decode_snd (GoFields.decode_snd
    (GoFields.decode_snd (GoFields.decode_snd hdecode))))
  rw [decodeInto_untouched sitePlan_without_operationUID hms] at hfield
  exact (Option.some.inj hfield).symm

/-- A directive is never taken for a plan, nor a plan for a directive. -/
theorem never_confused (E : Ed25519) :
    (∀ (key : E.PrivateKey) (p : Payload P) (e : Envelope), p.sign E key = .ok e →
      ∀ (publicKey : E.PublicKey) (siteUID instanceUID : GoString) (minimumRevision : Int),
        1 ≤ minimumRevision →
        ∃ reason, (PlanDocument.verify E publicKey e siteUID instanceUID minimumRevision :
          Except VerifyError (PlanDocument P)) = .error reason) ∧
    ∀ (key : E.PrivateKey) (p : PlanDocument P) (e : Envelope), p.sign E key = .ok e →
      ∀ (publicKey : E.PublicKey) (siteUID instanceUID operationUID : GoString), operationUID ≠ [] →
        ∃ reason, (Payload.verify E publicKey e siteUID instanceUID operationUID :
          Except VerifyError (Payload P)) = .error reason := by
  constructor
  · intro key p e hsign publicKey siteUID instanceUID minimumRevision hminimum
    obtain ⟨v, hv, rfl⟩ := Payload.sign_ok hsign
    rw [PlanDocument.verify]
    split
    · exact ⟨_, rfl⟩
    · split
      · exact ⟨_, rfl⟩
      · split
        · exact ⟨_, rfl⟩
        · rename_i x hx
          have hrev := unmarshal_payload_revision hv hx
          dsimp only
          split
          · exact ⟨_, rfl⟩
          · split
            · exact ⟨_, rfl⟩
            · rw [if_pos (by omega)]
              exact ⟨_, rfl⟩
  · intro key p e hsign publicKey siteUID instanceUID operationUID hop
    obtain ⟨-, v, hv, rfl⟩ := PlanDocument.sign_ok hsign
    rw [Payload.verify]
    split
    · exact ⟨_, rfl⟩
    · split
      · exact ⟨_, rfl⟩
      · split
        · exact ⟨_, rfl⟩
        · rename_i x hx
          have hempty := unmarshal_sitePlan_operationUID hv hx
          dsimp only
          split
          · exact ⟨_, rfl⟩
          · rw [if_pos (.inr (.inr (hempty ▸ hop.symm)))]
            exact ⟨_, rfl⟩

/-- A directive whose specification tries to pass for a plan. -/
def posingPayload : Payload plainPrinters where
  protocolVersion := []
  siteUID := GoString.ofString "site"
  instanceUID := GoString.ofString "instance"
  objectUID := GoString.ofString "object"
  operationUID := GoString.ofString "operation"
  type := GoString.ofString "Database"
  primary := []
  backupSource := []
  backupType := []
  deleting := false
  generatedAt := GoType.zero (.custom TextKind.time)
  spec := some "\x7b\"revision\": 7\x7d".toList

def barePlan (siteUID instanceUID hubName : GoString)
    (revision : (GoType.int 64 : GoType TextKind).Val plainPrinters) :
    PlanDocument plainPrinters where
  protocolVersion := []
  siteUID := siteUID
  instanceUID := instanceUID
  hubNamespace := []
  hubName := hubName
  revision := revision
  contents := planContents.zero

theorem one_fits : Fits 64 1 := by decide

/-- A plan whose name tries to pass for the operation of a directive. -/
def posingPlan : PlanDocument plainPrinters :=
  barePlan (GoString.ofString "site") (GoString.ofString "instance")
    (GoString.ofString "\"operationUID\":\"operation\"") ⟨1, one_fits⟩

theorem posing_refused : (∃ e, posingPayload.sign oneKey () = .ok e ∧ ∃ reason,
      (PlanDocument.verify oneKey () e (GoString.ofString "site") (GoString.ofString "instance") 1 :
        Except VerifyError (PlanDocument plainPrinters)) = .error reason) ∧
    ∃ e, posingPlan.sign oneKey () = .ok e ∧ ∃ reason,
      (Payload.verify oneKey () e (GoString.ofString "site") (GoString.ofString "instance")
        (GoString.ofString "operation") : Except VerifyError (Payload plainPrinters)) =
        .error reason := by
  have hdirective : (posingPayload.sign oneKey ()).isOk = true := by decide +kernel
  have hplan : (posingPlan.sign oneKey ()).isOk = true := by decide +kernel
  constructor
  · cases h : posingPayload.sign oneKey () with
    | error reason =>
      rw [h] at hdirective
      cases hdirective
    | ok e => exact ⟨e, rfl, (never_confused oneKey).1 () posingPayload e h () _ _ 1 (le_refl 1)⟩
  · cases h : posingPlan.sign oneKey () with
    | error reason =>
      rw [h] at hplan
      cases hplan
    | ok e => exact ⟨e, rfl, (never_confused oneKey).2 () posingPlan e h () _ _ _ (by decide)⟩

/-- A signed directive is read back with the encoding that was signed, under the identities it
was signed for and no others. -/
theorem Payload.verify_signed {key : E.PrivateKey} {p : Payload P} (hclean : payload.Clean p.val)
    (h : p.sign E key = .ok e) : ∃ q : Payload P,
      canonical payload q.val = canonical payload p.stamp.val ∧ ∀ site inst operation,
        verify E (E.publicKey key) e site inst operation = if p.siteUID ≠ site ∨
          p.instanceUID ≠ inst ∨ p.operationUID ≠ operation then .error .identity else .ok q := by
  obtain ⟨v, hv, he⟩ := sign_ok h
  have hread := GoType.unmarshal_marshal (t := payload) (by decide +kernel)
    (x := p.stamp.val) ⟨GoString.ofChars_clean _, hclean.2⟩ hv
  refine ⟨ofVal (payload.norm p.stamp.val), ?_, fun site inst operation => ?_⟩
  · rw [canonical_eq, canonical_eq]
    exact congrArg (Option.map Json.print) (payload.marshal_norm p.stamp.val)
  · rw [he, verify, E.decode_encode]
    dsimp only [Option.getD_some]
    rw [if_neg (by simp [E.verify_sign]), hread]
    exact if_neg (not_not.mpr rfl)

theorem posing_verified : ∃ e q, posingPayload.sign oneKey () = .ok e ∧
    Payload.verify (P := plainPrinters) oneKey () e posingPayload.siteUID
      posingPayload.instanceUID posingPayload.operationUID = .ok q := by
  have hempty : GoString.Clean [] := fun _ h => by cases h
  have htext := GoString.ofChars_clean
  have hclean : payload.Clean posingPayload.val := ⟨hempty, htext _, htext _, htext _, htext _,
    htext _, hempty, hempty, hempty, trivial, trivial, trivial, trivial⟩
  have hsign : (posingPayload.sign oneKey ()).isOk = true := by decide +kernel
  cases h : posingPayload.sign oneKey () with
  | error =>
    rw [h] at hsign
    cases hsign
  | ok e =>
    obtain ⟨q, -, hq⟩ := Payload.verify_signed hclean h
    exact ⟨e, q, rfl, (hq ..).trans (if_neg (by simp))⟩

end Mspsql.Wire
