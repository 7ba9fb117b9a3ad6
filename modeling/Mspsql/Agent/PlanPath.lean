import Mspsql.Agent.Cache

/-!
# The way of a plan from the hub into the cache

A signed plan is encoded five times before the agent uses it: as the document that is signed,
in the plan ConfigMap, on the stream, in the cache's ConfigMap, and back from there.  The
signature covers the bytes of the document, so they have to come through unchanged.

They do (`round_trip`), provided that the document can be encoded at all and that its strings
are valid UTF-8: a byte that is no UTF-8 is signed as an escape and comes back as a character,
which is encoded differently (`spoiled_round_trip`).
-/

namespace Mspsql

open Wire

variable {E : Ed25519} {P : Printers TextKind}

namespace Wire.Envelope

/-- `json.Marshal` of an envelope: what `envelopeData` puts under `envelope.json`. -/
def encode (P : Printers TextKind) (e : Envelope) : Option (List Char) :=
  (envelope.marshal (P := P) e.val).map Json.print

/-- `json.Unmarshal` into an envelope, as `sendPlans` and `applyPlan` do it. -/
def decode (P : Printers TextKind) (text : List Char) : Option Envelope :=
  (envelope.unmarshal (P := P) text).map Envelope.ofVal

/-- What `sendPlans` makes of a stored envelope: it reads the plan as well and encodes the
envelope again. -/
def resend (P : Printers TextKind) (text : List Char) : Option (List Char) :=
  (decode P text).bind fun e =>
    (sitePlanType.unmarshal (P := P) (e.plan.getD [])).bind fun _ => encode P e

theorem decode_encode {v : Json} (hv : v.tidy = v) {signature : GoString}
    (hclean : signature.Clean) :
    ∃ text, encode P { plan := some v.print, signature } = some text ∧
      decode P text = some { plan := some v.print, signature } := by
  let x : envelope.Val P := Envelope.val { plan := some v.print, signature }
  have hwritable : envelope.Writable x := by
    refine ⟨fun text htext => ?_, trivial, trivial⟩
    cases htext
    rw [Json.parse_print hv]
    rfl
  obtain ⟨w, hw⟩ := Option.isSome_iff_exists.mp (envelope.isSome_marshal x hwritable)
  have hnorm : envelope.norm x = x := by
    have hraw : (GoType.raw : GoType TextKind).marshal (P := P) (some v.print) = some v := by
      show (Json.parse v.print).map (fun r => r.2.tidy) = some v
      rw [Json.parse_print hv, Option.map_some, hv]
    show ((((GoType.raw : GoType TextKind).marshal (some v.print)).map Json.print).or
      (some v.print), signature, ()) = (some v.print, signature, ())
    rw [hraw]
    rfl
  refine ⟨w.print, congrArg (Option.map Json.print) hw, ?_⟩
  have hx : envelope.Clean x := ⟨trivial, hclean, trivial⟩
  rw [decode, GoType.unmarshal_marshal envelope_wellFormed hx hw, hnorm]
  rfl

end Wire.Envelope

def Wire.Envelope.signing (key : E.PrivateKey) (text : List Char) : Envelope where
  plan := some text
  signature := .ofChars (E.encode (E.sign key text))

/-- A plan that can be encoded and whose strings are valid UTF-8 is signed, and the envelope
comes through the encoding of the ConfigMap and of the wire as it is. -/
theorem Wire.PlanDocument.published (key : E.PrivateKey) {p : PlanDocument P}
    (hrev : 1 ≤ p.revision.1) (hsite : p.siteUID ≠ []) (hinstance : p.instanceUID ≠ [])
    (hwritable : sitePlanType.Writable p.val) (hclean : sitePlanType.Clean p.val) :
    ∃ (v : Json) (text : List Char), sitePlanType.marshal p.stamp.val = some v ∧
      p.sign E key = .ok (.signing key v.print) ∧
      (Envelope.signing key v.print).encode P = some text ∧
      Envelope.decode P text = some (.signing key v.print) ∧
      sitePlanType.unmarshal v.print = some (sitePlanType.norm p.stamp.val) := by
  have hwritable' : sitePlanType.Writable p.stamp.val := ⟨trivial, hwritable.2⟩
  have hclean' : sitePlanType.Clean p.stamp.val := ⟨GoString.ofChars_clean _, hclean.2⟩
  obtain ⟨v, hv⟩ := Option.isSome_iff_exists.mp (sitePlanType.isSome_marshal _ hwritable')
  have htidy := sitePlanType.tidy_marshal _ v hv
  obtain ⟨text, hencode, hdecode⟩ := Envelope.decode_encode htidy
    (GoString.ofChars_clean (E.encode (E.sign key v.print)))
  refine ⟨v, text, hv, ?_, hencode, hdecode,
    GoType.unmarshal_marshal sitePlanType_wellFormed hclean' hv⟩
  have hid : ¬ (decide (p.revision.1 < 1) || decide (p.siteUID = []) ||
      decide (p.instanceUID = [])) = true := by
    simp [hsite, hinstance, not_lt.mpr hrev]
  rw [PlanDocument.sign, if_neg hid, canonical_eq, hv]
  rfl

namespace PlanCache

def deliver (c : PlanCache E) (key : E.PrivateKey) (now : GoString) (ns : AgentNamespace)
    (uid : String) (p : PlanDocument P) : Option (PlanDocument P) :=
  match p.sign E key with
  | .error _ => none
  | .ok e =>
    ((e.encode P).bind fun stored => (Envelope.resend P stored).bind (Envelope.decode P)).bind
      fun received =>
        match c.store (P := P) now {} ns received uid with
        | (.ok _, ns') => (c.load ns' uid).toOption
        | (.error _, _) => none

theorem store_published (key : E.PrivateKey) {c : PlanCache E}
    (hkey : c.publicKey = E.publicKey key) {p : PlanDocument P} (hrev : 1 ≤ p.revision.1)
    (hbound : p.siteUID = .ofString c.siteUID) {uid : String}
    (huid : p.instanceUID = .ofString uid) {v : Json} (htidy : v.tidy = v)
    (hdocument : sitePlanType.unmarshal v.print = some (sitePlanType.norm p.stamp.val))
    {ns : AgentNamespace} (hawaits : Awaits P c ns uid (.signing key v.print) p.revision.1)
    (now : GoString) :
    ∃ ns', c.store now {} ns (.signing key v.print) uid =
        (.ok (PlanDocument.ofVal (sitePlanType.norm p.stamp.val)), ns') ∧
      c.load ns' uid = .ok (PlanDocument.ofVal (sitePlanType.norm p.stamp.val)) := by
  have hsigned : PlanDocument.Signed E c.publicKey (.signing key v.print) (.ofString c.siteUID)
      (.ofString uid) (PlanDocument.ofVal (sitePlanType.norm p.stamp.val)) := by
    refine ⟨⟨E.sign key v.print, E.decode_encode _, ?_⟩, hdocument, rfl, hbound, huid⟩
    rw [hkey]
    exact E.verify_sign key v.print
  exact store_awaited htidy rfl hsigned hrev hawaits now

/-- A plan that can be encoded and whose strings are valid UTF-8 comes through from the hub to
the cache: every stage succeeds, and what is loaded has the encoding that was signed. -/
theorem round_trip (key : E.PrivateKey) (p : PlanDocument P) (hrev : 1 ≤ p.revision.1)
    (hsite : p.siteUID ≠ []) (hinstance : p.instanceUID ≠ [])
    (hwritable : sitePlanType.Writable p.val) (hclean : sitePlanType.Clean p.val)
    (c : PlanCache E) (hkey : c.publicKey = E.publicKey key)
    (hbound : p.siteUID = .ofString c.siteUID) (uid : String)
    (huid : p.instanceUID = .ofString uid) (ns : AgentNamespace)
    (hawaits : ∀ e, p.sign E key = .ok e → Awaits P c ns uid e p.revision.1) (now : GoString) :
    ∃ loaded, c.deliver key now ns uid p = some loaded ∧
      canonical sitePlanType loaded.val = canonical sitePlanType p.stamp.val := by
  obtain ⟨v, text, hv, hsign, hencode, hdecode, hdocument⟩ :=
    PlanDocument.published key hrev hsite hinstance hwritable hclean
  obtain ⟨ns', hstore, hload⟩ := store_published key hkey hrev hbound huid
    (sitePlanType.tidy_marshal _ v hv) hdocument (hawaits _ hsign) now
  have hresend : Envelope.resend P text = some text := by
    rw [Envelope.resend, hdecode]
    show (sitePlanType.unmarshal v.print).bind _ = some text
    rw [hdocument]
    exact hencode
  refine ⟨PlanDocument.ofVal (sitePlanType.norm p.stamp.val), ?_, ?_⟩
  · rw [deliver, hsign]
    dsimp only
    rw [hencode, Option.bind_some, hresend, Option.bind_some, hdecode, Option.bind_some, hstore]
    show (c.load ns' uid).toOption = _
    rw [hload]
    rfl
  · rw [canonical_eq, canonical_eq]
    exact congrArg (Option.map Json.print) (sitePlanType.marshal_norm p.stamp.val)

theorem barePlan_writable (siteUID instanceUID hubName : GoString)
    (revision : (GoType.int 64 : GoType TextKind).Val plainPrinters) :
    sitePlanType.Writable (barePlan siteUID instanceUID hubName revision).val :=
  ⟨trivial, trivial, trivial, trivial, trivial, trivial, planContents.writable_zero⟩

theorem barePlan_clean {siteUID instanceUID hubName : GoString} (hsite : siteUID.Clean)
    (hinstance : instanceUID.Clean) (hname : hubName.Clean)
    (revision : (GoType.int 64 : GoType TextKind).Val plainPrinters) :
    sitePlanType.Clean (barePlan siteUID instanceUID hubName revision).val :=
  ⟨(fun _ h => nomatch h), hsite, hinstance, (fun _ h => nomatch h), hname, trivial,
    planContents.clean_zero⟩

/-- A plan with quotes, brackets and line ends in a name. -/
def oddPlan : PlanDocument plainPrinters :=
  barePlan (.ofString "site") (.ofString "instance") (.ofString "<\"\\\n&\u2028>") ⟨7, by decide⟩

/-- A plan with a name that is no UTF-8. -/
def spoiledPlan : PlanDocument plainPrinters :=
  barePlan (.ofString "site") (.ofString "instance") [.bad 255] ⟨7, by decide⟩

/-- A plan made at a time that `time.Time` does not print. -/
def undatedPlan : PlanDocument plainPrinters :=
  { oddPlan with contents := (none, oddPlan.contents.2) }

theorem spoiled_round_trip :
    (∃ loaded, boundCache.deliver () [] ∅ "instance" spoiledPlan = some loaded ∧
      canonical sitePlanType loaded.val ≠ canonical sitePlanType spoiledPlan.stamp.val) ∧
    boundCache.deliver () [] ∅ "instance" undatedPlan = none := by
  have hdiffers : (boundCache.deliver () [] ∅ "instance" spoiledPlan).any (fun loaded =>
      decide (canonical sitePlanType loaded.val ≠
        canonical sitePlanType spoiledPlan.stamp.val)) = true := by
    decide +kernel
  have hundated : (boundCache.deliver () [] ∅ "instance" undatedPlan).isNone = true := by
    decide +kernel
  obtain ⟨loaded, hloaded, hne⟩ := (Option.any_eq_true _ _).mp hdiffers
  exact ⟨⟨loaded, hloaded, of_decide_eq_true hne⟩, Option.isNone_iff_eq_none.mp hundated⟩

theorem odd_round_trip : ∃ loaded, boundCache.deliver () [] ∅ "instance" oddPlan = some loaded ∧
    canonical sitePlanType loaded.val = canonical sitePlanType oddPlan.stamp.val := by
  exact round_trip () oddPlan (by decide) (by decide) (by decide) (barePlan_writable _ _ _ _)
    (barePlan_clean (GoString.ofChars_clean _) (GoString.ofChars_clean _)
      (GoString.ofChars_clean _) _) boundCache rfl rfl "instance" rfl ∅ (fun _ _ m hm => nomatch hm)
    []

end PlanCache

end Mspsql
