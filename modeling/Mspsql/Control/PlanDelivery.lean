import Mspsql.Control.ConfigMaps
import Mspsql.Sample

/-!
# From the plan ConfigMaps to the agent's cache

The hub writes one plan ConfigMap for each site of an instance, under the name of the site and
with the UID of its registration as a label.  The server sends what has the label of the
stream's registration, once for each instance and revision, and the agent keeps one plan for
each instance.  Neither knows about sites: of two sites of an instance with one registration
only the first listed gets its plan (`received_iff`).
-/

namespace Mspsql

open Wire Sample List

variable {E : Ed25519} {P : Printers TextKind}

/-! ## Writing -/

def Wire.PlanDocument.undated (p : PlanDocument P) : PlanDocument P :=
  { p with contents := (GoType.zero (.custom TextKind.time), p.contents.2) }

def planEnvelopeEqual (P : Printers TextKind) (currentJSON : String) (desired : Envelope) : Bool :=
  match (Envelope.decode P currentJSON.toList).bind fun current =>
      sitePlanType.unmarshal (P := P) (current.plan.getD []),
    sitePlanType.unmarshal (P := P) (desired.plan.getD []) with
  | some x, some y =>
    match canonical sitePlanType (PlanDocument.ofVal x).undated.val,
      canonical sitePlanType (PlanDocument.ofVal y).undated.val with
    | some a, some b => a = b
    | _, _ => false
  | _, _ => false

/-- `reconcilePlan`: a ConfigMap that exists keeps its labels. -/
def ConfigMap.reconcilePlan (P : Printers TextKind) (stored : Option ConfigMap)
    (i : MultiSitePostgres) (siteName siteUID : String) (e : Envelope) : Option ConfigMap :=
  (e.encode P).map fun text =>
    let data : StringMap := .ofList [("envelope.json", String.ofList text)]
    match stored with
    | none =>
      { namespaceName := i.namespaceName
        name := "mspsql-plan-" ++ i.name ++ "-" ++ siteName
        labels := .ofList [("multisite-postgres.dev/instance-uid", i.uid),
          ("multisite-postgres.dev/site-name", siteName), (siteLabel, siteUID)]
        owners := if i.deleting then [] else
          [⟨groupVersion, "MultiSitePostgres", i.name, i.uid, true⟩]
        data }
    | some m =>
      if planEnvelopeEqual P (m.value "envelope.json") e then m
      else { m with owners := if i.deleting then [] else m.owners, data }

/-- A plan that can be signed and encoded. -/
structure Publishable (p : PlanDocument P) : Prop where
  revision : 1 ≤ p.revision.1
  siteUID : p.siteUID ≠ []
  instanceUID : p.instanceUID ≠ []
  writable : sitePlanType.Writable p.val
  clean : sitePlanType.Clean p.val

/-- What `reconcilePlan` writes for a plan. -/
def planText (key : E.PrivateKey) (p : PlanDocument P) : List Char :=
  ((p.sign E key).toOption.bind (Envelope.encode P)).getD []

structure HoldsPlan (key : E.PrivateKey) (m : ConfigMap) (p : PlanDocument P) : Prop extends
    Publishable p where
  text : m.value "envelope.json" = String.ofList (planText key p)

def planDelivery (key : E.PrivateKey) (p : PlanDocument P) : PlanDelivery :=
  ⟨p.instanceUID, p.revision.1, planText key p⟩

def Wire.PlanDocument.read (p : PlanDocument P) : PlanDocument P :=
  PlanDocument.ofVal (sitePlanType.norm p.stamp.val)

theorem Publishable.published {p : PlanDocument P} (h : Publishable p) (key : E.PrivateKey) :
    ∃ v : Json, sitePlanType.marshal p.stamp.val = some v ∧
      p.sign E key = .ok (.signing key v.print) ∧
      (Envelope.signing key v.print).encode P = some (planText key p) ∧
      Envelope.decode P (planText key p) = some (.signing key v.print) ∧
      sitePlanType.unmarshal v.print = some p.read.val := by
  obtain ⟨v, text, hv, hsign, hencode, hdecode, hdocument⟩ :=
    PlanDocument.published key h.revision h.siteUID h.instanceUID h.writable h.clean
  have htext : planText key p = text := by
    rw [planText, hsign]
    show (((Envelope.signing key v.print).encode P).getD []) = text
    rw [hencode]
    rfl
  rw [htext]
  exact ⟨v, hv, hsign, hencode, hdecode, hdocument⟩

theorem HoldsPlan.plan? {key : E.PrivateKey} {m : ConfigMap} {p : PlanDocument P}
    (h : HoldsPlan key m p) :
    ∃ e, m.plan? P = some (e, p.read) ∧ e.encode P = some (planText key p) := by
  obtain ⟨v, -, -, hencode, hdecode, hdocument⟩ := h.toPublishable.published key
  refine ⟨_, ?_, hencode⟩
  rw [ConfigMap.plan?, h.text, String.toList_ofList, hdecode]
  show (sitePlanType.unmarshal v.print).map _ = _
  rw [hdocument]
  rfl

theorem read_eq_of_planText {key : E.PrivateKey} {p q : PlanDocument P} (hp : Publishable p)
    (hq : Publishable q) (h : planText key p = planText key q) : p.read = q.read := by
  obtain ⟨v, -, -, -, hdecode, hdocument⟩ := hp.published key
  obtain ⟨w, -, -, -, hdecode', hdocument'⟩ := hq.published key
  rw [h, hdecode'] at hdecode
  have hprint : w.print = v.print := Option.some.inj (congrArg Envelope.plan
    (Option.some.inj hdecode))
  rw [hprint, hdocument] at hdocument'
  exact congrArg PlanDocument.ofVal (Option.some.inj hdocument')

/-! ## Sending -/

/-- What has to be listed for a plan to be sent: it is there, what is before it can be read, and
nothing before it or on the stream is as new for the instance. -/
structure Sends (P : Printers TextKind) (listing : List ConfigMap) (sent : SentPlans)
    (p : PlanDelivery) : Prop where
  listed : ∃ before m after e desired, listing = before ++ m :: after ∧
    m.plan? P = some (e, desired) ∧ p.instanceUID = desired.instanceUID ∧
    p.revision = desired.revision.1 ∧ e.encode P = some p.envelopeJSON ∧
    ∀ m' ∈ before, ∃ e' desired', m'.plan? P = some (e', desired') ∧
      (desired'.instanceUID = p.instanceUID → desired'.revision.1 < p.revision)
  fresh : sent p.instanceUID < p.revision

theorem fresh_update_iff {sent : SentPlans} {uid : GoString} {revision : Int}
    {desired : PlanDocument P} (hnew : ¬ desired.revision.1 ≤ sent desired.instanceUID) :
    Function.update sent desired.instanceUID desired.revision.1 uid < revision ↔
      sent uid < revision ∧ (desired.instanceUID = uid → desired.revision.1 < revision) := by
  by_cases heq : uid = desired.instanceUID
  · subst heq
    rw [Function.update_self]
    constructor
    · exact fun h => ⟨by omega, fun _ => h⟩
    · exact fun h => h.2 rfl
  · rw [Function.update_of_ne heq]
    exact ⟨fun h => ⟨h, fun hsame => absurd hsame.symm heq⟩, fun h => h.1⟩

theorem sends_cons_iff {m : ConfigMap} {rest : List ConfigMap} {sent : SentPlans}
    {p : PlanDelivery} {e : Envelope} {desired : PlanDocument P}
    (hm : m.plan? P = some (e, desired)) :
    Sends P (m :: rest) sent p ↔
      (sent p.instanceUID < p.revision ∧ p.instanceUID = desired.instanceUID ∧
        p.revision = desired.revision.1 ∧ e.encode P = some p.envelopeJSON) ∨
      (Sends P rest sent p ∧ (desired.instanceUID = p.instanceUID →
        desired.revision.1 < p.revision)) := by
  constructor
  · rintro ⟨⟨before, m', after, e', desired', hsplit, hplan, huid, hrev, htext, hbefore⟩, hfresh⟩
    cases before with
    | nil =>
      cases hsplit
      rw [hm] at hplan
      cases hplan
      exact .inl ⟨hfresh, huid, hrev, htext⟩
    | cons first before =>
      cases hsplit
      obtain ⟨hfirst, hbefore⟩ := forall_mem_cons.mp hbefore
      obtain ⟨e₁, desired₁, hplan₁, hlower⟩ := hfirst
      rw [hm] at hplan₁
      cases hplan₁
      exact .inr ⟨⟨⟨before, m', after, e', desired', rfl, hplan, huid, hrev, htext,
        hbefore⟩, hfresh⟩, hlower⟩
  · rintro (⟨hfresh, huid, hrev, htext⟩ | ⟨⟨hlisted, hfresh⟩, hlower⟩)
    · exact ⟨⟨[], m, rest, e, desired, rfl, hm, huid, hrev, htext,
        fun m' hm' => nomatch hm'⟩, hfresh⟩
    · obtain ⟨before, m', after, e', desired', hsplit, hplan, huid, hrev, htext, hbefore⟩ :=
        hlisted
      refine ⟨⟨m :: before, m', after, e', desired', by rw [hsplit]; rfl, hplan, huid, hrev,
        htext, ?_⟩, hfresh⟩
      exact forall_mem_cons.mpr ⟨⟨e, desired, hm, hlower⟩, hbefore⟩

theorem mem_sendEach {listing : List ConfigMap} {sent : SentPlans} {p : PlanDelivery} :
    p ∈ (sendEach P listing sent).messages ↔ Sends P listing sent p := by
  induction listing generalizing sent with
  | nil =>
    refine ⟨fun h => absurd h not_mem_nil, ?_⟩
    rintro ⟨⟨before, m, after, e, desired, hsplit, -⟩, -⟩
    exact absurd hsplit.symm (append_ne_nil_of_right_ne_nil before (cons_ne_nil m after))
  | cons m rest ih =>
    rw [sendEach]
    cases hm : m.plan? P with
    | none =>
      refine ⟨fun h => absurd h not_mem_nil, ?_⟩
      rintro ⟨⟨before, m', after, e, desired, hsplit, hplan, -, -, -, hbefore⟩, -⟩
      cases before with
      | nil =>
        cases hsplit
        rw [hm] at hplan
        cases hplan
      | cons first before =>
        cases hsplit
        obtain ⟨e', desired', hplan', -⟩ := hbefore m mem_cons_self
        rw [hm] at hplan'
        cases hplan'
    | some found =>
      obtain ⟨e, desired⟩ := found
      dsimp only
      rw [sends_cons_iff hm]
      split
      · rw [ih]
        constructor
        · intro h
          refine .inr ⟨h, fun hsame => ?_⟩
          have hfresh := h.fresh
          rw [← hsame] at hfresh
          omega
        · rintro (⟨hfresh, huid, hrev, -⟩ | ⟨h, -⟩)
          · rw [huid] at hfresh
            omega
          · exact h
      · rename_i hnew
        obtain ⟨text, htext⟩ := exists_encode hm
        rw [htext]
        rw [mem_cons, ih]
        have hlater : Sends P rest (Function.update sent desired.instanceUID desired.revision.1) p ↔
            Sends P rest sent p ∧ (desired.instanceUID = p.instanceUID →
              desired.revision.1 < p.revision) := by
          constructor
          · intro h
            obtain ⟨hfresh, hlower⟩ := (fresh_update_iff hnew).mp h.fresh
            exact ⟨⟨h.listed, hfresh⟩, hlower⟩
          · rintro ⟨h, hlower⟩
            exact ⟨h.listed, (fresh_update_iff hnew).mpr ⟨h.fresh, hlower⟩⟩
        rw [hlater]
        refine or_congr ?_ Iff.rfl
        constructor
        · rintro rfl
          exact ⟨not_le.mp hnew, rfl, rfl, rfl⟩
        · rintro ⟨-, huid, hrev, hsame⟩
          cases hsame
          cases p
          cases huid
          cases hrev
          rfl

/-! ## Receiving -/

/-- `applyPlan` up to the acknowledgement: whether the plan is accepted, and the cache. -/
def PlanCache.receivePlan (P : Printers TextKind) (c : PlanCache E) (now : GoString)
    (ns : AgentNamespace) (p : PlanDelivery) : Bool × AgentNamespace :=
  match Envelope.decode P p.envelopeJSON, GoString.text? p.instanceUID with
  | some e, some uid =>
    let r := c.store (P := P) now {} ns e uid
    (r.1.isOk, r.2)
  | _, _ => (false, ns)

/-- The plans an agent receives, one after the other, and which of them it accepts. -/
def PlanCache.receivePlans (P : Printers TextKind) (c : PlanCache E) (now : GoString) :
    AgentNamespace → List PlanDelivery → List (PlanDelivery × Bool)
  | _, [] => []
  | ns, p :: rest =>
    (p, (c.receivePlan P now ns p).1) :: c.receivePlans P now (c.receivePlan P now ns p).2 rest

section

variable {c : PlanCache E} {key : E.PrivateKey} {ns : AgentNamespace} {now : GoString}

open PlanCache

def Signed (P : Printers TextKind) (key : E.PrivateKey) (q : PlanDelivery) : Prop :=
  ∃ (p : PlanDocument P) (uid : String), Publishable p ∧ p.instanceUID = .ofString uid ∧
    LowerUID uid ∧ q = planDelivery key p

theorem receivePlan_delivery {p : PlanDocument P} {uid : String}
    (huid : p.instanceUID = .ofString uid) {v : Json}
    (hdecode : Envelope.decode P (planText key p) = some (.signing key v.print)) :
    c.receivePlan P now ns (planDelivery key p) =
      ((c.store (P := P) now {} ns (.signing key v.print) uid).1.isOk,
        (c.store (P := P) now {} ns (.signing key v.print) uid).2) := by
  show (match Envelope.decode P (planText key p), GoString.text? p.instanceUID with
    | some e, some uid => _
    | _, _ => _) = _
  rw [hdecode, huid, text?_ofString]

/-- A signed message for another instance, or with an older plan of this one, does not keep the
agent from a plan it waits for. -/
theorem awaits_receivePlan {uid : String} {e : Envelope} {revision : Int}
    (hvouched : Vouched P c ns) (hawaits : Awaits P c ns uid e revision) (huid : LowerUID uid)
    {q : PlanDelivery} (hq : Signed P key q)
    (holder : q.instanceUID = .ofString uid → q.revision < revision) :
    Vouched P c (c.receivePlan P now ns q).2 ∧
      Awaits P c (c.receivePlan P now ns q).2 uid e revision := by
  obtain ⟨p, uid', hp, huid', hlower, rfl⟩ := hq
  obtain ⟨v, hv, -, -, hdecode, hdocument⟩ := hp.published key
  rw [receivePlan_delivery huid' hdecode]
  have hgenuine : Genuine P c (.signing key v.print) := fun _ _ _ => .inl ⟨p.stamp, by
    rw [canonical_eq, hv]
    rfl⟩
  have hoffered : Offered P c ns ⟨now, {}, .signing key v.print, uid'⟩ := ⟨hlower, hgenuine⟩
  refine ⟨vouched_store hvouched hoffered (Prod.mk.eta).symm, ?_⟩
  cases hr : c.store now {} ns (.signing key v.print) uid' with
  | mk r ns' =>
    cases r with
    | error reason =>
      rw [store_error hr]
      exact hawaits
    | ok desired =>
      obtain ⟨⟨m, hm, hvouches⟩, -⟩ := accepted hvouched hlower hgenuine hr
      obtain ⟨least, w, -, hsigned, -, -, hput⟩ := store_ok hr
      intro m' hm'
      by_cases heq : uid = uid'
      · subst heq
        -- the plan that is accepted is the one that was sent
        have hdesired : desired = p.read := by
          have hread : some desired.val = some p.read.val := hsigned.document.symm.trans hdocument
          exact congrArg PlanDocument.ofVal (Option.some.inj hread)
        rw [show ns'.get? (cacheName uid) = some m from hm] at hm'
        cases hm'
        rw [hdesired] at hvouches
        exact ⟨p.read, hvouches, .inl (holder huid')⟩
      · rw [show ns'.get? (cacheName uid) = _ from hput.others hlower huid heq] at hm'
        exact hawaits m' hm'

theorem mem_of_mem_receivePlans {l : List PlanDelivery} {p : PlanDelivery} {accepts : Bool}
    (h : (p, accepts) ∈ c.receivePlans P now ns l) : p ∈ l := by
  induction l generalizing ns with
  | nil => cases h
  | cons q l ih =>
    rcases mem_cons.mp h with heq | h
    · cases heq
      exact mem_cons_self
    · exact mem_cons_of_mem _ (ih h)

/-- Among signed messages the agent accepts a plan it waits for, if those before it are for other
instances or older. -/
theorem mem_receivePlans {p : PlanDocument P} (hp : Publishable p)
    (hkey : c.publicKey = E.publicKey key) (hsite : p.siteUID = .ofString c.siteUID) {uid : String}
    (hinstance : p.instanceUID = .ofString uid) (huid : LowerUID uid) (hvouched : Vouched P c ns)
    (hawaits : ∀ e, p.sign E key = .ok e → Awaits P c ns uid e p.revision.1)
    {before after : List PlanDelivery} (hbefore : ∀ q ∈ before, Signed P key q ∧
      (q.instanceUID = .ofString uid → q.revision < p.revision.1)) :
    (planDelivery key p, true) ∈
      c.receivePlans P now ns (before ++ planDelivery key p :: after) := by
  obtain ⟨v, hv, hsign, -, hdecode, hdocument⟩ := hp.published key
  replace hawaits := hawaits _ hsign
  induction before generalizing ns with
  | nil =>
    obtain ⟨ns', hstore, -⟩ := store_published key hkey hp.revision hsite hinstance
      (sitePlanType.tidy_marshal _ v hv) hdocument hawaits now
    rw [nil_append, receivePlans, receivePlan_delivery hinstance hdecode, hstore]
    exact mem_cons_self
  | cons q before ih =>
    obtain ⟨⟨hq, hlower⟩, hbefore⟩ := forall_mem_cons.mp hbefore
    obtain ⟨hvouched', hawaits'⟩ := awaits_receivePlan hvouched hawaits huid hq hlower
    exact mem_cons_of_mem _ (ih hvouched' hbefore hawaits')

/-! ## All sites of a registration -/

theorem pairwise_sendEach (listing : List ConfigMap) (sent : SentPlans) :
    (sendEach P listing sent).messages.Pairwise fun p q =>
      p.instanceUID = q.instanceUID → p.revision < q.revision := by
  induction listing generalizing sent with
  | nil => exact List.Pairwise.nil
  | cons m rest ih =>
    rw [sendEach]
    cases hm : m.plan? P with
    | none => exact List.Pairwise.nil
    | some found =>
      dsimp only
      split
      · exact ih sent
      · obtain ⟨text, htext⟩ := exists_encode hm
        rw [htext]
        refine List.Pairwise.cons (fun q hq hsame => ?_) (ih _)
        have hfresh := (mem_sendEach.mp hq).fresh
        rw [← hsame, Function.update_self] at hfresh
        exact hfresh

/-- A ConfigMap with the label holds the plan, and what is listed before it or was sent on the
stream for the instance is older. -/
structure Unrivalled (key : E.PrivateKey) (siteUID : String) (listing : List ConfigMap)
    (sent : SentPlans) (p : PlanDocument P) : Prop where
  listed : ∃ before m after, listing.filter (ConfigMap.forSite siteUID) = before ++ m :: after ∧
    HoldsPlan key m p ∧ ∀ m' ∈ before, ∀ p' : PlanDocument P, HoldsPlan key m' p' →
      p'.instanceUID = p.instanceUID → p'.revision.1 < p.revision.1
  fresh : sent p.instanceUID < p.revision.1

def HubWritten (P : Printers TextKind) (key : E.PrivateKey) (siteUID : String)
    (listing : List ConfigMap) : Prop :=
  ∀ m ∈ listing, m.forSite siteUID = true → ∃ (p : PlanDocument P) (uid : String),
    HoldsPlan key m p ∧ p.instanceUID = .ofString uid ∧ LowerUID uid

variable {listing : List ConfigMap} {sent : SentPlans} {siteUID : String}

theorem HubWritten.signed (h : HubWritten P key siteUID listing) {q : PlanDelivery}
    (hq : q ∈ (sendPlans P siteUID listing sent).messages) : Signed P key q := by
  obtain ⟨⟨before, m, after, e, desired, hsplit, hplan, huid, hrev, htext, -⟩, -⟩ :=
    mem_sendEach.mp hq
  have hm : m ∈ listing.filter (ConfigMap.forSite siteUID) := by
    rw [hsplit]
    exact mem_append_right _ mem_cons_self
  obtain ⟨hlisted, hlabel⟩ := mem_filter.mp hm
  obtain ⟨p, uid, hp, hinstance, hlower⟩ := h m hlisted hlabel
  obtain ⟨e', hplan', hencode⟩ := hp.plan?
  rw [hplan'] at hplan
  cases hplan
  rw [hencode] at htext
  refine ⟨p, uid, hp.toPublishable, hinstance, hlower, ?_⟩
  cases q
  cases huid
  cases hrev
  cases htext
  rfl

theorem HubWritten.mem_sendPlans (h : HubWritten P key siteUID listing) {p : PlanDocument P}
    (hp : Publishable p) :
    planDelivery key p ∈ (sendPlans P siteUID listing sent).messages ↔
      Unrivalled key siteUID listing sent p := by
  have hwritten : ∀ m ∈ listing.filter (ConfigMap.forSite siteUID),
      ∃ p' : PlanDocument P, HoldsPlan key m p' := by
    intro m hm
    obtain ⟨hlisted, hlabel⟩ := mem_filter.mp hm
    obtain ⟨p', -, hp', -⟩ := h m hlisted hlabel
    exact ⟨p', hp'⟩
  rw [sendPlans, mem_sendEach]
  constructor
  · rintro ⟨⟨before, m, after, e, desired, hsplit, hplan, -, -, htext, hbefore⟩, hfresh⟩
    refine ⟨⟨before, m, after, hsplit, ?_, ?_⟩, hfresh⟩
    · -- what the ConfigMap holds has the text of the plan
      obtain ⟨p', hp'⟩ := hwritten m (by
        rw [hsplit]
        exact mem_append_right _ mem_cons_self)
      obtain ⟨e', hplan', hencode⟩ := hp'.plan?
      rw [hplan'] at hplan
      cases hplan
      rw [hencode] at htext
      exact ⟨hp, by rw [hp'.text, Option.some.inj htext]; rfl⟩
    · intro m' hm' p' hp' hsame
      obtain ⟨e', desired', hplan', hlower⟩ := hbefore m' hm'
      obtain ⟨e'', hplan'', -⟩ := hp'.plan?
      rw [hplan''] at hplan'
      cases hplan'
      exact hlower hsame
  · rintro ⟨⟨before, m, after, hsplit, hm, hbefore⟩, hfresh⟩
    obtain ⟨e, hplan, hencode⟩ := hm.plan?
    refine ⟨⟨before, m, after, e, p.read, hsplit, hplan, rfl, rfl, hencode, ?_⟩, hfresh⟩
    intro m' hm'
    obtain ⟨p', hp'⟩ := hwritten m' (by
      rw [hsplit]
      exact mem_append_left _ hm')
    obtain ⟨e', hplan', -⟩ := hp'.plan?
    exact ⟨e', p'.read, hplan', hbefore m' hm' p' hp'⟩

structure PlanFor (registrationUID : String) (i : MultiSitePostgres) (latest : Int)
    (p : PlanDocument P) : Prop extends Publishable p where
  site : p.siteUID = .ofString registrationUID
  instance' : p.instanceUID = .ofString i.uid
  newest : p.revision.1 = latest

/-- One pass over ConfigMaps the hub has written, on the stream of a registration, leaves the
plan of every site with that registration sent and accepted by an agent that waits for it,
exactly if each was sent before or has no rival. -/
theorem received_iff (link : SiteLink E) (c : PlanCache E)
    (hkey : c.publicKey = E.publicKey link.key) (hbound : c.siteUID = link.siteUID)
    (i : MultiSitePostgres) (huid : LowerUID i.uid) (revision : Int)
    (document : PostgresSiteSpec → PlanDocument P)
    (hdocument : ∀ site ∈ i.spec.sites, site.siteRegistrationRef = link.siteName →
      PlanFor link.siteUID i revision (document site))
    (listing : List ConfigMap) (hhub : HubWritten P link.key link.siteUID listing)
    (ns : AgentNamespace) (hvouched : Vouched P c ns)
    (hawaits : ∀ site ∈ i.spec.sites, site.siteRegistrationRef = link.siteName →
      ∀ e, (document site).sign E link.key = .ok e → Awaits P c ns i.uid e revision)
    (sent : SentPlans) (log : List PlanDelivery) (now : GoString) :
    (∀ site ∈ i.spec.sites, site.siteRegistrationRef = link.siteName →
      planDelivery link.key (document site) ∈ log ∨
      (planDelivery link.key (document site), true) ∈
        c.receivePlans P now ns (sendPlans P link.siteUID listing sent).messages) ↔
    ∀ site ∈ i.spec.sites, site.siteRegistrationRef = link.siteName →
      planDelivery link.key (document site) ∈ log ∨
      Unrivalled link.key link.siteUID listing sent (document site) := by
  refine forall₃_congr fun site hsite href => or_congr Iff.rfl ?_
  have hp := hdocument site hsite href
  constructor
  · intro h
    refine (hhub.mem_sendPlans hp.toPublishable).mp ?_
    exact mem_of_mem_receivePlans h
  · intro h
    obtain ⟨before, after, hsplit⟩ :=
      append_of_mem ((hhub.mem_sendPlans hp.toPublishable).mpr h)
    have hpairwise := pairwise_sendEach (P := P)
      (listing.filter (ConfigMap.forSite link.siteUID)) sent
    rw [← sendPlans, hsplit] at hpairwise
    rw [hsplit]
    refine mem_receivePlans hp.toPublishable hkey (hbound ▸ hp.site) hp.instance' huid hvouched
      (hp.newest ▸ hawaits site hsite href) fun q hq => ⟨?_, fun hsame => ?_⟩
    · exact hhub.signed (hsplit ▸ mem_append_left _ hq)
    · exact (pairwise_append.mp hpairwise).2.2 q hq _ mem_cons_self (hsame.trans hp.instance'.symm)

end

/-! ## Sites with one registration -/

theorem holdsPlan_reconcilePlan {key : E.PrivateKey} {p : PlanDocument P} (hp : Publishable p)
    (i : MultiSitePostgres) (siteName siteUID : String) :
    ∃ m, ((p.sign E key).toOption.bind
        (ConfigMap.reconcilePlan P none i siteName siteUID)) = some m ∧
      HoldsPlan key m p ∧ m.forSite siteUID = true := by
  obtain ⟨v, -, hsign, hencode, -⟩ := hp.published key
  rw [hsign]
  show ∃ m, ConfigMap.reconcilePlan P none i siteName siteUID (.signing key v.print) = some m ∧ _
  rw [ConfigMap.reconcilePlan, hencode]
  refine ⟨_, rfl, ⟨hp, ?_⟩, ?_⟩
  · simp [ConfigMap.value, SortedMap.ofList]
  · simp [ConfigMap.forSite, SortedMap.ofList]

theorem sendPlans_one {key : E.PrivateKey} {m : ConfigMap} {p : PlanDocument P}
    (h : HoldsPlan key m p) {siteUID : String} (hlabel : m.forSite siteUID = true)
    {sent : SentPlans} (hfresh : sent p.instanceUID < p.revision.1) :
    sendPlans P siteUID [m] sent =
      ⟨[planDelivery key p], Function.update sent p.instanceUID p.revision.1, true⟩ := by
  obtain ⟨e, hplan, hencode⟩ := h.plan?
  have hnew : ¬ p.read.revision.1 ≤ sent p.read.instanceUID := not_le.mpr hfresh
  rw [sendPlans, filter_cons_of_pos hlabel, sendEach, hplan]
  dsimp only
  rw [if_neg hnew, hencode]
  rfl

theorem second_not_sent {key : E.PrivateKey} {m₁ m₂ : ConfigMap} {p₁ p₂ : PlanDocument P}
    (h₁ : HoldsPlan key m₁ p₁) (h₂ : HoldsPlan key m₂ p₂)
    (hinstance : p₁.instanceUID = p₂.instanceUID) (hrev : p₁.revision.1 = p₂.revision.1)
    (hne : p₁.read ≠ p₂.read) {siteUID : String} (hlabel : m₁.forSite siteUID = true)
    (sent : SentPlans) :
    planDelivery key p₂ ∉ (sendPlans P siteUID [m₁, m₂] sent).messages := by
  rw [sendPlans, filter_cons_of_pos hlabel, mem_sendEach]
  rintro ⟨⟨before, m, after, e, desired, hsplit, hplan, -, -, htext, hbefore⟩, -⟩
  obtain ⟨e₁, hplan₁, hencode₁⟩ := h₁.plan?
  cases before with
  | nil =>
    -- the first one has another text
    cases hsplit
    rw [hplan₁] at hplan
    cases hplan
    rw [hencode₁] at htext
    exact hne (read_eq_of_planText h₁.toPublishable h₂.toPublishable (Option.some.inj htext))
  | cons first before =>
    obtain ⟨rfl, -⟩ := List.cons.inj hsplit
    obtain ⟨e', desired', hplan', hlower⟩ := hbefore m₁ mem_cons_self
    rw [hplan₁] at hplan'
    cases hplan'
    have hlt : p₁.revision.1 < p₂.revision.1 := hlower hinstance
    omega

/-- The plan of a site in its first revision, without what does not matter here. -/
def siteDocument (registrationUID : String) (site : PostgresSiteSpec) :
    PlanDocument plainPrinters :=
  let bare := barePlan (.ofString registrationUID) (.ofString PlanCache.ledgerUID) []
    ⟨1, one_fits⟩
  { bare with contents := (bare.contents.1, (.ofString site.name,
      .ofString site.siteRegistrationRef, .ofString site.namespaceName,
      bare.contents.2.1.2.2.2), bare.contents.2.2) }

theorem siteDocument_publishable {registrationUID : String} (h : registrationUID ≠ "")
    (site : PostgresSiteSpec) : Publishable (siteDocument registrationUID site) where
  revision := le_refl (1 : Int)
  siteUID := by
    intro hnil
    refine h (GoString.ofString_injective ?_)
    exact hnil
  instanceUID := by
    show GoString.ofString PlanCache.ledgerUID ≠ []
    decide
  writable := by
    have hzero := planContents.writable_zero (P := plainPrinters)
    exact ⟨trivial, trivial, trivial, trivial, trivial, trivial, hzero.1,
      ⟨trivial, trivial, trivial, hzero.2.1.2.2.2⟩, hzero.2.2⟩
  clean := by
    have hzero := planContents.clean_zero (P := plainPrinters)
    exact ⟨(fun _ hr => nomatch hr), GoString.ofChars_clean _, GoString.ofChars_clean _,
      (fun _ hr => nomatch hr), (fun _ hr => nomatch hr), trivial, hzero.1,
      ⟨GoString.ofChars_clean _, GoString.ofChars_clean _, GoString.ofChars_clean _,
        hzero.2.1.2.2.2⟩, hzero.2.2⟩

def sitePlanMap (i : MultiSitePostgres) (registrationUID : String) (site : PostgresSiteSpec) :
    ConfigMap :=
  (((siteDocument registrationUID site).sign oneKey ()).toOption.bind
    (ConfigMap.reconcilePlan plainPrinters none i site.name registrationUID)).getD
      { namespaceName := "", name := "" }

theorem sitePlanMap_holds (i : MultiSitePostgres) {registrationUID : String}
    (h : registrationUID ≠ "") (site : PostgresSiteSpec) :
    HoldsPlan (E := oneKey) () (sitePlanMap i registrationUID site)
        (siteDocument registrationUID site) ∧
      (sitePlanMap i registrationUID site).forSite registrationUID = true := by
  obtain ⟨m, hm, hholds⟩ := @holdsPlan_reconcilePlan oneKey _ () _
    (siteDocument_publishable h site) i site.name registrationUID
  rw [sitePlanMap, hm]
  exact hholds

/-- A second data site in the cluster of `vic`. -/
def vicAnnex : PostgresSiteSpec :=
  { vic with name := "vic-annex", namespaceName := "orders-annex" }

/-- The instance with two sites that reference one registration. -/
def sharedOrders : MultiSitePostgres :=
  { orders with
    uid := PlanCache.ledgerUID
    spec := specWith [vic, vicAnnex, qld] }

def vicStream : SiteLink oneKey :=
  { siteName := "production-vic", siteUID := "vic-uid", key := () }

/-- The webhook admits an instance with two sites on one registration, the hub writes both
plans, and the stream of the registration sends one of them. -/
theorem annex_not_sent :
    Admitted library sharedOrders.spec ∧ vicAnnex ∈ sharedOrders.spec.sites ∧
      vicAnnex.siteRegistrationRef = vicStream.siteName ∧
      HoldsPlan (E := oneKey) () (sitePlanMap sharedOrders "vic-uid" vicAnnex)
        (siteDocument "vic-uid" vicAnnex) ∧
      planDelivery (E := oneKey) () (siteDocument "vic-uid" vicAnnex) ∉
        (sendPlans plainPrinters vicStream.siteUID
          [sitePlanMap sharedOrders "vic-uid" vic,
            sitePlanMap sharedOrders "vic-uid" vicAnnex] fun _ => 0).messages := by
  obtain ⟨hvic, hlabel⟩ := sitePlanMap_holds sharedOrders (by decide : "vic-uid" ≠ "") vic
  obtain ⟨hannex, -⟩ := sitePlanMap_holds sharedOrders (by decide : "vic-uid" ≠ "") vicAnnex
  refine ⟨by decide +kernel, by decide +kernel, by decide +kernel, hannex, ?_⟩
  refine second_not_sent hvic hannex rfl rfl (fun hread => ?_) hlabel _
  have hname := congrArg (fun p : PlanDocument plainPrinters => p.contents.2.1.1) hread
  exact absurd (GoString.ofString_injective hname) (by decide)

def vicCache : PlanCache oneKey := { publicKey := (), siteUID := "vic-uid" }

def plainOrders : MultiSitePostgres := { orders with uid := PlanCache.ledgerUID }

theorem vic_received : vic ∈ plainOrders.spec.sites ∧
    ∀ site ∈ plainOrders.spec.sites, site.siteRegistrationRef = vicStream.siteName →
      planDelivery (E := oneKey) () (siteDocument "vic-uid" site) ∈ ([] : List PlanDelivery) ∨
      (planDelivery (E := oneKey) () (siteDocument "vic-uid" site), true) ∈
        vicCache.receivePlans plainPrinters [] ∅ (sendPlans plainPrinters vicStream.siteUID
          [sitePlanMap plainOrders "vic-uid" vic] fun _ => 0).messages := by
  obtain ⟨hvic, hlabel⟩ := sitePlanMap_holds plainOrders (by decide : "vic-uid" ≠ "") vic
  refine ⟨by decide +kernel,
    (received_iff vicStream vicCache rfl rfl plainOrders (by decide +kernel) 1
    (siteDocument "vic-uid") (fun site _ _ => ⟨siteDocument_publishable (by decide) site, rfl, rfl,
      rfl⟩) _ (fun m hm _ => ?_) ∅ (fun _ _ m hm => nomatch hm)
      (fun _ _ _ _ _ m hm => nomatch hm) _ [] []).mpr (fun site hsite href => .inr ?_)⟩
  · rw [mem_singleton.mp hm]
    exact ⟨_, PlanCache.ledgerUID, hvic, rfl, by decide +kernel⟩
  · have hsite' : site = vic := by
      have honly : ∀ site ∈ plainOrders.spec.sites,
          site.siteRegistrationRef = vicStream.siteName → site = vic := by
        decide +kernel
      exact honly site hsite href
    rw [hsite']
    refine ⟨⟨[], _, [], ?_, hvic, fun m' hm' => nomatch hm'⟩, by decide⟩
    show List.filter (ConfigMap.forSite "vic-uid") _ = _
    rw [filter_cons_of_pos hlabel]
    rfl

end Mspsql
