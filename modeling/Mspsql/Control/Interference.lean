import Mspsql.Control.PlanDelivery

/-!
# Foreign ConfigMaps

Two runs of the send loop of one stream: over everything the API lists, and over the ConfigMaps
that a controller wrote.  The loop decodes before it knows who wrote what, and remembers what it
has sent by the UIDs in the data.  So a foreign ConfigMap can end the stream, and can make the
loop believe that a plan is sent.

The runs send the same if the foreign ConfigMaps can be decoded, carry no plan for an instance
that has a genuine one, and are not trusted as directives (`same_deliveries`).
-/

namespace Mspsql

open Wire List

/-- A ConfigMap in a listing, and whether a controller wrote it. -/
structure Listed where
  map : ConfigMap
  genuine : Bool

/-- What one turn of the loop reads.  The two listings are of all ConfigMaps. -/
structure SendRound (P : Printers TextKind) where
  /-- `ensureSiteActive`. -/
  active : Bool := true
  planListing : List Listed
  directiveListing : List Listed
  reads : ServerReads
  now : (GoType.custom TextKind.time).Val P

structure SendState where
  plans : SentPlans := fun _ => 0
  directives : List String := []
  planLog : List PlanDelivery := []
  directiveLog : List DirectiveDelivery := []
  ok : Bool := true

section

variable {E : Ed25519} {P : Printers TextKind} (T : TimeText) (link : SiteLink E) (limit : Nat)

/-- One turn of the loop, over the ConfigMaps that are kept. -/
def SendState.turn (keep : Listed → Bool) (s : SendState) (round : SendRound P) : SendState :=
  if s.ok = false then s
  else if round.active = false then { s with ok := false }
  else
    let p := sendPlans P link.siteUID ((round.planListing.filter keep).map Listed.map) s.plans
    let s := { s with plans := p.memory, planLog := s.planLog ++ p.messages, ok := p.ok }
    if p.ok = false then s
    else
      let d := sendDirectives T link round.now round.reads
        (((round.directiveListing.filter keep).map Listed.map).filter ConfigMap.isDirective)
        s.directives limit
      { s with directives := d.memory, directiveLog := s.directiveLog ++ d.messages, ok := d.ok }

/-- The loop. -/
def SendState.run (keep : Listed → Bool) (s : SendState) (rounds : List (SendRound P)) :
    SendState :=
  rounds.foldl (SendState.turn T link limit keep) s

end

section

variable {E : Ed25519} {P : Printers TextKind} {T : TimeText} {link : SiteLink E} {limit : Nat}
  {keep : Listed → Bool} {s : SendState} {round : SendRound P}

theorem planLog_turn (hok : s.ok = true) (hactive : round.active = true) :
    (s.turn T link limit keep round).planLog = s.planLog ++ (sendPlans P link.siteUID
      ((round.planListing.filter keep).map Listed.map) s.plans).messages := by
  rw [SendState.turn, hok, hactive, if_neg (by decide), if_neg (by decide)]
  dsimp only
  split
  · rfl
  · rfl

theorem ok_turn (hok : s.ok = true) (hactive : round.active = true) :
    (s.turn T link limit keep round).ok =
      ((sendPlans P link.siteUID ((round.planListing.filter keep).map Listed.map) s.plans).ok &&
        (sendDirectives T link round.now round.reads
          (((round.directiveListing.filter keep).map Listed.map).filter ConfigMap.isDirective)
          s.directives limit).ok) := by
  rw [SendState.turn, hok, hactive, if_neg (by decide), if_neg (by decide)]
  dsimp only
  split
  · rename_i hplans
    rw [hplans]
    rfl
  · rename_i hplans
    rw [Bool.not_eq_false] at hplans
    rw [hplans]
    rfl

end

/-! ## Plans -/

section

variable {P : Printers TextKind}

variable {a b : SentPlans}

/-- A foreign plan that the loop can read, for an instance no genuine plan is for. -/
def StrayPlan (P : Printers TextKind) (known : GoString → Bool) (m : ConfigMap) : Prop :=
  ∃ e desired, m.plan? P = some (e, desired) ∧ known desired.instanceUID = false

def KnownPlan (P : Printers TextKind) (known : GoString → Bool) (m : ConfigMap) : Prop :=
  ∀ e desired, m.plan? P = some (e, desired) → known desired.instanceUID = true

def Agree (known : GoString → Bool) (a b : SentPlans) : Prop :=
  ∀ uid, known uid = true → a uid = b uid

theorem Agree.update {known : GoString → Bool} (h : Agree known a b) (uid : GoString)
    (revision : Int) :
    Agree known (Function.update a uid revision) (Function.update b uid revision) := by
  intro uid' huid'
  by_cases heq : uid' = uid
  · subst heq
    rw [Function.update_self, Function.update_self]
  · rw [Function.update_of_ne heq, Function.update_of_ne heq]
    exact h uid' huid'

theorem Agree.update_left {known : GoString → Bool} (h : Agree known a b) {uid : GoString}
    (huid : known uid = false) (revision : Int) :
    Agree known (Function.update a uid revision) b := by
  intro uid' huid'
  have hne : uid' ≠ uid := fun heq => by
    rw [heq, huid] at huid'
    cases huid'
  rw [Function.update_of_ne hne]
  exact h uid' huid'

/-- The loop over the plans sends the same plans of known instances with the foreign
ConfigMaps as without them, and ends the stream at the same genuine one if at all. -/
theorem sendEach_filter (known : GoString → Bool) (listing : List Listed)
    (hgenuine : ∀ l ∈ listing, l.genuine = true → KnownPlan P known l.map)
    (hforeign : ∀ l ∈ listing, l.genuine = false → StrayPlan P known l.map)
    (hab : Agree known a b) :
    let whole := sendEach P (listing.map Listed.map) a
    let alone := sendEach P ((listing.filter (·.genuine)).map Listed.map) b
    whole.messages.filter (fun p => known p.instanceUID) = alone.messages ∧
      Agree known whole.memory alone.memory ∧ whole.ok = alone.ok := by
  induction listing generalizing a b with
  | nil => exact ⟨rfl, hab, rfl⟩
  | cons l listing ih =>
    obtain ⟨hl, hgenuine⟩ := forall_mem_cons.mp hgenuine
    obtain ⟨hl', hforeign⟩ := forall_mem_cons.mp hforeign
    cases hkind : l.genuine with
    | false =>
      obtain ⟨e, desired, hplan, hunknown⟩ := hl' hkind
      obtain ⟨text, htext⟩ := exists_encode hplan
      rw [filter_cons_of_neg (by simp [hkind]), map_cons, sendEach, hplan]
      dsimp only
      split
      · exact ih hgenuine hforeign hab
      · rw [htext]
        dsimp only
        rw [filter_cons_of_neg (by simp [hunknown])]
        exact ih hgenuine hforeign (hab.update_left hunknown _)
    | true =>
      rw [filter_cons_of_pos (by simp [hkind]), map_cons, map_cons, sendEach, sendEach]
      cases hplan : l.map.plan? P with
      | none => exact ⟨rfl, hab, rfl⟩
      | some found =>
        obtain ⟨e, desired⟩ := found
        have hknown := hl hkind e desired hplan
        obtain ⟨text, htext⟩ := exists_encode hplan
        dsimp only
        rw [hab desired.instanceUID hknown]
        split
        · exact ih hgenuine hforeign hab
        · rw [htext]
          dsimp only
          obtain ⟨hmessages, hmemory, hok⟩ :=
            ih hgenuine hforeign (hab.update desired.instanceUID desired.revision.1)
          rw [filter_cons_of_pos (by simp [hknown]), hmessages]
          exact ⟨rfl, hmemory, hok⟩

end

/-! ## Directives -/

section

variable {E : Ed25519} {P : Printers TextKind} {T : TimeText} {link : SiteLink E}
  {now : (GoType.custom TextKind.time).Val P} {reads : ServerReads}

def StrayDirective (P : Printers TextKind) (T : TimeText) (reads : ServerReads) (m : ConfigMap) :
    Prop :=
  m.value "operationUID" = "" ∨
    ∀ i, reads.instance? m.namespaceName (m.value "instanceRef") = some i →
      (m.value "type" = "Backup" → (backupTypeOf P (m.value "spec.json")).isSome = true) ∧
        reads.trustedOwner P T m i = none

theorem StrayDirective.skip {m : ConfigMap} (h : StrayDirective P T reads m) (sent : List String) :
    considerDirective T link now reads sent m = .skip := by
  rw [considerDirective]
  split
  · rfl
  · rename_i hop
    rcases h with hempty | hstray
    · exact absurd (Or.inl hempty) hop
    · cases hi : reads.instance? m.namespaceName (m.value "instanceRef") with
      | none => rfl
      | some i =>
        obtain ⟨hbackup, huntrusted⟩ := hstray i hi
        have hsign : ∀ source type, signDirective T link now reads i m source type = .skip := by
          intro source type
          rw [signDirective, huntrusted]
        dsimp only
        split
        · rename_i htype
          obtain ⟨backupType, hbackupType⟩ := Option.isSome_iff_exists.mp (hbackup htype)
          rw [hbackupType]
          dsimp only
          split
          · rfl
          · exact hsign _ _
        · split
          · rfl
          · exact hsign _ _

theorem sendDirectives_filter {listing : List Listed}
    (hforeign : ∀ l ∈ listing, l.genuine = false → l.map.isDirective = true →
      StrayDirective P T reads l.map) (sent : List String) (limit : Nat) :
    sendDirectives T link now reads ((listing.map Listed.map).filter ConfigMap.isDirective)
        sent limit =
      sendDirectives T link now reads
        (((listing.filter (·.genuine)).map Listed.map).filter ConfigMap.isDirective)
        sent limit := by
  induction listing generalizing sent limit with
  | nil => rfl
  | cons l listing ih =>
    obtain ⟨hl, hforeign⟩ := forall_mem_cons.mp hforeign
    by_cases hdirective : l.map.isDirective = true
    · cases hkind : l.genuine with
      | false =>
        rw [filter_cons_of_neg (by simp [hkind]), map_cons,
          filter_cons_of_pos hdirective, sendDirectives, (hl hkind hdirective).skip]
        exact ih hforeign sent limit
      | true =>
        rw [filter_cons_of_pos (by simp [hkind]), map_cons, map_cons,
          filter_cons_of_pos hdirective, filter_cons_of_pos hdirective, sendDirectives,
          sendDirectives]
        split
        · exact ih hforeign sent limit
        · rfl
        · dsimp only
          rw [ih hforeign]
    · rw [map_cons, filter_cons_of_neg hdirective]
      cases hkind : l.genuine with
      | false =>
        rw [filter_cons_of_neg (by simp [hkind])]
        exact ih hforeign sent limit
      | true =>
        rw [filter_cons_of_pos (by simp [hkind]), map_cons, filter_cons_of_neg hdirective]
        exact ih hforeign sent limit

end

/-! ## Runs -/

section

variable {E : Ed25519} {P : Printers TextKind}

/-- The foreign ConfigMaps of a round can be read, none is a plan for the site and an instance
that has a genuine plan, and none is a trusted directive. -/
structure Harmless (T : TimeText) (siteUID : String) (known : GoString → Bool)
    (round : SendRound P) : Prop where
  genuinePlans : ∀ l ∈ round.planListing, l.genuine = true → l.map.forSite siteUID = true →
    KnownPlan P known l.map
  foreignPlans : ∀ l ∈ round.planListing, l.genuine = false → l.map.forSite siteUID = true →
    StrayPlan P known l.map
  foreignDirectives : ∀ l ∈ round.directiveListing, l.genuine = false →
    l.map.isDirective = true → StrayDirective P T round.reads l.map

/-- The state of a stream that serves foreign ConfigMaps as well, beside that of one that does
not. -/
structure Beside (known : GoString → Bool) (whole alone : SendState) : Prop where
  plans : Agree known whole.plans alone.plans
  directives : whole.directives = alone.directives
  planLog : whole.planLog.filter (fun p => known p.instanceUID) = alone.planLog
  directiveLog : whole.directiveLog = alone.directiveLog
  ok : whole.ok = alone.ok

variable {T : TimeText} {link : SiteLink E} {limit : Nat} {known : GoString → Bool}

theorem map_filter_forSite (siteUID : String) (listing : List Listed) :
    (listing.map Listed.map).filter (ConfigMap.forSite siteUID) =
      (listing.filter fun l => l.map.forSite siteUID).map Listed.map := by
  rw [filter_map]
  rfl

theorem Beside.turn {whole alone : SendState} (h : Beside known whole alone)
    {round : SendRound P} (hround : Harmless T link.siteUID known round) :
    Beside known (whole.turn T link limit (fun _ => true) round)
      (alone.turn T link limit (·.genuine) round) := by
  rw [SendState.turn, SendState.turn, h.ok]
  split
  · exact h
  · split
    · exact ⟨h.plans, h.directives, h.planLog, h.directiveLog, rfl⟩
    · have hplans := sendEach_filter (P := P) known
        (round.planListing.filter fun l => l.map.forSite link.siteUID)
        (fun l hl hkind => hround.genuinePlans l (mem_filter.mp hl).1 hkind
          (mem_filter.mp hl).2)
        (fun l hl hkind => hround.foreignPlans l (mem_filter.mp hl).1 hkind
          (mem_filter.mp hl).2) h.plans
      have hevery : ∀ listing : List Listed, listing.filter (fun _ => true) = listing :=
        fun _ => filter_true _
      rw [hevery, hevery]
      dsimp only [sendPlans]
      rw [map_filter_forSite, map_filter_forSite, filter_comm]
      obtain ⟨hmessages, hmemory, hok⟩ := hplans
      rw [hok, h.directives, sendDirectives_filter hround.foreignDirectives]
      have hlog : (whole.planLog ++ (sendEach P ((round.planListing.filter
          fun l => l.map.forSite link.siteUID).map Listed.map) whole.plans).messages).filter
            (fun p => known p.instanceUID) = _ :=
        (filter_append _ _).trans (congrArg₂ (· ++ ·) h.planLog hmessages)
      split
      · exact ⟨hmemory, rfl, hlog, h.directiveLog, rfl⟩
      · exact ⟨hmemory, rfl, hlog, congrArg (· ++ _) h.directiveLog, rfl⟩

theorem Beside.run {whole alone : SendState} (h : Beside known whole alone)
    {rounds : List (SendRound P)}
    (hrounds : ∀ round ∈ rounds, Harmless T link.siteUID known round) :
    Beside known (whole.run T link limit (fun _ => true) rounds)
      (alone.run T link limit (·.genuine) rounds) := by
  induction rounds generalizing whole alone with
  | nil => exact h
  | cons round rounds ih =>
    obtain ⟨hround, hrounds⟩ := forall_mem_cons.mp hrounds
    exact ih (h.turn hround) hrounds

/-- After any number of turns whose foreign ConfigMaps are harmless, the stream is open exactly
if it were open without them, the plans sent for the known instances are those that had been
sent without them, and so are the directives. -/
theorem same_deliveries (T : TimeText) (link : SiteLink E) (limit : Nat)
    (known : GoString → Bool) (rounds : List (SendRound P))
    (h : ∀ round ∈ rounds, Harmless T link.siteUID known round) :
    (SendState.run T link limit (fun _ => true) {} rounds).ok =
        (SendState.run T link limit (·.genuine) {} rounds).ok ∧
      (SendState.run T link limit (fun _ => true) {} rounds).planLog.filter
          (fun p => known p.instanceUID) =
        (SendState.run T link limit (·.genuine) {} rounds).planLog ∧
      (SendState.run T link limit (fun _ => true) {} rounds).directiveLog =
        (SendState.run T link limit (·.genuine) {} rounds).directiveLog := by
  have hstart : Beside known ({} : SendState) {} := ⟨fun _ _ => rfl, rfl, rfl, rfl, rfl⟩
  have hrun : Beside known (SendState.run T link limit (fun _ => true) {} rounds)
      (SendState.run T link limit (·.genuine) {} rounds) := hstart.run h
  exact ⟨hrun.ok, hrun.planLog, hrun.directiveLog⟩

end

/-! ## Examples -/

def ordersPlan : ConfigMap := sitePlanMap plainOrders "vic-uid" Sample.vic

def ordersDelivery : PlanDelivery :=
  planDelivery (E := oneKey) () (siteDocument "vic-uid" Sample.vic)

def brokenPlan : ConfigMap where
  namespaceName := "attic"
  name := "notes"
  labels := .ofList [(siteLabel, "vic-uid")]
  data := .ofList [("envelope.json", "not json")]

def forgedPlan : ConfigMap where
  namespaceName := "attic"
  name := "plan"
  labels := .ofList [(siteLabel, "vic-uid")]
  data := .ofList [("envelope.json", "\x7b\"plan\":\x7b\"instanceUID\":" ++
    "\"5f0c7a52-91de-4c1b-8a4e-2f60b1d3c7aa\",\"revision\":9\x7d,\"signature\":\"\"\x7d")]

def roundWith (foreign : ConfigMap) : SendRound plainPrinters where
  planListing := [⟨foreign, false⟩, ⟨ordersPlan, true⟩]
  directiveListing := [⟨foreign, false⟩]
  reads := { instances := [] }
  now := none

theorem ordersPlan_sent :
    ∃ memory, sendPlans plainPrinters vicStream.siteUID [ordersPlan] (fun _ => 0) =
      ⟨[ordersDelivery], memory, true⟩ := by
  obtain ⟨hholds, hlabel⟩ := sitePlanMap_holds plainOrders (by decide : "vic-uid" ≠ "") Sample.vic
  exact ⟨_, sendPlans_one hholds hlabel Int.zero_lt_one⟩

theorem brokenPlan_ends (rest : List ConfigMap) :
    sendPlans plainPrinters vicStream.siteUID (brokenPlan :: rest) (fun _ => 0) =
      ⟨[], fun _ => 0, false⟩ := by
  have hplan : brokenPlan.plan? plainPrinters = none :=
    Option.isNone_iff_eq_none.mp (by decide +kernel)
  rw [sendPlans, filter_cons_of_pos (by decide +kernel), sendEach, hplan]

theorem forgedPlan_hides (rest : List ConfigMap) : ordersDelivery ∉
      (sendPlans plainPrinters vicStream.siteUID (forgedPlan :: rest) (fun _ => 0)).messages := by
  have hplan : (forgedPlan.plan? plainPrinters).any (fun found =>
      decide (found.2.instanceUID = .ofString PlanCache.ledgerUID ∧ found.2.revision.1 = 9)) =
        true := by
    decide +kernel
  obtain ⟨⟨e, desired⟩, hfound, hforged⟩ := (Option.any_eq_true _ _).mp hplan
  obtain ⟨huid, hrev⟩ := of_decide_eq_true hforged
  rw [sendPlans, filter_cons_of_pos (by decide +kernel), mem_sendEach, sends_cons_iff hfound, hrev]
  have hone : ordersDelivery.revision = 1 := rfl
  rw [hone]
  rintro (⟨-, -, hsame, -⟩ | ⟨-, hlower⟩)
  · cases hsame
  · exact absurd (hlower huid) (by decide)

/-- A ConfigMap that is no plan ends the stream before the plan of the instance is sent, and a
forged plan takes its place. -/
theorem foreign_disturbs :
    ((SendState.run plainTimes vicStream 100 (·.genuine) {} [roundWith brokenPlan]).ok = true ∧
      (SendState.run plainTimes vicStream 100 (·.genuine) {} [roundWith brokenPlan]).planLog =
        [ordersDelivery]) ∧
    (SendState.run plainTimes vicStream 100 (fun _ => true) {} [roundWith brokenPlan]).ok = false ∧
    ordersDelivery ∉
      (SendState.run plainTimes vicStream 100 (fun _ => true) {} [roundWith brokenPlan]).planLog ∧
    ordersDelivery ∉ (SendState.run plainTimes vicStream 100 (fun _ => true) {}
      [roundWith forgedPlan]).planLog := by
  have hrun : ∀ (keep : Listed → Bool) (round : SendRound plainPrinters),
      SendState.run plainTimes vicStream 100 keep {} [round] =
        SendState.turn plainTimes vicStream 100 keep {} round := fun _ _ => rfl
  have hlog : ∀ (keep : Listed → Bool) (foreign : ConfigMap),
      (SendState.turn plainTimes vicStream 100 keep {} (roundWith foreign)).planLog =
        (sendPlans plainPrinters vicStream.siteUID
          (((roundWith foreign).planListing.filter keep).map Listed.map) fun _ => 0).messages :=
    fun keep foreign => planLog_turn rfl rfl
  have halone : ((roundWith brokenPlan).planListing.filter (·.genuine)).map Listed.map =
      [ordersPlan] := by simp [roundWith]
  have hbroken : ((roundWith brokenPlan).planListing.filter fun _ => true).map Listed.map =
      brokenPlan :: [ordersPlan] := by simp [roundWith]
  have hforged : ((roundWith forgedPlan).planListing.filter fun _ => true).map Listed.map =
      forgedPlan :: [ordersPlan] := by simp [roundWith]
  obtain ⟨memory, hsent⟩ := ordersPlan_sent
  refine ⟨⟨?_, ?_⟩, ?_, ?_, ?_⟩
  · rw [hrun, ok_turn rfl rfl, halone, hsent]
    rfl
  · rw [hrun, hlog, halone, hsent]
  · rw [hrun, ok_turn rfl rfl, hbroken, brokenPlan_ends]
    rfl
  · rw [hrun, hlog, hbroken, brokenPlan_ends]
    exact not_mem_nil
  · rw [hrun, hlog, hforged]
    exact forgedPlan_hides [ordersPlan]

/-- A foreign ConfigMap with the labels of a plan and of a directive, for instances that the hub
does not have. -/
def strayMap : ConfigMap where
  namespaceName := "attic"
  name := "plan"
  labels := .ofList [(siteLabel, "vic-uid"), (directiveLabel, "Backup")]
  data := .ofList [("operationUID", "backup"), ("type", "Backup"), ("spec.json", "not json"),
    ("envelope.json",
      "\x7b\"plan\":\x7b\"instanceUID\":\"other\",\"revision\":9\x7d,\"signature\":\"\"\x7d")]

theorem stray_same_deliveries :
    (SendState.run plainTimes vicStream 100 (fun _ => true) {} [roundWith strayMap]).ok =
        (SendState.run plainTimes vicStream 100 (·.genuine) {} [roundWith strayMap]).ok ∧
      (SendState.run plainTimes vicStream 100 (fun _ => true) {}
          [roundWith strayMap]).planLog.filter
          (fun p => p.instanceUID = .ofString PlanCache.ledgerUID) =
        (SendState.run plainTimes vicStream 100 (·.genuine) {} [roundWith strayMap]).planLog ∧
      (SendState.run plainTimes vicStream 100 (fun _ => true) {}
          [roundWith strayMap]).directiveLog =
        (SendState.run plainTimes vicStream 100 (·.genuine) {}
          [roundWith strayMap]).directiveLog := by
  refine same_deliveries plainTimes vicStream 100 (fun uid => uid = .ofString PlanCache.ledgerUID) _
    (forall_mem_singleton.mpr ⟨?_, ?_, ?_⟩)
  · -- the genuine plan is that of the instance
    rintro l hl hkind -
    rcases mem_pair.mp hl with rfl | rfl
    · cases hkind
    · intro e desired hfound
      obtain ⟨hholds, -⟩ := sitePlanMap_holds plainOrders (by decide : "vic-uid" ≠ "") Sample.vic
      obtain ⟨e', hplan, -⟩ := hholds.plan?
      dsimp only at hfound
      rw [ordersPlan, hplan] at hfound
      cases hfound
      exact decide_eq_true rfl
  · rintro l hl hkind -
    have hplan : (strayMap.plan? plainPrinters).any
        (fun found => !decide (found.2.instanceUID = .ofString PlanCache.ledgerUID)) = true := by
      decide +kernel
    rcases mem_pair.mp hl with rfl | rfl
    · obtain ⟨⟨e, desired⟩, hfound, hother⟩ := (Option.any_eq_true _ _).mp hplan
      exact ⟨e, desired, hfound, by simpa using hother⟩
    · cases hkind
  · rintro l hl hkind -
    rw [mem_singleton.mp hl]
    exact .inr fun i hi => nomatch hi

end Mspsql
