import Mspsql.Lib.IPv4
import Mspsql.Lib.Retry
import Mspsql.Lib.SortedMap

/-!
# Addresses of WireGuard peers

The hub keeps the addresses it gave to its peers in one ConfigMap, by the UID of their sites.
Registrations reserve addresses and deregistrations release them at the same time, each by a
read and a write under the version it read.

An address is lost only by a release for its UID (`Serves`), so a site that registers again
gets the address it has.
-/

namespace Mspsql.WireGuard

open IPv4 Retry List

variable {network : Prefix} {a b : Addr} {view : Option Allocations} {uid : String}

def parseNetwork (value : String) : Except String Prefix :=
  match Prefix.parse value with
  | none => .error "WireGuard network must be an IPv4 CIDR with at least six usable addresses"
  | some network =>
    if 29 < network.bits then
      .error "WireGuard network must be an IPv4 CIDR with at least six usable addresses"
    else if network ≠ network.masked then
      .error "WireGuard network must use its canonical network address"
    else .ok network

theorem parseNetwork_ok {cidr : String} (h : parseNetwork cidr = .ok network) :
    network.bits ≤ 29 ∧ network = network.masked := by
  unfold parseNetwork at h
  split at h
  · cases h
  · split at h
    · cases h
    · split at h
      · cases h
      · cases h
        exact ⟨by omega, not_ne_iff.mp ‹_›⟩

/-- The data of ConfigMap `mspsql-wireguard-addresses`. -/
abbrev Allocations := SortedMap String String

abbrev Answer := Except String (Option Addr)

/-- The loop of `reserveAddress` from a candidate on.  A prefix has fewer candidates than
addresses, which bounds the rounds. -/
def search (network : Prefix) (data : Allocations) : Nat → Option Addr → Option Addr
  | 0, _ => none
  | rounds + 1, candidate =>
    if network.contains (next candidate) then
      if data.entries.any fun entry => entry.2 = text candidate then
        search network data rounds (next candidate)
      else candidate
    else none

/-- One attempt of `reserveAddress`. -/
def reserveAddress (network : Prefix) (uid : String) :
    Option Allocations → Decision Allocations Answer
  | none =>
    let candidate := next (next (some network.addr))
    .write (SortedMap.empty.insert uid (text candidate)) (.ok candidate)
  | some data =>
    let value := (data.get? uid).getD ""
    if value ≠ "" then
      if network.contains (parseAddr value) then .answer (.ok (parseAddr value))
      else .answer (.error ("stored WireGuard allocation for " ++ uid ++ " is invalid"))
    else
      match search network data network.size (next (next (some network.addr))) with
      | some candidate =>
        .write (data.insert uid (text (some candidate))) (.ok (some candidate))
      | none => .answer (.error
          ("WireGuard network " ++ network.text ++ " has no available peer addresses"))

/-- One attempt of `releaseAddress`. -/
def releaseAddress (uid : String) : Option Allocations → Decision Allocations Answer
  | none => .answer (.ok none)
  | some data =>
    match data.get? uid with
    | none => .answer (.ok none)
    | some _ => .write (data.erase uid) (.ok none)

inductive Call where
  | reserve (uid : String)
  | release (uid : String)
deriving DecidableEq, Repr

def Call.decision (network : Prefix) : Call → Option Allocations → Decision Allocations Answer
  | .reserve uid => reserveAddress network uid
  | .release uid => releaseAddress uid

abbrev State := Retry.State Call Allocations Answer

/-- Calls on one network, with the five attempts of `retry.DefaultRetry`. -/
def step (network : Prefix) : State → Event Call Allocations → Option State :=
  Retry.step (Call.decision network) 5

/-! ## Who holds what -/

/-- An address for peers: in the network, and neither its own, nor the hub's, nor the last. -/
structure Usable (network : Prefix) (a : Addr) : Prop where
  inside : network.contains (some a) = true
  ne_network : a ≠ network.addr
  ne_hub : next (some network.addr) ≠ some a
  ne_broadcast : a.val ≠ network.addr.val + network.size - 1

def Holds (data : Option Allocations) (uid : String) (a : Addr) : Prop :=
  ∃ allocations ∈ data, allocations.get? uid = some (text (some a))

/-- Every entry is an address for peers, and no two entries are the same one. -/
structure Apart (network : Prefix) (data : Allocations) : Prop where
  usable : ∀ {uid value}, data.get? uid = some value → ∃ a, value = text (some a) ∧ Usable network a
  apart : ∀ {uid other value}, data.get? uid = some value → data.get? other = some value →
    uid = other

section Network

variable {network : Prefix} (hbits : network.bits ≤ 29) (hmasked : network = network.masked)

include hbits hmasked

omit hbits in
theorem usable_iff : Usable network a ↔
    network.addr.val + 2 ≤ a.val ∧ a.val + 1 < network.addr.val + network.size := by
  constructor
  · intro h
    have hinside := (Prefix.contains_iff hmasked).mp h.inside
    have hnetwork := Fin.val_ne_of_ne h.ne_network
    have hhub := next_eq_some.not.mp h.ne_hub
    have hlast := h.ne_broadcast
    omega
  · intro h
    refine ⟨(Prefix.contains_iff hmasked).mpr (by omega), fun heq => ?_,
      next_eq_some.not.mpr (by omega), by omega⟩
    rw [heq] at h
    omega

theorem first_candidate : ∃ a : Addr, next (next (some network.addr)) = some a ∧
    a.val = network.addr.val + 2 := by
  have hsize := Prefix.eight_le_size hbits
  have hlast := Prefix.last_le (by omega) hmasked
  have h1 : network.addr.val + 1 < 2 ^ 32 := by omega
  have h2 : network.addr.val + 1 + 1 < 2 ^ 32 := by omega
  exact ⟨⟨network.addr.val + 1 + 1, h2⟩, by rw [next_some h1, next_some h2], rfl⟩

/-- The search finds an address for peers that is free, or there is none from the candidate
on. -/
theorem search_spec (data : Allocations) {rounds : Nat} {c : Addr}
    (hc : network.addr.val + 2 ≤ c.val)
    (hrounds : network.addr.val + network.size ≤ c.val + rounds) :
    (∃ a, search network data rounds (some c) = some a ∧ Usable network a ∧
        ∀ uid, data.get? uid ≠ some (text (some a))) ∨
      (search network data rounds (some c) = none ∧
        ∀ a, Usable network a → c.val ≤ a.val → ∃ uid, data.get? uid = some (text (some a))) := by
  induction rounds generalizing c with
  | zero =>
    refine .inr ⟨rfl, fun a ha hle => ?_⟩
    have := (usable_iff hmasked).mp ha
    omega
  | succ rounds ih =>
    have hlast := Prefix.last_le (by omega) hmasked
    rw [search]
    by_cases hnext : c.val + 1 < network.addr.val + network.size
    · have hsome := next_some (a := c) (by omega)
      have hcontains : network.contains (next (some c)) = true := by
        rw [hsome]
        exact (Prefix.contains_iff hmasked).mpr ⟨by simp only; omega, hnext⟩
      rw [if_pos hcontains]
      by_cases hused : data.entries.any (fun entry => entry.2 = text (some c)) = true
      · rw [if_pos hused, hsome]
        obtain ⟨entry, hentry, htext⟩ := any_eq_true.mp hused
        have hholder : data.get? entry.1 = some (text (some c)) := by
          rw [SortedMap.get?_eq_some_iff, ← of_decide_eq_true htext]
          exact hentry
        refine (ih (by simp only; omega) (by simp only; omega)).imp_right fun h => ⟨h.1, ?_⟩
        intro a ha hle
        by_cases heq : a = c
        · exact ⟨entry.1, heq ▸ hholder⟩
        · have hne := Fin.val_ne_of_ne heq
          exact h.2 a ha (by simp only; omega)
      · rw [if_neg hused]
        refine .inl ⟨c, rfl, (usable_iff hmasked).mpr ⟨hc, hnext⟩, fun uid huid => hused ?_⟩
        refine any_eq_true.mpr ⟨(uid, text (some c)), ?_, decide_eq_true rfl⟩
        exact (SortedMap.get?_eq_some_iff _ _ _).mp huid
    · have hcontains : network.contains (next (some c)) ≠ true := by
        intro h
        cases hsome : next (some c) with
        | none => rw [hsome] at h; cases h
        | some b =>
          rw [hsome] at h
          have hb := (Prefix.contains_iff hmasked).mp h
          have hval := next_eq_some.mp hsome
          omega
      rw [if_neg hcontains]
      refine .inr ⟨rfl, fun a ha hle => ?_⟩
      have := (usable_iff hmasked).mp ha
      omega

theorem reserveAddress_cases (uid : String) (hview : ∀ data ∈ view, Apart network data) :
    (∃ a, Holds view uid a ∧ reserveAddress network uid view = .answer (.ok (some a))) ∨
    ((∀ b, ¬ Holds view uid b) ∧ ((∃ a, (∀ other, ¬ Holds view other a) ∧ Usable network a ∧
        reserveAddress network uid view =
          .write ((view.getD ∅).insert uid (text (some a))) (.ok (some a))) ∨
      ((∀ a, Usable network a → ∃ other, other ≠ uid ∧ Holds view other a) ∧
        ∃ message, reserveAddress network uid view = .answer (.error message)))) := by
  obtain ⟨first, hfirst, hval⟩ := first_candidate hbits hmasked
  have hsize := Prefix.eight_le_size hbits
  cases view with
  | none =>
    have hheld : ∀ other b, ¬ Holds none other b := fun _ _ ⟨_, h, _⟩ => nomatch h
    refine .inr ⟨hheld uid, .inl ⟨first, fun other => hheld other first,
      (usable_iff hmasked).mpr (by omega), ?_⟩⟩
    rw [reserveAddress, hfirst]
    rfl
  | some data =>
    have hdata := hview data rfl
    cases hget : data.get? uid with
    | some value =>
      obtain ⟨a, rfl, ha⟩ := hdata.usable hget
      refine .inl ⟨a, ⟨data, rfl, hget⟩, ?_⟩
      simp only [reserveAddress, hget, Option.getD_some, parseAddr_text]
      rw [if_pos (text_ne_empty a), if_pos ha.inside]
    | none =>
      have hheld : ∀ b, ¬ Holds (some data) uid b := by
        rintro b ⟨_, h, hb⟩
        cases h
        rw [hget] at hb
        cases hb
      have hrounds : network.addr.val + network.size ≤ first.val + network.size := by omega
      rcases search_spec hbits hmasked data hval.ge hrounds with
        ⟨a, hsearch, ha, hfree⟩ | ⟨hsearch, hfull⟩
      · refine .inr ⟨hheld, .inl ⟨a, ?_, ha, ?_⟩⟩
        · rintro other ⟨_, h, hother⟩
          cases h
          exact hfree other hother
        · simp only [reserveAddress, hget, hfirst, hsearch]
          rfl
      · refine .inr ⟨hheld, .inr ⟨fun a ha => ?_, ?_⟩⟩
        · have := (usable_iff hmasked).mp ha
          obtain ⟨other, hother⟩ := hfull a ha (by omega)
          refine ⟨other, fun heq => ?_, data, rfl, hother⟩
          exact hheld a ⟨data, rfl, heq ▸ hother⟩
        · simp only [reserveAddress, hget, hfirst, hsearch]
          exact ⟨_, rfl⟩

end Network

theorem holds_some {data : Allocations} :
    Holds (some data) uid a ↔ data.get? uid = some (text (some a)) :=
  ⟨fun ⟨_, h, hget⟩ => Option.some.inj h ▸ hget, fun h => ⟨data, rfl, h⟩⟩

theorem Holds.unique (ha : Holds view uid a) (hb : Holds view uid b) : a = b := by
  obtain ⟨data, rfl, ha⟩ := ha
  rw [holds_some, ha] at hb
  exact text_inj (Option.some.inj hb)

theorem holds_erase {data : Allocations} {other : String} :
    Holds (some (data.erase uid)) other b ↔ uid ≠ other ∧ Holds (some data) other b := by
  rw [holds_some, holds_some, SortedMap.get?_erase]
  by_cases h : uid = other
  · simp
  · simp

theorem holds_insert {other : String} :
    Holds (some ((view.getD ∅).insert uid (text (some a)))) other b ↔
      if uid = other then a = b else Holds view other b := by
  rw [holds_some, SortedMap.get?_insert]
  by_cases h : uid = other
  · rw [if_pos h, if_pos h, Option.some_inj]
    exact ⟨text_inj, fun h => h ▸ rfl⟩
  · rw [if_neg h, if_neg h]
    cases view with
    | none => exact ⟨nofun, fun ⟨_, h, _⟩ => nomatch h⟩
    | some data => exact holds_some.symm

theorem releaseAddress_write {value : Allocations} {result : Answer}
    (h : releaseAddress uid view = .write value result) :
    ∃ data, view = some data ∧ value = data.erase uid ∧ result = .ok none := by
  cases view with
  | none => cases h
  | some data =>
    rw [releaseAddress] at h
    split at h
    · cases h
    · cases h
      exact ⟨data, rfl, rfl, rfl⟩

theorem Apart.decision (hbits : network.bits ≤ 29) (hmasked : network = network.masked) (c : Call)
    (view : Option Allocations) (value : Allocations) (result : Answer)
    (hview : ∀ data ∈ view, Apart network data)
    (h : c.decision network view = .write value result) : Apart network value :=
    by
  cases c with
  | reserve uid =>
    rcases reserveAddress_cases hbits hmasked uid hview with
      ⟨a, -, hcase⟩ | ⟨-, ⟨a, hfree, ha, hcase⟩ | ⟨-, message, hcase⟩⟩
    · cases hcase.symm.trans h
    · cases hcase.symm.trans h
      have hold : ∀ {other value}, (view.getD ∅).get? other = some value →
          ∃ data ∈ view, data.get? other = some value := by
        intro other value hget
        cases view with
        | none => cases hget
        | some data => exact ⟨data, rfl, hget⟩
      have hnew : ∀ {other}, (view.getD ∅).get? other ≠ some (text (some a)) :=
        fun hget => hfree _ (hold hget)
      constructor
      · intro other value hget
        rw [SortedMap.get?_insert] at hget
        split at hget
        · cases hget
          exact ⟨a, rfl, ha⟩
        · obtain ⟨data, hdata, hget⟩ := hold hget
          exact (hview data hdata).usable hget
      · intro x y value hx hy
        rw [SortedMap.get?_insert] at hx hy
        split at hx <;> split at hy
        · exact ‹uid = x›.symm.trans ‹uid = y›
        · cases hx
          exact absurd hy hnew
        · cases hy
          exact absurd hx hnew
        · obtain ⟨data, hdata, hx⟩ := hold hx
          obtain ⟨data', hdata', hy⟩ := hold hy
          cases Option.mem_unique hdata hdata'
          exact (hview data hdata).apart hx hy
    · cases hcase.symm.trans h
  | release uid =>
    obtain ⟨data, rfl, rfl, -⟩ := releaseAddress_write h
    have hdata := hview data rfl
    have hkept : ∀ {other value}, (data.erase uid).get? other = some value →
        data.get? other = some value := by
      intro other value hget
      rw [SortedMap.get?_erase] at hget
      split at hget
      · cases hget
      · exact hget
    exact ⟨fun hget => hdata.usable (hkept hget), fun hx hy => hdata.apart (hkept hx) (hkept hy)⟩

/-! ## What a step does for a UID -/

/-- The step of a machine in which `uid` may get or lose an address. -/
def PutOf (s : State) (e : Event Call Allocations) (c : Call) : Prop :=
  ∃ i lost stage, e = .put i lost ∧ s.calls[i]? = some (c, stage)

/-- A step serves every UID: it keeps what it holds, hands the same address out again, and is
refused an address only when all are held by others. -/
structure Serves (network : Prefix) (s : State) (e : Event Call Allocations) (t : State) :
    Prop where
  /-- An address is lost only by a release for its UID. -/
  kept : ∀ uid a, Holds s.value uid a → Holds t.value uid a ∨ PutOf s e (.release uid)
  /-- An address is taken only by a reserve for its UID. -/
  taken : ∀ uid a, Holds t.value uid a → Holds s.value uid a ∨ PutOf s e (.reserve uid)
  /-- A reserve that reads the address of its UID returns it. -/
  again : ∀ i view uid stage a, e = .get i view → s.calls[i]? = some (.reserve uid, stage) →
    Holds (view.map (·.value)) uid a →
      t.calls[i]? = some (.reserve uid, .returned (.ok (.ok (some a))))
  /-- The address that a reserve returns is the one its UID had when it was read, or has now. -/
  given : ∀ i uid a, t.calls[i]? = some (.reserve uid, .returned (.ok (.ok a))) →
    s.calls[i]? = t.calls[i]? ∨
      ∃ x, a = some x ∧ ((∃ view, e = .get i view ∧ Holds (view.map (·.value)) uid x) ∨
        Holds t.value uid x)
  /-- A reserve fails only if the others hold every address. -/
  full : ∀ i uid message, t.calls[i]? = some (.reserve uid, .returned (.ok (.error message))) →
    s.calls[i]? = t.calls[i]? ∨ ∃ view, e = .get i view ∧ ∀ a, Usable network a →
        ∃ other, other ≠ uid ∧ Holds (view.map (·.value)) other a

theorem Serves.of_quiet {s t : State} {e : Event Call Allocations} (hvalue : t.value = s.value)
    (hget : ∀ i view, e ≠ .get i view)
    (hcalls : ∀ (i : Nat) (c : Call) (r : Answer), t.calls[i]? = some (c, .returned (.ok r)) →
      s.calls[i]? = t.calls[i]?) :
    Serves network s e t where
  kept _ _ h := .inl (hvalue ▸ h)
  taken _ _ h := .inl (hvalue ▸ h)
  again i view _ _ _ h := absurd h (hget i view)
  given i _ _ h := .inl (hcalls i _ _ h)
  full i _ _ h := .inl (hcalls i _ _ h)

section Runs

variable {network : Prefix} (hbits : network.bits ≤ 29) (hmasked : network = network.masked)
  {ok : State → Event Call Allocations → Prop} {s t : State} {e : Event Call Allocations}

include hbits hmasked

open Machine

theorem addresses_apart (hs : Reach (step network) Initial ok s) :
    ∀ object ∈ s.versions, Apart network object.value :=
  values_of_reach (Apart.decision hbits hmasked) hs

theorem serves_get (hapart : ∀ object ∈ s.versions, Apart network object.value)
    {i : Nat} {c : Call} {left : Nat} {view : Option (Versioned Allocations)}
    (hcall : s.calls[i]? = some (c, .reading left))
    (hview : ∀ object ∈ view, object ∈ s.versions) :
    Serves network s (.get i view)
      (s.setStage i c ((c.decision network (view.map (·.value))).stage left view)) := by
  have hread : ∀ data ∈ view.map (·.value), Apart network data := by
    intro data hdata
    obtain ⟨object, hobject, rfl⟩ := Option.map_eq_some_iff.mp hdata
    exact hapart object (hview object hobject)
  refine ⟨fun _ _ h => .inl h, fun _ _ h => .inl h, ?_, ?_, ?_⟩
  · intro j view' uid stage a he hj hold
    cases he
    cases hcall.symm.trans hj
    rw [State.calls_setStage hcall, if_pos rfl, Call.decision]
    rcases reserveAddress_cases hbits hmasked uid hread with ⟨b, hb, hcase⟩ | ⟨hnone, -⟩
    · rw [hcase, hb.unique hold]
      rfl
    · exact absurd hold (hnone a)
  · intro j uid a hj
    rw [State.calls_setStage hcall] at hj ⊢
    split at hj
    · obtain ⟨rfl, hstage⟩ := Prod.mk.inj (Option.some.inj hj)
      rw [Call.decision] at hstage
      rcases reserveAddress_cases hbits hmasked uid hread with
        ⟨b, hb, hcase⟩ | ⟨-, ⟨b, -, -, hcase⟩ | ⟨-, message, hcase⟩⟩
      · rw [hcase] at hstage
        cases hstage
        exact .inr ⟨b, rfl, .inl ⟨view, ‹i = j› ▸ rfl, hb⟩⟩
      · rw [hcase] at hstage
        cases hstage
      · rw [hcase] at hstage
        cases hstage
    · exact .inl (if_neg ‹_›).symm
  · intro j uid message hj
    rw [State.calls_setStage hcall] at hj ⊢
    split at hj
    · obtain ⟨rfl, hstage⟩ := Prod.mk.inj (Option.some.inj hj)
      rw [Call.decision] at hstage
      rcases reserveAddress_cases hbits hmasked uid hread with
        ⟨b, hb, hcase⟩ | ⟨-, ⟨b, -, -, hcase⟩ | ⟨hfull, -⟩⟩
      · rw [hcase] at hstage
        cases hstage
      · rw [hcase] at hstage
        cases hstage
      · exact .inr ⟨view, ‹i = j› ▸ rfl, hfull⟩
    · exact .inl (if_neg ‹_›).symm

theorem serves_put (hapart : ∀ object ∈ s.versions, Apart network object.value)
    {i : Nat} {c : Call} {left : Nat} {view : Option (Versioned Allocations)} {lost : Bool}
    {result : Answer} {object : Versioned Allocations}
    (hcall : s.calls[i]? = some (c, .writing left view object.value result))
    (hdecision : c.decision network s.value = .write object.value result) :
    Serves network s (.put i lost)
      { s.setStage i c (.returned (if lost then .error .api else .ok result)) with
        versions := object :: s.versions } := by
  have hstored : ∀ data ∈ s.value, Apart network data := by
    intro data hdata
    obtain ⟨stored, hhead, rfl⟩ := Option.map_eq_some_iff.mp hdata
    exact hapart stored (mem_of_head? hhead)
  -- only an answer of this call is new
  have hanswer : ∀ {j uid} {answer : Answer},
      (s.setStage i c (.returned (if lost then .error .api else .ok result))).calls[j]? =
        some (.reserve uid, .returned (.ok answer)) →
      (i = j ∧ c = .reserve uid ∧ result = answer) ∨ s.calls[j]? =
        (s.setStage i c (.returned (if lost then .error .api else .ok result))).calls[j]? := by
    intro j uid answer hj
    rw [State.calls_setStage hcall] at hj ⊢
    split at hj
    · obtain ⟨rfl, hstage⟩ := Prod.mk.inj (Option.some.inj hj)
      cases lost
      · cases hstage
        exact .inl ⟨‹i = j›, rfl, rfl⟩
      · cases hstage
    · exact .inr (if_neg ‹_›).symm
  cases c with
  | reserve uid =>
    rcases reserveAddress_cases hbits hmasked uid hstored with
      ⟨b, -, hcase⟩ | ⟨hnone, ⟨a, hfree, ha, hcase⟩ | ⟨-, message, hcase⟩⟩
    · cases hcase.symm.trans hdecision
    · obtain ⟨hvalue, rfl⟩ := Decision.write.inj (hcase.symm.trans hdecision)
      have hholds : ∀ {other b}, Holds (some object.value) other b ↔
          if uid = other then a = b else Holds s.value other b := hvalue ▸ holds_insert
      refine ⟨fun other b hb => .inl (hholds.mpr ?_), fun other b hb => ?_, nofun, ?_, ?_⟩
      · have hne : uid ≠ other := fun heq => hnone b (heq ▸ hb)
        rw [if_neg hne]
        exact hb
      · have hb := hholds.mp hb
        split at hb
        · exact .inr ⟨i, lost, _, rfl, ‹uid = other› ▸ hcall⟩
        · exact .inl hb
      · intro j other x hj
        rcases hanswer hj with ⟨-, hcalls, hx⟩ | hsame
        · cases hcalls
          cases hx
          exact .inr ⟨a, rfl, .inr (hholds.mpr (by rw [if_pos rfl]))⟩
        · exact .inl hsame
      · intro j other message hj
        rcases hanswer hj with ⟨-, -, hx⟩ | hsame
        · cases hx
        · exact .inl hsame
    · cases hcase.symm.trans hdecision
  | release uid =>
    obtain ⟨data, hdata, hvalue, rfl⟩ := releaseAddress_write hdecision
    have hholds : ∀ {other b}, Holds (some object.value) other b ↔
        uid ≠ other ∧ Holds s.value other b := hvalue ▸ hdata ▸ holds_erase
    refine ⟨fun other b hb => ?_, fun other b hb => .inl (hholds.mp hb).2, nofun, ?_, ?_⟩
    · by_cases heq : uid = other
      · exact .inr ⟨i, lost, _, rfl, heq ▸ hcall⟩
      · exact .inl (hholds.mpr ⟨heq, hb⟩)
    · intro j other x hj
      rcases hanswer hj with ⟨-, hcalls, -⟩ | hsame
      · cases hcalls
      · exact .inl hsame
    · intro j other message hj
      rcases hanswer hj with ⟨-, hcalls, -⟩ | hsame
      · cases hcalls
      · exact .inl hsame

theorem serves_of_reach (hs : Reach (step network) Initial ok s)
    (h : step network s e = some t) : Serves network s e t := by
  have hapart := addresses_apart hbits hmasked hs
  cases step_case h with
  | call =>
    refine .of_quiet rfl nofun fun i c r hcall => ?_
    have hlt : i < s.calls.length := by
      by_contra hle
      rw [getElem?_append_right (by omega)] at hcall
      cases mem_singleton.mp (mem_of_getElem? hcall)
    exact (getElem?_append_left hlt).symm
  | failed hcall =>
    refine .of_quiet rfl nofun fun j c r hj => ?_
    rw [State.calls_setStage hcall] at hj ⊢
    split at hj
    · cases hj
    · exact (if_neg ‹_›).symm
  | @refused i lost c left view value result hcall =>
    refine .of_quiet rfl nofun fun j c' r hj => ?_
    rw [State.calls_setStage hcall] at hj ⊢
    split at hj
    · unfold Stage.refused at hj
      split at hj <;> cases hj
    · exact (if_neg ‹_›).symm
  | @read i c left view hcall hview => exact serves_get hbits hmasked hapart hcall hview
  | @written i lost c left view value result object hcall hwrite =>
    obtain ⟨rfl, hdecision⟩ := (sound_of_reach hs).written hcall hwrite
    exact serves_put hbits hmasked hapart hcall hdecision

/-- A call for a UID that keeps its address, once it has begun. -/
def Repeats (a : Addr) (stage : Stage Allocations Answer) : Prop :=
  stage = .reading 5 ∨ stage = .returned (.ok (.ok (some a))) ∨ stage = .returned (.error .api)

/-- A step of a run in which `uid` holds `a` and the stored version is read. -/
def Holding (uid : String) (a : Addr) (s : State) (e : Event Call Allocations) : Prop :=
  Holds s.value uid a ∧ ∀ i view, e = .get i view → view = s.stored

/-- A reserve that begins while its UID holds an address returns this address, unless a request
fails. -/
theorem repeats_of_leads (hs : Reach (step network) Initial ok s)
    (ht : Reach (step network) (· = s) (Holding uid a) t) :
    Reach (step network) Initial anyStep t ∧
      ∀ i stage, s.calls.length ≤ i → t.calls[i]? = some (.reserve uid, stage) →
        Repeats a stage := by
  induction ht with
  | start heq =>
    refine ⟨heq ▸ hs.mono fun _ _ _ => trivial, fun i stage hi hcall => ?_⟩
    rw [heq] at hcall
    have hlt := (List.getElem?_eq_some_iff.mp hcall).1
    omega
  | @next u v e _ hok hstep ih =>
    refine ⟨.next ih.1 trivial hstep, fun i stage hi hcall => ?_⟩
    have hagain := (serves_of_reach hbits hmasked ih.1 hstep).again
    have hset : ∀ {j c old new}, u.calls[j]? = some old →
        (u.setStage j c new).calls[i]? = some (.reserve uid, stage) →
        (j = i ∧ c = .reserve uid ∧ new = stage) ∨ Repeats a stage := by
      intro j c old new hold hnew
      rw [State.calls_setStage hold] at hnew
      split at hnew
      · obtain ⟨rfl, rfl⟩ := Prod.mk.inj (Option.some.inj hnew)
        exact .inl ⟨‹j = i›, rfl, rfl⟩
      · exact .inr (ih.2 i stage hi hnew)
    -- a call that repeats does not write
    have hwriting : ∀ {left view value result},
        u.calls[i]? ≠ some (.reserve uid, .writing left view value result) := by
      intro left view value result h
      rcases ih.2 i _ hi h with h | h | h <;> cases h
    cases step_case hstep with
    | @call c =>
      by_cases hlt : i < u.calls.length
      · rw [getElem?_append_left hlt] at hcall
        exact ih.2 i stage hi hcall
      · rw [getElem?_append_right (by omega)] at hcall
        cases mem_singleton.mp (mem_of_getElem? hcall)
        exact .inl rfl
    | @read j c left view hj hview =>
      rcases hset hj hcall with ⟨rfl, rfl, -⟩ | h
      · have hold : Holds (view.map (·.value)) uid a := hok.2 j view rfl ▸ hok.1
        have hanswer := hagain j view uid _ a rfl hj hold
        cases hcall.symm.trans hanswer
        exact .inr (.inl rfl)
      · exact h
    | failed hj =>
      rcases hset hj hcall with ⟨-, -, rfl⟩ | h
      · exact .inr (.inr rfl)
      · exact h
    | refused hj | written hj hwrite =>
      rcases hset hj hcall with ⟨rfl, rfl, -⟩ | h
      · exact absurd hj hwriting
      · exact h

end Runs

open Machine

/-- For every network that is accepted and every interleaving of
calls, the allocations stay apart, every step serves the UIDs, and a reserve for a UID that still
holds an address returns it. -/
theorem allocations_sound {cidr : String} {network : Prefix}
    (hparse : parseNetwork cidr = .ok network) {s : State}
    (hs : Reach (step network) Initial anyStep s) :
    (∀ data ∈ s.value, Apart network data) ∧
    (∀ e t, step network s e = some t → Serves network s e t) ∧
    ∀ uid a t, Reach (step network) (· = s) (Holding uid a) t →
      ∀ i stage, s.calls.length ≤ i → t.calls[i]? = some (.reserve uid, stage) →
        Repeats a stage := by
  obtain ⟨hbits, hmasked⟩ := parseNetwork_ok hparse
  refine ⟨fun data hdata => ?_, fun e t => serves_of_reach hbits hmasked hs,
    fun uid a t ht => (repeats_of_leads hbits hmasked hs ht).2⟩
  obtain ⟨stored, hhead, rfl⟩ := Option.map_eq_some_iff.mp hdata
  exact addresses_apart hbits hmasked hs stored (mem_of_head? hhead)

def defaultNetwork : Prefix := ⟨⟨184418304, by decide⟩, 16⟩

/-- Two sites register, and both read before the first one writes. -/
def registrations : List (State → Event Call Allocations) :=
  [fun _ => .call (.reserve "site-a"), fun _ => .call (.reserve "site-b"),
    fun s => .get 0 s.stored, fun s => .get 1 s.stored, fun _ => .put 0 false,
    fun _ => .put 1 false, fun s => .get 1 s.stored, fun _ => .put 1 false]

def registered : State :=
  reached (step defaultNetwork) anyStep {} registrations

def TwoPeers (s : State) : Prop :=
  s.value.map (·.entries) = some [("site-a", "10.254.0.2"), ("site-b", "10.254.0.3")]
deriving Decidable

theorem registered_reach : Reach (step defaultNetwork) Initial anyStep registered ∧
      TwoPeers registered :=
  played rfl (by decide)

theorem parse_default : parseNetwork "10.254.0.0/16" = .ok defaultNetwork := rfl

theorem registered_sound : parseNetwork "10.254.0.0/16" = .ok defaultNetwork ∧
    TwoPeers registered ∧ ∀ data ∈ registered.value, Apart defaultNetwork data :=
  ⟨parse_default, registered_reach.2, (allocations_sound parse_default registered_reach.1).1⟩

end Mspsql.WireGuard
