import Mspsql.Lib.Machine
import Mspsql.Lib.Versioned
import Mathlib.Data.List.Basic

/-!
# Read, decide, write, and try again

Any number of calls work on one versioned object at the same time.  A call reads a version of
the object, not always the newest, decides what to do, and either answers or writes a new value
over the version it read.  A write that comes too late is refused and the call starts again, a
bounded number of times.  Any request may fail, a write also after it took place.

No call undoes what another one wrote: a write that takes place is what its call decides on the
object it replaces (`Sound.written`).
-/

namespace Retry

open List

universe u v w

/-- What a call does with what it read: it answers, or it writes and then answers. -/
inductive Decision (α : Type u) (ρ : Type v) where
  | answer (result : ρ)
  | write (value : α) (result : ρ)

/-- Why a call ends without the answer it decided on. -/
inductive Failure where
  | api
  | conflict
deriving DecidableEq, Repr

inductive Stage (α : Type u) (ρ : Type v) where
  | reading (left : Nat)
  | writing (left : Nat) (view : Option (Versioned α)) (value : α) (result : ρ)
  | returned (outcome : Except Failure ρ)

/-- Every version that was stored, the newest first, and the calls in the order they began. -/
structure State (κ : Type w) (α : Type u) (ρ : Type v) where
  versions : List (Versioned α) := []
  calls : List (κ × Stage α ρ) := []

inductive Event (κ : Type w) (α : Type u) where
  | call (c : κ)
  | get (i : Nat) (view : Option (Versioned α))
  /-- A request fails and has no effect. -/
  | fail (i : Nat)
  /-- A write; the answer to it may be lost. -/
  | put (i : Nat) (lost : Bool)

variable {κ : Type w} {α : Type u} {ρ : Type v}

namespace State

variable (s : State κ α ρ)

def stored : Option (Versioned α) := s.versions.head?

def value : Option α := s.stored.map (·.value)

def setStage (i : Nat) (c : κ) (stage : Stage α ρ) : State κ α ρ :=
  { s with calls := s.calls.set i (c, stage) }

end State

def Decision.stage (left : Nat) (view : Option (Versioned α)) : Decision α ρ → Stage α ρ
  | .answer result => .returned (.ok result)
  | .write value result => .writing left view value result

def Stage.refused (left : Nat) : Stage α ρ :=
  if left ≤ 1 then .returned (.error .conflict) else .reading (left - 1)

section Step

variable [DecidableEq α] (decision : κ → Option α → Decision α ρ) (attempts : Nat)

def step (s : State κ α ρ) : Event κ α → Option (State κ α ρ)
  | .call c => some { s with calls := s.calls ++ [(c, .reading attempts)] }
  | .get i view =>
    match s.calls[i]? with
    | some (c, .reading left) =>
      if ∀ object ∈ view, object ∈ s.versions then
        some (s.setStage i c ((decision c (view.map (·.value))).stage left view))
      else none
    | _ => none
  | .fail i =>
    match s.calls[i]? with
    | some (c, .reading _) | some (c, .writing _ _ _ _) =>
      some (s.setStage i c (.returned (.error .api)))
    | _ => none
  | .put i lost =>
    match s.calls[i]? with
    | some (c, .writing left view value result) =>
      match Versioned.write s.stored (view.map (·.version)) value with
      | .written object => some
          { s.setStage i c (.returned (if lost then .error .api else .ok result)) with
            versions := object :: s.versions }
      | .conflict | .alreadyExists => some (s.setStage i c (.refused left))
    | _ => none

end Step

inductive StepCase (decision : κ → Option α → Decision α ρ) (attempts : Nat)
    (s : State κ α ρ) : Event κ α → State κ α ρ → Prop where
  | call {c : κ} : StepCase decision attempts s (.call c)
      { s with calls := s.calls ++ [(c, .reading attempts)] }
  | read {i : Nat} {c : κ} {left : Nat} {view : Option (Versioned α)}
      (hcall : s.calls[i]? = some (c, .reading left))
      (hview : ∀ object ∈ view, object ∈ s.versions) :
      StepCase decision attempts s (.get i view)
        (s.setStage i c ((decision c (view.map (·.value))).stage left view))
  | failed {i : Nat} {c : κ} {stage : Stage α ρ} (hcall : s.calls[i]? = some (c, stage)) :
      StepCase decision attempts s (.fail i) (s.setStage i c (.returned (.error .api)))
  | refused {i : Nat} {lost : Bool} {c : κ} {left : Nat} {view : Option (Versioned α)}
      {value : α} {result : ρ} (hcall : s.calls[i]? = some (c, .writing left view value result)) :
      StepCase decision attempts s (.put i lost) (s.setStage i c (.refused left))
  | written {i : Nat} {lost : Bool} {c : κ} {left : Nat} {view : Option (Versioned α)}
      {value : α} {result : ρ} {object : Versioned α}
      (hcall : s.calls[i]? = some (c, .writing left view value result))
      (hwrite : Versioned.write s.stored (view.map (·.version)) value = .written object) :
      StepCase decision attempts s (.put i lost)
        { s.setStage i c (.returned (if lost then .error .api else .ok result)) with
          versions := object :: s.versions }

variable {decision : κ → Option α → Decision α ρ} {attempts : Nat} {s t : State κ α ρ}
  {e : Event κ α}

theorem State.calls_setStage {i j : Nat} {c : κ} {stage : Stage α ρ} {old : κ × Stage α ρ}
    (hcall : s.calls[i]? = some old) :
    (s.setStage i c stage).calls[j]? = if i = j then some (c, stage) else s.calls[j]? := by
  have hlt := (List.getElem?_eq_some_iff.mp hcall).1
  rw [State.setStage, getElem?_set, if_pos hlt]

structure Sound (decision : κ → Option α → Decision α ρ) (s : State κ α ρ) : Prop where
  ordered : s.versions.Pairwise fun new old => old.version < new.version
  writing : ∀ {c left view value result}, (c, .writing left view value result) ∈ s.calls →
    decision c (view.map (·.value)) = .write value result ∧ ∀ object ∈ view, object ∈ s.versions

namespace Sound

theorem setStage (hs : Sound decision s) {i : Nat} {c : κ} {stage : Stage α ρ}
    (hstage : ∀ {left view value result}, stage = .writing left view value result →
      decision c (view.map (·.value)) = .write value result ∧
        ∀ object ∈ view, object ∈ s.versions) :
    Sound decision (s.setStage i c stage) where
  ordered := hs.ordered
  writing := by
    intro c' left view value result hmem
    rcases mem_or_eq_of_mem_set hmem with hmem | heq
    · exact hs.writing hmem
    · cases heq
      exact hstage rfl

theorem written (hs : Sound decision s) {i : Nat} {c : κ} {left : Nat}
    {view : Option (Versioned α)} {value : α} {result : ρ} {object : Versioned α}
    (hcall : s.calls[i]? = some (c, .writing left view value result))
    (hwrite : Versioned.write s.stored (view.map (·.version)) value = .written object) :
    object.value = value ∧ decision c s.value = .write value result := by
  obtain ⟨hvalue, hseen, -⟩ := Versioned.write_cases hwrite
  obtain ⟨hdecision, hview⟩ := hs.writing (mem_of_getElem? hcall)
  -- a version determines the object, so the call has read the stored one
  have hsame : view = s.stored := by
    unfold State.stored at hseen ⊢
    cases hvers : s.versions with
    | nil =>
      rw [hvers] at hseen
      exact Option.map_eq_none_iff.mp hseen
    | cons newest older =>
      rw [hvers, head?_cons, Option.map_some] at hseen
      obtain ⟨seen, hsome, heq⟩ := Option.map_eq_some_iff.mp hseen
      have hmem := hview seen hsome
      rw [hvers] at hmem
      rcases mem_cons.mp hmem with rfl | hold
      · exact hsome
      · have hordered := hs.ordered
        rw [hvers] at hordered
        have hlt := (pairwise_cons.mp hordered).1 seen hold
        omega
  rw [hsame] at hdecision
  exact ⟨hvalue, hdecision⟩

end Sound

variable [DecidableEq α]

theorem step_case (h : step decision attempts s e = some t) : StepCase decision attempts s e t := by
  cases e with
  | call c =>
    cases h
    exact .call
  | get i view =>
    rw [step] at h
    split at h
    · rename_i hcall
      split at h
      · rename_i hview
        cases h
        exact .read hcall hview
      · cases h
    · cases h
  | fail i =>
    rw [step] at h
    split at h
    · rename_i hcall
      cases h
      exact .failed hcall
    · rename_i hcall
      cases h
      exact .failed hcall
    · cases h
  | put i lost =>
    rw [step] at h
    split at h
    · rename_i hcall
      split at h
      · rename_i hwrite
        cases h
        exact .written hcall hwrite
      · cases h
        exact .refused hcall
      · cases h
        exact .refused hcall
    · cases h

theorem Sound.next (hs : Sound decision s) (h : step decision attempts s e = some t) :
    Sound decision t := by
  cases step_case h with
  | call =>
    refine ⟨hs.ordered, fun hmem => ?_⟩
    rcases mem_append.mp hmem with hmem | hmem
    · exact hs.writing hmem
    · cases mem_singleton.mp hmem
  | @read i c left view hcall hview =>
    apply hs.setStage
    intro left' view' value result hstage
    cases hdecision : decision c (view.map (·.value)) with
    | answer => rw [hdecision] at hstage; cases hstage
    | write =>
      rw [hdecision] at hstage
      cases hstage
      exact ⟨hdecision, hview⟩
  | failed => exact hs.setStage fun h => nomatch h
  | @refused i lost c left =>
    apply hs.setStage
    intro left' view' value' result' hstage
    unfold Stage.refused at hstage
    split at hstage <;> cases hstage
  | @written i lost c left view value result object hcall hwrite =>
    obtain ⟨-, -, hversion⟩ := Versioned.write_cases hwrite
    have hset : Sound decision
        (s.setStage i c (.returned (if lost then .error .api else .ok result))) :=
      hs.setStage fun h => nomatch h
    refine ⟨pairwise_cons.mpr ⟨fun old hold => ?_, hs.ordered⟩, fun hmem => ?_⟩
    · -- the newest of the older versions is one less
      cases hvers : s.versions with
      | nil => rw [hvers] at hold; cases hold
      | cons newest older =>
        have hnext := hversion newest (by rw [State.stored, hvers]; rfl)
        have hordered := hs.ordered
        rw [hvers] at hold hordered
        rcases mem_cons.mp hold with rfl | hold
        · omega
        · have hlt := (pairwise_cons.mp hordered).1 old hold
          omega
    · obtain ⟨hdecision, hview⟩ := hset.writing hmem
      exact ⟨hdecision, fun object hobject => mem_cons_of_mem _ (hview object hobject)⟩

variable {ok : State κ α ρ → Event κ α → Prop}

def Initial (s : State κ α ρ) : Prop := s = {}

theorem sound_of_reach (hs : Machine.Reach (step decision attempts) Initial ok s) :
    Sound decision s :=
  hs.invariant (fun _ h => by rw [h]; exact ⟨.nil, nofun⟩) fun _ _ _ hs _ h => hs.next h

/-- What every call keeps when it writes holds of every version. -/
theorem values_of_reach {P : α → Prop}
    (hP : ∀ c view value result, (∀ old ∈ view, P old) → decision c view = .write value result →
      P value) (hs : Machine.Reach (step decision attempts) Initial ok s) :
    ∀ object ∈ s.versions, P object.value := by
  have hinit : ∀ s : State κ α ρ, Initial s → ∀ object ∈ s.versions, P object.value := by
    intro s hs
    rw [hs]
    exact nofun
  refine hs.invariant_of (fun _ => sound_of_reach) hinit ?_
  intro s e t hsound hvalues _ h
  cases step_case h with
  | call | read | failed | refused => exact hvalues
  | written hcall hwrite =>
    obtain ⟨hvalue, hdecision⟩ := hsound.written hcall hwrite
    refine forall_mem_cons.mpr ⟨?_, hvalues⟩
    rw [hvalue]
    refine hP _ _ _ _ (fun old hold => ?_) hdecision
    obtain ⟨stored, hstored, rfl⟩ := Option.map_eq_some_iff.mp hold
    exact hvalues stored (mem_of_head? hstored)

end Retry
