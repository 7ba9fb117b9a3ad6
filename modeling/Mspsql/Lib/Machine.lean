import Mathlib.Logic.Basic

/-!
# Machines and their runs

A machine takes one event at a time; an event that is not possible in a state has
no successor.  Everything a component does not decide itself (what it reads, when a
call fails, which message arrives) is part of the event, so that a run is a list of
events and a concrete run can be computed.

`Reach` is the set of states reached by runs all of whose steps meet a condition on
the state before the step and the event taken.
-/

namespace Machine

universe u v

variable {σ : Type u} {ε : Type v}

/-- The states reached from an initial state by steps that all meet `ok`. -/
inductive Reach (step : σ → ε → Option σ) (init : σ → Prop) (ok : σ → ε → Prop) : σ → Prop where
  | start {s : σ} : init s → Reach step init ok s
  | next {s t : σ} {e : ε} : Reach step init ok s → ok s e → step s e = some t →
      Reach step init ok t

def anyStep (_ : σ) (_ : ε) : Prop := True
deriving Decidable

/-- A run leads from one state to another. -/
def Leads (step : σ → ε → Option σ) (s : σ) : σ → Prop := Reach step (· = s) anyStep

/-- Run a script, whose events may depend on the state they are taken in, giving up at
the first event that is impossible or does not meet `ok`. -/
def play (step : σ → ε → Option σ) (ok : σ → ε → Prop) [∀ s e, Decidable (ok s e)] :
    σ → List (σ → ε) → Option σ
  | s, [] => some s
  | s, event :: rest =>
    if ok s (event s) then
      match step s (event s) with
      | some t => play step ok t rest
      | none => none
    else none

/-- The state that a script leads to. -/
def reached (step : σ → ε → Option σ) (ok : σ → ε → Prop) [∀ s e, Decidable (ok s e)] (s : σ)
    (script : List (σ → ε)) : σ :=
  (play step ok s script).getD s

section Rules

variable {step : σ → ε → Option σ} {init : σ → Prop} {ok : σ → ε → Prop}

/-- The invariant rule: what holds initially and is kept by every step that meets the
condition holds in every state reached. -/
theorem Reach.invariant {I : σ → Prop} (h0 : ∀ s, init s → I s)
    (hs : ∀ s e t, I s → ok s e → step s e = some t → I t)
    {s : σ} (h : Reach step init ok s) : I s := by
  induction h with
  | start hi => exact h0 _ hi
  | next _ hok hst ih => exact hs _ _ _ ih hok hst

/-- The invariant rule when an invariant `J` of the same runs is already known. -/
theorem Reach.invariant_of {I J : σ → Prop} (hJ : ∀ s, Reach step init ok s → J s)
    (h0 : ∀ s, init s → I s)
    (hs : ∀ s e t, J s → I s → ok s e → step s e = some t → I t)
    {s : σ} (h : Reach step init ok s) : I s := by
  induction h with
  | start hi => exact h0 _ hi
  | next hr hok hst ih => exact hs _ _ _ (hJ _ hr) ih hok hst

theorem Reach.mono {ok' : σ → ε → Prop} (himp : ∀ s e, ok s e → ok' s e)
    {s : σ} (h : Reach step init ok s) : Reach step init ok' s := by
  induction h with
  | start hi => exact .start hi
  | next _ hok hst ih => exact .next ih (himp _ _ hok) hst

theorem Leads.refl (step : σ → ε → Option σ) (s : σ) : Leads step s s := .start rfl

theorem Leads.next {s t u : σ} {e : ε} (h : Leads step s t) (hst : step t e = some u) :
    Leads step s u :=
  Reach.next h trivial hst

theorem Leads.trans {s t u : σ} (h : Leads step s t) (h' : Leads step t u) : Leads step s u := by
  induction h' with
  | start heq => exact heq ▸ h
  | next _ _ hst ih => exact ih.next hst

theorem Reach.play [∀ s e, Decidable (ok s e)] {s t : σ} {script : List (σ → ε)}
    (hs : Reach step init ok s) (h : Machine.play step ok s script = some t) :
    Reach step init ok t := by
  induction script generalizing s with
  | nil =>
    rw [Machine.play, Option.some.injEq] at h
    exact h ▸ hs
  | cons event rest ih =>
    rw [Machine.play] at h
    split at h
    · rename_i hok
      split at h
      · rename_i hu
        exact ih (.next hs hok hu) h
      · cases h
    · cases h

/-- A script that goes through from an initial state ends in a reached state, and what was
computed of that state holds of it. -/
theorem played [∀ s e, Decidable (ok s e)] {P : σ → Prop} [DecidablePred P] {s : σ}
    {script : List (σ → ε)} (h0 : init s)
    (h : (play step ok s script).any (fun t => decide (P t)) = true) :
    Reach step init ok (reached step ok s script) ∧ P (reached step ok s script) := by
  obtain ⟨t, ht, hp⟩ := (Option.any_eq_true _ _).mp h
  rw [reached, ht]
  exact ⟨(Reach.start h0).play ht, of_decide_eq_true hp⟩

end Rules

end Machine
