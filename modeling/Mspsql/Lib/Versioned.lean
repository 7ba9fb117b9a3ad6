import Mathlib.Logic.Basic

/-!
# Stored objects with versions

An object that is stored under optimistic concurrency: a writer names the version it has
read, and the write is refused when another write came first.  A writer that has found no
object creates one, which is refused when there is one by then.

`Seen P` is what a writer knows while it works: unless it is refused, the object it writes
over is the one it read, and that one met `P`.
-/

universe u

structure Versioned (α : Type u) where
  version : Nat
  value : α
deriving DecidableEq

namespace Versioned

variable {α : Type u}

inductive WriteOutcome (α : Type u) where
  | written (object : Versioned α)
  | conflict
  | alreadyExists

/-- Write `value` over the version that was seen. -/
def write (stored : Option (Versioned α)) (seen : Option Nat) (value : α) : WriteOutcome α :=
  match seen, stored with
  | none, none => .written ⟨1, value⟩
  | none, some _ => .alreadyExists
  | some _, none => .conflict
  | some v, some object => if object.version = v then .written ⟨v + 1, value⟩ else .conflict

/-- A version that was seen is not above the stored one; if it is that one, it met `P`. -/
def Seen (P : α → Prop) (stored : Option (Versioned α)) (seen : Option Nat) : Prop :=
  ∀ v, seen = some v → ∃ object, stored = some object ∧ v ≤ object.version ∧
    (object.version = v → P object.value)

variable {P : α → Prop} {stored : Option (Versioned α)} {seen : Option Nat} {value : α}
  {object : Versioned α}

theorem seen_none : Seen P stored none := nofun

theorem seen_read (h : P object.value) : Seen P (some object) (some object.version) := by
  intro v hv
  cases hv
  exact ⟨object, rfl, Nat.le_refl _, fun _ => h⟩

theorem write_cases (h : write stored seen value = .written object) :
    object.value = value ∧ seen = stored.map (·.version) ∧
      ∀ old ∈ stored, object.version = old.version + 1 := by
  unfold write at h
  split at h
  · cases h
    exact ⟨rfl, rfl, nofun⟩
  · cases h
  · cases h
  split at h
  · rename_i hversion
    cases h
    refine ⟨rfl, congrArg some hversion.symm, fun old' hold => ?_⟩
    cases hold
    rw [hversion]
  · cases h

theorem write_over {old : Versioned α} (h : write (some old) seen value = .written object)
    (hseen : Seen P (some old) seen) : P old.value := by
  obtain ⟨-, hversion, -⟩ := write_cases h
  obtain ⟨_, hsame, -, hmet⟩ := hseen _ hversion
  cases hsame
  exact hmet rfl

theorem seen_write {other : Option Nat} (h : write stored seen value = .written object)
    (hother : Seen P stored other) : Seen P (some object) other := by
  intro v hv
  obtain ⟨old, hold, hle, -⟩ := hother v hv
  obtain ⟨-, -, hversion⟩ := write_cases h
  have hnext := hversion old hold
  exact ⟨object, rfl, by omega, by omega⟩

end Versioned
