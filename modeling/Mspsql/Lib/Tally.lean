import Mathlib.Data.List.Dedup
import Mathlib.Data.List.Perm.Basic

/-!
# Votes counted over lists

Several voters each hold a list of what they vote for.  Counting a candidate over all lists
together says how many voters have it, as long as no list has it twice.
-/

namespace Tally

open List

variable {α β : Type}

/-- No candidate gets more votes than there are voters. -/
theorem count_flatMap_le_length [DecidableEq β] {voters : List α} {votes : α → List β}
    (h : ∀ v ∈ voters, (votes v).Nodup) (b : β) :
    (voters.flatMap votes).count b ≤ voters.length := by
  induction voters with
  | nil => simp
  | cons v rest ih =>
    have hone : (votes v).count b ≤ 1 := nodup_iff_count_le_one.mp (h v mem_cons_self) b
    have hrest := ih fun w hw => h w (mem_cons_of_mem v hw)
    rw [flatMap_cons, count_append, length_cons]
    omega

/-- A candidate gets the votes of all exactly when it is in everyone's list. -/
theorem count_flatMap_eq_length_iff [DecidableEq β] {voters : List α} {votes : α → List β}
    (h : ∀ v ∈ voters, (votes v).Nodup) (b : β) :
    (voters.flatMap votes).count b = voters.length ↔ ∀ v ∈ voters, b ∈ votes v := by
  induction voters with
  | nil => simp
  | cons v rest ih =>
    have hnodup : ∀ w ∈ rest, (votes w).Nodup := fun w hw => h w (mem_cons_of_mem v hw)
    have hone : (votes v).count b ≤ 1 := nodup_iff_count_le_one.mp (h v mem_cons_self) b
    have hle := count_flatMap_le_length hnodup b
    have hmem : b ∈ votes v ↔ 0 < (votes v).count b := count_pos_iff.symm
    rw [flatMap_cons, count_append, length_cons, forall_mem_cons, ← ih hnodup, hmem]
    omega

/-- All voters agree exactly when one distinct vote is left. -/
theorem dedup_eq_singleton_iff [DecidableEq β] {l : List β} (hne : l ≠ []) {b : β} :
    l.dedup = [b] ↔ ∀ x ∈ l, x = b := by
  constructor
  · intro h x hx
    have hmem : x ∈ l.dedup := mem_dedup.mpr hx
    rw [h] at hmem
    exact mem_singleton.mp hmem
  · intro h
    obtain ⟨x, rest, rfl⟩ := exists_cons_of_ne_nil hne
    have hall : x :: rest = List.replicate (rest.length + 1) b :=
      eq_replicate_of_mem h
    rw [hall, replicate_dedup (Nat.succ_ne_zero _)]

/-- Where `p` is only found within `q`, as many elements have `p` as have `q` exactly when all
of those with `q` have `p`. -/
theorem length_filter_eq_iff {p q : α → Bool} {l : List α} (h : ∀ x ∈ l, p x = true → q x = true) :
    (l.filter p).length = (l.filter q).length ↔ ∀ x ∈ l, q x = true → p x = true := by
  have hnested : l.filter p = (l.filter q).filter p := by
    rw [filter_filter]
    refine filter_congr fun x hx => ?_
    by_cases hp : p x = true
    · simp [h x hx hp]
    · simp [hp]
  rw [hnested, length_filter_eq_length_iff]
  simp only [mem_filter, and_imp]

end Tally
