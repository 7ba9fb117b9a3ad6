import Mathlib.Data.List.Nodup

/-!
# Status conditions

The condition list of a Kubernetes status and the three library operations on it:
`SetStatusCondition` overwrites the condition of the same type in place or appends a new
one, `FindStatusCondition` returns the first condition of a type, and a condition is true
when it is present with status `True`.  The transition time of a condition is not kept.
-/

inductive ConditionStatus where
  | «true»
  | «false»
  | unknown
deriving DecidableEq, Repr

structure Condition where
  type : String
  status : ConditionStatus
  observedGeneration : Nat := 0
  reason : String
  message : String
deriving DecidableEq, Repr

namespace Condition

open List

/-- `meta.FindStatusCondition`. -/
def find? (conditions : List Condition) (type : String) : Option Condition :=
  conditions.find? (fun c => c.type = type)

/-- `meta.SetStatusCondition`. -/
def set : List Condition → Condition → List Condition
  | [], c => [c]
  | d :: rest, c => if d.type = c.type then c :: rest else d :: set rest c

def isTrue (conditions : List Condition) (type : String) : Bool :=
  match find? conditions type with
  | some c => c.status = .true
  | none => false

@[simp] theorem find?_nil (type : String) : find? [] type = none := rfl

theorem find?_cons (d : Condition) (rest : List Condition) (type : String) :
    find? (d :: rest) type = if d.type = type then some d else find? rest type := by
  rw [find?]
  by_cases h : d.type = type
  · simp [h]
  · simp [h, find?]

theorem find?_set (conditions : List Condition) (c : Condition) (type : String) :
    find? (set conditions c) type = if c.type = type then some c else find? conditions type := by
  induction conditions with
  | nil => simp [set, find?_cons]
  | cons d rest ih =>
    rw [set]
    split
    · rename_i hd
      rw [find?_cons, find?_cons]
      by_cases h : c.type = type
      · simp [h]
      · simp [h, hd]
    · rename_i hd
      rw [find?_cons, ih, find?_cons]
      by_cases h : c.type = type
      · have : d.type ≠ type := fun h' => hd (h'.trans h.symm)
        simp [this]
      · simp [h]

theorem isTrue_set (conditions : List Condition) (c : Condition) (type : String) :
    isTrue (set conditions c) type =
      if c.type = type then decide (c.status = .true) else isTrue conditions type := by
  rw [isTrue, find?_set]
  by_cases h : c.type = type
  · simp [h]
  · simp only [h]
    rfl

variable {conditions updates : List Condition}

theorem mem_of_isTrue {type : String} (h : isTrue conditions type = true) :
    ∃ c ∈ conditions, c.type = type ∧ c.status = .true := by
  unfold isTrue at h
  split at h
  · rename_i c hc
    exact ⟨c, mem_of_find?_eq_some hc, by simpa using find?_some hc, by simpa using h⟩
  · cases h

theorem mem_set {c d : Condition} (h : d ∈ set conditions c) : d = c ∨ d ∈ conditions := by
  induction conditions with
  | nil => simpa [set] using h
  | cons e rest ih =>
    rw [set] at h
    split at h
    · exact (mem_cons.mp h).imp id (mem_cons_of_mem e)
    rcases mem_cons.mp h with rfl | h
    · exact .inr mem_cons_self
    · exact (ih h).imp id (mem_cons_of_mem e)

theorem nodup_set {c : Condition} (h : (conditions.map (·.type)).Nodup) :
    ((set conditions c).map (·.type)).Nodup := by
  induction conditions with
  | nil => exact nodup_singleton _
  | cons d rest ih =>
    rw [set]
    split
    · rename_i hd
      rw [map_cons, ← hd]
      exact h
    · rename_i hd
      rw [map_cons, nodup_cons] at h
      refine nodup_cons.mpr ⟨fun hmem => ?_, ih h.2⟩
      obtain ⟨e, he, htype⟩ := mem_map.mp hmem
      rcases mem_set he with rfl | he
      · exact hd htype.symm
      · exact h.1 (mem_map.mpr ⟨e, he, htype⟩)

theorem mem_foldl_set {d : Condition} (h : d ∈ updates.foldl set conditions) :
    d ∈ updates ∨ d ∈ conditions := by
  induction updates generalizing conditions with
  | nil => exact .inr h
  | cons c rest ih =>
    rcases ih h with h | h
    · exact .inl (mem_cons_of_mem c h)
    rcases mem_set h with rfl | h
    · exact .inl mem_cons_self
    · exact .inr h

def Never (type : String) (conditions : List Condition) : Prop :=
  ∀ c ∈ conditions, c.type = type → c.status ≠ .true

namespace Never

variable {type : String} {conditions : List Condition}

theorem isTrue (h : Never type conditions) : isTrue conditions type = false := by
  rw [Bool.eq_false_iff]
  intro htrue
  obtain ⟨c, hc, htype, hstatus⟩ := mem_of_isTrue htrue
  exact h c hc htype hstatus

theorem of_mem {after : List Condition} {types : List String} (h : Never type conditions)
    (htypes : type ∉ types) (hmem : ∀ c ∈ after, c.type ∈ types ∨ c ∈ conditions) :
    Never type after := by
  intro c hc htype
  rcases hmem c hc with hin | hin
  · exact absurd (htype ▸ hin) htypes
  · exact h c hin htype

theorem set {c : Condition} (h : Never type conditions)
    (hc : c.type = type → c.status ≠ .true) : Never type (set conditions c) := by
  intro d hd
  rcases mem_set hd with rfl | hd
  · exact hc
  · exact h d hd

theorem foldl_set (h : Never type conditions) (hupdates : Never type updates) : Never type
    (updates.foldl Condition.set conditions) := by
  intro c hc
  rcases mem_foldl_set hc with hc | hc
  · exact hupdates c hc
  · exact h c hc

end Never

/-- Setting conditions of distinct types: what was set is found, and otherwise what was
there before. -/
theorem find?_foldl_set (h : (updates.map (·.type)).Nodup) (type : String) :
    find? (updates.foldl set conditions) type =
      (find? updates type).or (find? conditions type) := by
  induction updates generalizing conditions with
  | nil => rfl
  | cons c rest ih =>
    rw [map_cons, nodup_cons] at h
    rw [foldl_cons, ih h.2, find?_set, find?_cons]
    split
    · rename_i htype
      have hnone : find? rest type = none := by
        refine find?_eq_none.mpr fun d hd heq => h.1 ?_
        exact mem_map.mpr ⟨d, hd, (of_decide_eq_true heq).trans htype.symm⟩
      rw [hnone]
      rfl
    · rfl

theorem find?_foldl_set_of_ne {type : String} (h : ∀ c ∈ updates, c.type ≠ type) :
    find? (updates.foldl set conditions) type = find? conditions type := by
  induction updates generalizing conditions with
  | nil => rfl
  | cons c rest ih =>
    rw [foldl_cons, ih fun d hd => h d (mem_cons_of_mem c hd), find?_set,
      if_neg (h c mem_cons_self)]

theorem find?_foldl_set_reverse (conditions updates : List Condition) (type : String) :
    find? (updates.foldl set conditions) type =
      (find? updates.reverse type).or (find? conditions type) := by
  induction updates generalizing conditions with
  | nil => rfl
  | cons c rest ih =>
    rw [foldl_cons, ih, find?_set, reverse_cons]
    unfold find?
    by_cases htype : c.type = type
    · simp [htype]
    · simp [htype]

theorem nodup_foldl_set (h : (conditions.map (·.type)).Nodup) :
    ((updates.foldl set conditions).map (·.type)).Nodup := by
  induction updates generalizing conditions with
  | nil => exact h
  | cons c rest ih => exact ih (nodup_set h)

def Lowered (type : String) (before after : List Condition) : Prop :=
  find? after type = find? before type ∨ ∃ c, find? after type = some c ∧ c.status ≠ .true

namespace Lowered

variable {type : String} {before after later : List Condition}

theorem refl (type : String) (conditions : List Condition) : Lowered type conditions conditions :=
  .inl rfl

theorem trans (h : Lowered type before after) (h' : Lowered type after later) :
    Lowered type before later := by
  rcases h' with hsame | hlow
  · rw [Lowered, hsame]
    exact h
  · exact .inr hlow

theorem set {c : Condition} (h : Lowered type before after)
    (hc : c.type = type → c.status ≠ .true) : Lowered type before (set after c) := by
  rw [Lowered, find?_set]
  by_cases htype : c.type = type
  · rw [if_pos htype]
    exact .inr ⟨c, rfl, hc htype⟩
  · rw [if_neg htype]
    exact h

theorem isTrue (h : Lowered type before after) (htrue : isTrue after type = true) :
    Condition.isTrue before type = true := by
  rw [Condition.isTrue] at htrue ⊢
  rcases h with hsame | ⟨c, hc, hstatus⟩
  · rw [← hsame]
    exact htrue
  · rw [hc] at htrue
    exact absurd (of_decide_eq_true htrue) hstatus

theorem absent (h : Lowered type before after) (hnone : find? after type = none) :
    find? before type = none := by
  rcases h with hsame | ⟨c, hc, -⟩
  · rw [← hsame]
    exact hnone
  · rw [hc] at hnone
    cases hnone

end Lowered

end Condition
