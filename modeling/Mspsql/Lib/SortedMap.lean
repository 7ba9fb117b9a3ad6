import Mathlib.Data.String.Basic

/-!
# Finite maps as key-sorted lists

A finite map is the list of its entries in increasing order of keys, so that
comparing two maps compares their lookups and not the order in which their entries were
written.
-/

universe u v

/-- A finite map from `κ` to `α`. -/
structure SortedMap (κ : Type u) [LinearOrder κ] (α : Type v) where
  entries : List (κ × α)
  sorted : entries.Pairwise (fun a b => a.1 < b.1)

namespace SortedMap

open List

variable {κ : Type u} [LinearOrder κ] {α : Type v}

instance [DecidableEq α] : DecidableEq (SortedMap κ α) := fun a b =>
  decidable_of_iff (a.entries = b.entries)
    ⟨fun h => by cases a; cases b; simp_all, fun h => h ▸ rfl⟩

def empty : SortedMap κ α := ⟨[], List.Pairwise.nil⟩

instance : EmptyCollection (SortedMap κ α) := ⟨empty⟩

def lookupIn (k : κ) : List (κ × α) → Option α
  | [] => none
  | e :: rest => if e.1 = k then some e.2 else lookupIn k rest

def get? (m : SortedMap κ α) (k : κ) : Option α := lookupIn k m.entries

def insertIn (k : κ) (v : α) : List (κ × α) → List (κ × α)
  | [] => [(k, v)]
  | e :: rest =>
    if e.1 < k then e :: insertIn k v rest
    else if e.1 = k then (k, v) :: rest
    else (k, v) :: e :: rest

theorem mem_insertIn {k : κ} {v : α} {l : List (κ × α)} {e : κ × α}
    (h : e ∈ insertIn k v l) : e = (k, v) ∨ e ∈ l := by
  induction l with
  | nil => exact .inl (by simpa [insertIn] using h)
  | cons a rest ih =>
    rw [insertIn] at h
    split at h
    · rcases mem_cons.mp h with rfl | h
      · exact .inr (by simp)
      · exact (ih h).imp id (fun h => by simp [h])
    · split at h
      · rcases mem_cons.mp h with h | h
        · exact .inl h
        · exact .inr (by simp [h])
      · rcases mem_cons.mp h with h | h
        · exact .inl h
        · exact .inr h

theorem insertIn_sorted {k : κ} {v : α} {l : List (κ × α)} (h : l.Pairwise (fun a b => a.1 < b.1)) :
    (insertIn k v l).Pairwise (fun a b => a.1 < b.1) := by
  induction l with
  | nil => simp [insertIn]
  | cons a rest ih =>
    obtain ⟨ha, hrest⟩ := pairwise_cons.mp h
    rw [insertIn]
    split
    · rename_i hlt
      refine pairwise_cons.mpr ⟨fun b hb => ?_, ih hrest⟩
      rcases mem_insertIn hb with rfl | hb
      · exact hlt
      · exact ha b hb
    · rename_i hge
      split
      · rename_i heq
        exact pairwise_cons.mpr ⟨fun b hb => heq ▸ ha b hb, hrest⟩
      rename_i hne
      have hlt : k < a.1 := lt_of_le_of_ne (not_lt.mp hge) (fun h => hne h.symm)
      refine pairwise_cons.mpr ⟨fun b hb => ?_, h⟩
      rcases mem_cons.mp hb with rfl | hb
      · exact hlt
      · exact hlt.trans (ha b hb)

def insert (m : SortedMap κ α) (k : κ) (v : α) : SortedMap κ α :=
  ⟨insertIn k v m.entries, insertIn_sorted m.sorted⟩

def erase (m : SortedMap κ α) (k : κ) : SortedMap κ α :=
  ⟨m.entries.filter fun e => e.1 ≠ k, m.sorted.filter _⟩

def keys (m : SortedMap κ α) : List κ := m.entries.map Prod.fst

/-- Copy every entry of `src` over `m`, the entries of `src` winning. -/
def copyFrom (m src : SortedMap κ α) : SortedMap κ α :=
  src.entries.foldl (fun acc e => acc.insert e.1 e.2) m

def ofList (l : List (κ × α)) : SortedMap κ α :=
  l.foldl (fun acc e => acc.insert e.1 e.2) empty

/-! ## Lookups -/

@[simp] theorem get?_empty (k : κ) : (∅ : SortedMap κ α).get? k = none := rfl

theorem lookupIn_insertIn (k k' : κ) (v : α) (l : List (κ × α)) :
    lookupIn k' (insertIn k v l) = if k = k' then some v else lookupIn k' l := by
  induction l with
  | nil => simp [insertIn, lookupIn]
  | cons a rest ih =>
    rw [insertIn]
    split
    · rename_i hlt
      rw [lookupIn, ih, lookupIn]
      by_cases hk : k = k'
      · have : a.1 ≠ k' := fun h => absurd (hk ▸ h ▸ hlt) (lt_irrefl _)
        simp [this]
      · simp [hk]
    · split
      · rename_i heq
        simp only [lookupIn]
        by_cases hk : k = k'
        · simp [hk]
        · simp [hk, heq]
      · simp only [lookupIn]

theorem get?_insert (m : SortedMap κ α) (k k' : κ) (v : α) :
    (m.insert k v).get? k' = if k = k' then some v else m.get? k' :=
  lookupIn_insertIn k k' v m.entries

@[simp] theorem get?_insert_self (m : SortedMap κ α) (k : κ) (v : α) :
    (m.insert k v).get? k = some v := by simp [get?_insert]

theorem get?_insert_of_ne (m : SortedMap κ α) {k k' : κ} (v : α) (h : k ≠ k') :
    (m.insert k v).get? k' = m.get? k' := by simp [get?_insert, h]

theorem lookupIn_eq_none {k : κ} {l : List (κ × α)} (h : ∀ e ∈ l, e.1 ≠ k) :
    lookupIn k l = none := by
  induction l with
  | nil => rfl
  | cons a rest ih =>
    rw [lookupIn, if_neg (h a (by simp)), ih (fun e he => h e (by simp [he]))]

theorem mem_of_lookupIn {k : κ} {v : α} {l : List (κ × α)} (h : lookupIn k l = some v) :
    (k, v) ∈ l := by
  induction l with
  | nil => cases h
  | cons a rest ih =>
    rw [lookupIn] at h
    split at h
    · rename_i hk
      cases h
      exact mem_cons.mpr (.inl (Prod.ext hk.symm rfl))
    · exact mem_cons_of_mem _ (ih h)

theorem lookupIn_of_mem {l : List (κ × α)} (hs : l.Pairwise (fun a b => a.1 < b.1))
    {e : κ × α} (h : e ∈ l) : lookupIn e.1 l = some e.2 := by
  induction l with
  | nil => cases h
  | cons a rest ih =>
    obtain ⟨ha, hrest⟩ := pairwise_cons.mp hs
    rw [lookupIn]
    rcases mem_cons.mp h with rfl | h
    · simp
    · rw [if_neg (ne_of_lt (ha e h)), ih hrest h]

theorem get?_eq_some_iff (m : SortedMap κ α) (k : κ) (v : α) :
    m.get? k = some v ↔ (k, v) ∈ m.entries :=
  ⟨mem_of_lookupIn, fun h => lookupIn_of_mem m.sorted h⟩

theorem keys_nodup (m : SortedMap κ α) : m.keys.Nodup :=
  (pairwise_map.mpr m.sorted).imp fun h => ne_of_lt h

theorem get?_erase (m : SortedMap κ α) (k k' : κ) :
    (m.erase k).get? k' = if k = k' then none else m.get? k' := by
  refine Option.ext fun v => ?_
  rw [get?_eq_some_iff, erase]
  by_cases h : k = k'
  · simp [h]
  · simp [h, Ne.symm h, get?_eq_some_iff]

theorem get?_copyFrom (m src : SortedMap κ α) (k : κ) :
    (m.copyFrom src).get? k = (src.get? k).or (m.get? k) := by
  have hfold : ∀ (l : List (κ × α)), l.Pairwise (fun a b => a.1 < b.1) → ∀ m : SortedMap κ α,
      (l.foldl (fun acc e => acc.insert e.1 e.2) m).get? k = (lookupIn k l).or (m.get? k) := by
    intro l
    induction l with
    | nil => exact fun _ _ => rfl
    | cons e rest ih =>
      intro hsorted m
      obtain ⟨hfirst, hrest⟩ := pairwise_cons.mp hsorted
      rw [foldl_cons, ih hrest, get?_insert, lookupIn]
      by_cases hk : e.1 = k
      · rw [if_pos hk, if_pos hk, lookupIn_eq_none fun x hx => hk ▸ (hfirst x hx).ne']
        rfl
      · rw [if_neg hk, if_neg hk]
  exact hfold src.entries src.sorted m

/-! ## Maps that agree outside some keys -/

/-- The maps hold the same under every key that is not one of `own`. -/
def AgreeOff (own : κ → Prop) (m m' : SortedMap κ α) : Prop :=
  ∀ k, ¬ own k → m.get? k = m'.get? k

namespace AgreeOff

variable {own : κ → Prop} {m m' m'' src src' : SortedMap κ α}

theorem refl (own : κ → Prop) (m : SortedMap κ α) : AgreeOff own m m := fun _ _ => rfl

theorem symm (h : AgreeOff own m m') : AgreeOff own m' m := fun k hk => (h k hk).symm

theorem trans (h : AgreeOff own m m') (h' : AgreeOff own m' m'') : AgreeOff own m m'' :=
  fun k hk => (h k hk).trans (h' k hk)

theorem insert {k : κ} {v v' : α} (h : AgreeOff own m m') (hv : ¬ own k → v = v') :
    AgreeOff own (m.insert k v) (m'.insert k v') := by
  intro k' hk'
  rw [get?_insert, get?_insert, h k' hk']
  by_cases hk : k = k'
  · rw [if_pos hk, if_pos hk, hv (hk ▸ hk')]
  · rw [if_neg hk, if_neg hk]

theorem copyFrom (h : AgreeOff own m m') (hsrc : AgreeOff own src src') :
    AgreeOff own (m.copyFrom src) (m'.copyFrom src') := by
  intro k hk
  rw [get?_copyFrom, get?_copyFrom, h k hk, hsrc k hk]

/-- Entries that lie under keys of `own` change nothing outside them. -/
theorem insertAll_own {l : List (κ × α)} (h : ∀ e ∈ l, own e.1) (m : SortedMap κ α) :
    AgreeOff own m (l.foldl (fun acc e => acc.insert e.1 e.2) m) := by
  induction l generalizing m with
  | nil => exact .refl own m
  | cons e rest ih =>
    have hfirst : AgreeOff own m (m.insert e.1 e.2) := by
      intro k hk
      have hne : e.1 ≠ k := fun heq => hk (heq ▸ h e mem_cons_self)
      rw [get?_insert_of_ne m e.2 hne]
    exact hfirst.trans (ih (fun x hx => h x (mem_cons_of_mem _ hx)) _)

theorem insertAll (h : AgreeOff own m m') (l : List (κ × α)) :
    AgreeOff own (l.foldl (fun acc e => acc.insert e.1 e.2) m)
      (l.foldl (fun acc e => acc.insert e.1 e.2) m') := by
  induction l generalizing m m' with
  | nil => exact h
  | cons e rest ih => exact ih (h.insert fun _ => rfl)

end AgreeOff

end SortedMap
