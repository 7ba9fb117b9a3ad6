import Mathlib.Data.List.Forall2

/-!
# Lists changed in places, searched by a key, or compared element by element
-/

namespace Lists

open List

variable {α β : Type}

variable {l : List α} {n : Nat} {f : α → α} {x : α} {R : α → α → Prop} {l' : List β}
  {p : α → Bool}

theorem mem_modify (h : x ∈ l.modify n f) : x ∈ l ∨ ∃ y, l[n]? = some y ∧ x = f y := by
  obtain ⟨m, hm⟩ := mem_iff_getElem?.mp h
  rw [getElem?_modify] at hm
  rcases hy : l[m]? with _ | y
  · rw [hy] at hm
    cases hm
  rw [hy] at hm
  by_cases hnm : n = m
  · subst hnm
    rw [Option.map_eq_map, Option.map_some, if_pos rfl, Option.some.injEq] at hm
    exact .inr ⟨y, hy, hm.symm⟩
  · rw [Option.map_eq_map, Option.map_some, if_neg hnm, Option.some.injEq] at hm
    exact .inl (hm ▸ mem_iff_getElem?.mpr ⟨m, hy⟩)

theorem mem_modify_of_mem (h : x ∈ l) : x ∈ l.modify n f ∨ l[n]? = some x ∧ f x ∈ l.modify n f := by
  obtain ⟨m, hm⟩ := mem_iff_getElem?.mp h
  by_cases hnm : n = m
  · subst hnm
    refine .inr ⟨hm, mem_iff_getElem?.mpr ⟨n, ?_⟩⟩
    rw [getElem?_modify, hm, Option.map_eq_map, Option.map_some, if_pos rfl]
  · refine .inl (mem_iff_getElem?.mpr ⟨m, ?_⟩)
    rw [getElem?_modify, hm, Option.map_eq_map, Option.map_some, if_neg hnm]

theorem map_modify {g : α → β} (h : ∀ x, g (f x) = g x) : (l.modify n f).map g = l.map g := by
  refine ext_getElem? fun m => ?_
  rw [getElem?_map, getElem?_map, getElem?_modify]
  rcases l[m]? with _ | x
  · rfl
  rw [Option.map_eq_map, Option.map_some, Option.map_some, Option.map_some]
  by_cases hnm : n = m
  · rw [if_pos hnm, h x]
  · rw [if_neg hnm]

theorem modify_eq_self_iff (h : l[n]? = some x) : l.modify n f = l ↔ f x = x := by
  constructor
  · intro heq
    have hn : (l.modify n f)[n]? = some (f x) := by
      rw [getElem?_modify, h, Option.map_eq_map, Option.map_some, if_pos rfl]
    rw [heq, h, Option.some.injEq] at hn
    exact hn.symm
  · intro hfx
    refine ext_getElem? fun m => ?_
    rw [getElem?_modify]
    by_cases hnm : n = m
    · subst hnm
      rw [h, Option.map_eq_map, Option.map_some, if_pos rfl, hfx]
    · cases l[m]? <;> simp [hnm]

theorem forall₂_modify (hrefl : ∀ a, R a a) (h : ∀ a, l[n]? = some a → R a (f a)) :
    List.Forall₂ R l (l.modify n f) := by
  refine forall₂_iff_get.mpr ⟨(length_modify ..).symm, fun m hm hm' => ?_⟩
  rw [get_eq_getElem, get_eq_getElem, getElem_modify]
  split
  · rename_i hn
    exact h _ (by rw [hn, getElem?_eq_getElem hm])
  · exact hrefl _

theorem forall₂_modify_both {l' : List α} (h : List.Forall₂ R l l') (n : Nat) {g : α → α}
    (hfg : ∀ a b, R a b → R (f a) (g b)) :
    List.Forall₂ R (l.modify n f) (l'.modify n g) := by
  induction h generalizing n with
  | nil => cases n <;> exact .nil
  | cons hab hrest ih =>
    cases n with
    | zero => exact .cons (hfg _ _ hab) hrest
    | succ n => exact .cons hab (ih n)

theorem of_drop_eq_cons {rest : List α} (h : l.drop n = x :: rest) :
    n < l.length ∧ l[n]? = some x ∧ rest = l.drop (n + 1) ∧ l.take (n + 1) = l.take n ++ [x] := by
  have hlength : n < l.length := by
    by_contra hge
    rw [drop_eq_nil_of_le (by omega)] at h
    cases h
  rw [drop_eq_getElem_cons hlength] at h
  obtain ⟨rfl, rfl⟩ := List.cons.inj h
  exact ⟨hlength, getElem?_eq_getElem hlength, rfl, take_succ_eq_append_getElem hlength⟩

theorem find?_of_nodup [DecidableEq β] {key : α → β} (h : (l.map key).Nodup) {a : α} (ha : a ∈ l) :
    l.find? (fun x => key x = key a) = some a := by
  induction l with
  | nil => cases ha
  | cons b rest ih =>
    rw [map_cons, nodup_cons] at h
    rcases mem_cons.mp ha with rfl | ha
    · rw [find?_cons_of_pos (by simp)]
    have hne : key b ≠ key a := fun e => h.1 (e ▸ mem_map_of_mem ha)
    rw [find?_cons_of_neg (by simpa using hne)]
    exact ih h.2 ha

theorem forall₂_of_map_eq {γ : Type} {f : α → γ} {g : β → γ} (h : l.map f = l'.map g) :
    List.Forall₂ (fun a b => f a = g b) l l' := by
  rw [← forall₂_map_right_iff, ← forall₂_map_left_iff, forall₂_eq_eq_eq]
  exact h

theorem exists_ne_of_map_eq {f : α → β} {l' : List α} (h : l.map f = l'.map f) (hne : l ≠ l') :
    ∃ a ∈ l, ∃ b ∈ l', a ≠ b ∧ f a = f b := by
  induction l generalizing l' with
  | nil => exact absurd (map_eq_nil_iff.mp h.symm).symm hne
  | cons a rest ih =>
    obtain ⟨b, rest', rfl, hb, hrest⟩ := map_eq_cons_iff.mp h.symm
    by_cases hab : a = b
    · subst hab
      obtain ⟨x, hx, y, hy, hxy⟩ := ih hrest.symm (fun hsame => hne (hsame ▸ rfl))
      exact ⟨x, mem_cons_of_mem _ hx, y, mem_cons_of_mem _ hy, hxy⟩
    · exact ⟨a, mem_cons_self, b, mem_cons_self, hab, hb.symm⟩

theorem map_eq_of_forall₂ {γ : Type} {f : α → γ} {g : β → γ}
    (h : List.Forall₂ (fun a b => f a = g b) l l') : l.map f = l'.map g := by
  rw [← forall₂_eq_eq_eq, forall₂_map_left_iff, forall₂_map_right_iff]
  exact h

theorem forall₂_imp_of_mem {R S : α → β → Prop} (h : List.Forall₂ R l l')
    (himp : ∀ a ∈ l, ∀ b, R a b → S a b) : List.Forall₂ S l l' := by
  induction h with
  | nil => exact .nil
  | cons hab _ ih =>
    exact .cons (himp _ mem_cons_self _ hab) (ih fun a ha => himp a (mem_cons_of_mem _ ha))

theorem forall₂_trans (htrans : ∀ a b c, R a b → R b c → R a c) {l' l'' : List α}
    (h : List.Forall₂ R l l') (h' : List.Forall₂ R l' l'') :
    List.Forall₂ R l l'' := by
  induction h generalizing l'' with
  | nil => exact h'
  | cons hab _ ih =>
    obtain ⟨c, rest, hbc, hrest, rfl⟩ := forall₂_cons_left_iff.mp h'
    exact .cons (htrans _ _ _ hab hbc) (ih hrest)

theorem forall₂_find? {R : α → β → Prop} {q : β → Bool} (hpq : ∀ a b, R a b → p a = q b)
    (h : List.Forall₂ R l l') :
    Option.Rel R (l.find? p) (l'.find? q) := by
  induction h with
  | nil => exact .none
  | @cons a b _ _ hab _ ih =>
    rw [find?_cons, find?_cons, ← hpq a b hab]
    cases p a
    · exact ih
    · exact .some hab

theorem mem_of_mem_ite {p : Prop} [Decidable p] {a b : List α} (h : x ∈ if p then a else b) :
    x ∈ a ∨ x ∈ b := by
  split at h
  · exact .inl h
  · exact .inr h

/-- Change the first element that satisfies `p`. -/
def updateFirst (p : α → Bool) (f : α → α) : List α → List α
  | [] => []
  | a :: rest => if p a then f a :: rest else a :: updateFirst p f rest

/-- Compared with the list before, only the first element that satisfies `p` matters. -/
theorem forall₂_updateFirst_iff (hrefl : ∀ a, R a a) :
    List.Forall₂ R l (updateFirst p f l) ↔ ∀ a, l.find? p = some a → R a (f a) := by
  induction l with
  | nil => exact ⟨fun _ a ha => (nomatch ha), fun _ => .nil⟩
  | cons b rest ih =>
    rw [updateFirst]
    by_cases hb : p b = true
    · rw [if_pos hb, find?_cons_of_pos hb, forall₂_cons]
      constructor
      · rintro ⟨h, -⟩ a ha
        cases ha
        exact h
      · exact fun h => ⟨h b rfl, forall₂_same.mpr fun a _ => hrefl a⟩
    · rw [if_neg hb, find?_cons_of_neg hb, forall₂_cons, ← ih]
      exact ⟨fun h => h.2, fun h => ⟨hrefl b, h⟩⟩

theorem find?_updateFirst (h : ∀ a, p (f a) = p a) (l : List α) :
    (updateFirst p f l).find? p = (l.find? p).map f := by
  induction l with
  | nil => rfl
  | cons b rest ih =>
    rw [updateFirst]
    by_cases hb : p b = true
    · rw [if_pos hb, find?_cons_of_pos hb, find?_cons_of_pos ((h b).trans hb)]
      rfl
    · rw [if_neg hb, find?_cons_of_neg hb, find?_cons_of_neg hb, ih]

section Update

variable {c : α → Prop} [DecidablePred c]

theorem mem_update (h : x ∈ (l.map fun y => if c y then f y else y).filter p) :
    ∃ y ∈ l, x = f y ∧ c y ∨ x = y ∧ ¬ c y := by
  obtain ⟨y, hy, rfl⟩ := mem_map.mp (mem_of_mem_filter h)
  refine ⟨y, hy, ?_⟩
  by_cases hc : c y
  · exact .inl ⟨if_pos hc, hc⟩
  · exact .inr ⟨if_neg hc, hc⟩

theorem exists_update {P : α → Prop} (hx : x ∈ l) (hP : P x) (hf : c x → P (f x))
    (hp : ∀ y, P y → p y = true) :
    ∃ y ∈ (l.map fun y => if c y then f y else y).filter p, P y := by
  have hupdated : P (if c x then f x else x) := by
    split
    · exact hf ‹_›
    · exact hP
  exact ⟨_, mem_filter.mpr ⟨mem_map_of_mem hx, hp _ hupdated⟩, hupdated⟩

theorem update_sublist {g : α → β} (hf : ∀ x, g (f x) = g x) :
    (((l.map fun y => if c y then f y else y).filter p).map g).Sublist (l.map g) := by
  have hmap : (l.map fun y => if c y then f y else y).map g = l.map g := by
    rw [map_map]
    refine map_congr_left fun y _ => ?_
    show g (if c y then f y else y) = g y
    split
    · exact hf y
    · rfl
  exact hmap ▸ filter_sublist.map g

end Update

end Lists
