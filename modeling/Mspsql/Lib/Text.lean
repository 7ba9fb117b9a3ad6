import Mathlib.Data.String.Basic
import Mathlib.Data.Nat.Digits.Lemmas

/-!
# Names built from text

The string library functions that code which glues object names together, sorts them and
reads numbers back out of messages leans on.
-/

namespace Text

open List

variable {s : String} {l : List String} {c : Char} {m : Nat} {cs : List Char}

/-- `strings.HasPrefix`. -/
def hasPrefix (s p : String) : Bool := p.toList.isPrefixOf s.toList

/-- `strings.HasSuffix`. -/
def hasSuffix (s suffix : String) : Bool := suffix.toList.isSuffixOf s.toList

/-- `strings.Contains`. -/
def contains (s part : String) : Bool := s.toList.tails.any part.toList.isPrefixOf

/-- `strings.TrimPrefix`. -/
def trimPrefix (s p : String) : String :=
  if hasPrefix s p then String.ofList (s.toList.drop p.toList.length) else s

def digits? : List Char → Option Nat
  | [] => none
  | cs => if cs.all Char.isDigit then
      some (cs.foldl (fun n c => 10 * n + (c.toNat - '0'.toNat)) 0)
    else none

/-- `strconv.ParseInt` in base ten: an optional sign and decimal digits, within 64 bits. -/
def parseInt (s : String) : Option Int :=
  let value := match s.toList with
    | '-' :: cs => (digits? cs).map fun n => -(n : Int)
    | '+' :: cs => (digits? cs).map fun n => (n : Int)
    | cs => (digits? cs).map fun n => (n : Int)
  value.filter fun v => -9223372036854775808 ≤ v ∧ v < 9223372036854775808

/-- `slices.Sort` on strings. -/
def sortText (l : List String) : List String := l.insertionSort (· ≤ ·)

theorem mem_sortText : s ∈ sortText l ↔ s ∈ l :=
  mem_insertionSort _

theorem sorted_sortText (l : List String) : (sortText l).Pairwise (· ≤ ·) :=
  pairwise_insertionSort _ _

theorem le_of_sortText_cons {rest : List String} {t : String} (h : sortText l = s :: rest)
    (ht : t ∈ s :: rest) : s ≤ t := by
  have hsorted := sorted_sortText l
  rw [h] at hsorted
  rcases mem_cons.mp ht with rfl | ht
  · exact le_refl t
  · exact (pairwise_cons.mp hsorted).1 t ht

theorem append_inj {a b c d : String} (h : a ++ b = c ++ d) (hlength : a.length = c.length) :
    a = c ∧ b = d := by
  have h' : a.toList ++ b.toList = c.toList ++ d.toList := by
    rw [← String.toList_append, ← String.toList_append, h]
  obtain ⟨hac, hbd⟩ := List.append_inj h' hlength
  exact ⟨String.toList_inj.mp hac, String.toList_inj.mp hbd⟩

theorem append_ne_append {a b : String} (c d : String) (n : Nat) (ha : n ≤ a.length)
    (hb : n ≤ b.length) (h : a.toList.take n ≠ b.toList.take n) : a ++ c ≠ b ++ d := by
  intro heq
  have htake := congrArg (fun s => s.toList.take n) heq
  simp only [String.toList_append] at htake
  rw [take_append_of_le_length ha, take_append_of_le_length hb] at htake
  exact h htake

theorem hasPrefix_iff {p : String} : hasPrefix s p = true ↔ p.toList <+: s.toList := by
  rw [hasPrefix, isPrefixOf_iff_prefix]

/-- A name that ends where a separator stands begins `s`, the separator and a rest without
one only if it is `s` or already begins `s`. -/
theorem prefix_separated {α : Type} {separator : α} {s t rest : List α} (hrest : separator ∉ rest) :
    t ++ [separator] <+: s ++ separator :: rest ↔ t = s ∨ t ++ [separator] <+: s := by
  induction s generalizing t with
  | nil =>
    cases t with
    | nil => simp
    | cons c cs =>
      simp only [nil_append, cons_append, cons_prefix_cons]
      refine ⟨fun h => absurd (h.2.subset (by simp)) hrest, fun h => ?_⟩
      rcases h with h | h
      · exact absurd h (by simp)
      · exact absurd h (by simp)
  | cons a s ih =>
    cases t with
    | nil =>
      simp
    | cons c cs =>
      simp only [cons_append, cons_prefix_cons, ih, List.cons.injEq]
      constructor
      · rintro ⟨rfl, rfl | h⟩
        · exact .inl ⟨rfl, rfl⟩
        · exact .inr ⟨rfl, h⟩
      · rintro (⟨rfl, rfl⟩ | ⟨rfl, h⟩)
        · exact ⟨rfl, .inl rfl⟩
        · exact ⟨rfl, .inr h⟩

theorem toDigits_inj {n : Nat} (h : Nat.toDigits 10 m = Nat.toDigits 10 n) : m = n := by
  have hm := @Nat.ofDigitChars_toDigits 10 m (by decide) (by decide)
  rw [h, Nat.ofDigitChars_toDigits (by decide) (by decide)] at hm
  exact hm.symm

theorem not_mem_toDigits (hc : c.isDigit = false) : c ∉ Nat.toDigits 10 m := by
  intro hmem
  have hdigit := Nat.isDigit_of_mem_toDigits (by decide) (by decide) hmem
  rw [hc] at hdigit
  cases hdigit

theorem not_mem_toString (hc : c.isDigit = false) (n : Nat) : c ∉ (toString n).toList := by
  have htext : (toString n).toList = Nat.toDigits 10 n := String.toList_ofList
  rw [htext]
  exact not_mem_toDigits hc

theorem toDigits_ne_cons_minus : Nat.toDigits 10 m ≠ '-' :: cs := by
  intro h
  have hmem : '-' ∈ Nat.toDigits 10 m := by
    rw [h]
    exact mem_cons_self
  exact not_mem_toDigits (by decide) hmem

theorem toString_int_inj {m n : Int} (h : toString m = toString n) : m = n := by
  have htext : ∀ k : Nat, (Nat.repr k).toList = Nat.toDigits 10 k :=
    fun k => String.toList_ofList
  have h' : (Int.repr m).toList = (Int.repr n).toList := congrArg String.toList h
  cases m with
  | ofNat m =>
    cases n with
    | ofNat n =>
      rw [Int.repr, Int.repr, htext, htext] at h'
      rw [toDigits_inj h']
    | negSucc n =>
      rw [Int.repr, Int.repr, String.toList_append, htext] at h'
      exact absurd h' toDigits_ne_cons_minus
  | negSucc m =>
    cases n with
    | ofNat n =>
      rw [Int.repr, Int.repr, String.toList_append, htext, htext] at h'
      exact absurd h'.symm toDigits_ne_cons_minus
    | negSucc n =>
      rw [Int.repr, Int.repr, String.toList_append, String.toList_append, htext, htext] at h'
      have hsucc := toDigits_inj (append_cancel_left h')
      rw [Nat.succ.inj hsucc]

theorem not_mem_toString_int (hc : c.isDigit = false) (hminus : c ≠ '-') (n : Int) :
    c ∉ (toString n).toList := by
  cases n with
  | ofNat n => exact not_mem_toString hc n
  | negSucc n =>
    show c ∉ ("-" ++ Nat.repr (n + 1)).toList
    rw [String.toList_append, mem_append, not_or]
    exact ⟨fun h => hminus (mem_singleton.mp h), not_mem_toString hc (n + 1)⟩

def splitChars (c : Char) : List Char → List (List Char)
  | [] => [[]]
  | d :: rest =>
    match splitChars c rest with
    | [] => [[d]]
    | piece :: pieces => if d = c then [] :: piece :: pieces else (d :: piece) :: pieces

/-- `strings.Split` at a one-character separator. -/
def splitOnChar (c : Char) (s : String) : List String :=
  (splitChars c s.toList).map String.ofList

/-- `strings.Join`. -/
def join (sep : String) : List String → String
  | [] => ""
  | [s] => s
  | s :: rest => s ++ sep ++ join sep rest

theorem splitChars_ne_nil (c : Char) (cs : List Char) : splitChars c cs ≠ [] := by
  cases cs with
  | nil => exact cons_ne_nil _ _
  | cons d rest =>
    rw [splitChars]
    split
    · exact cons_ne_nil _ _
    · split <;> exact cons_ne_nil _ _

theorem splitChars_of_not_mem (h : c ∉ cs) :
    splitChars c cs = [cs] := by
  induction cs with
  | nil => rfl
  | cons d rest ih =>
    obtain ⟨hd, hrest⟩ := not_or.mp (mem_cons.not.mp h)
    rw [splitChars, ih hrest]
    dsimp only
    rw [if_neg (Ne.symm hd)]

theorem splitChars_append (h : c ∉ cs) (rest : List Char) :
    splitChars c (cs ++ c :: rest) = cs :: splitChars c rest := by
  induction cs with
  | nil =>
    rw [nil_append, splitChars]
    split
    · rename_i hnil
      exact absurd hnil (splitChars_ne_nil c rest)
    · rename_i hpieces
      rw [if_pos rfl, hpieces]
  | cons d cs ih =>
    obtain ⟨hd, hcs⟩ := not_or.mp (mem_cons.not.mp h)
    rw [cons_append, splitChars, ih hcs]
    dsimp only
    rw [if_neg (Ne.symm hd)]

theorem separated_inj {s t u v : List Char} (hs : c ∉ s) (ht : c ∉ t)
    (h : s ++ c :: u = t ++ c :: v) : s = t ∧ u = v := by
  have hsplit := congrArg (splitChars c) h
  rw [splitChars_append hs, splitChars_append ht] at hsplit
  obtain rfl := (List.cons.inj hsplit).1
  exact ⟨rfl, (List.cons.inj (append_cancel_left h)).2⟩

theorem not_mem_of_mem_splitChars {piece : List Char} (h : piece ∈ splitChars c cs) :
    c ∉ piece := by
  induction cs generalizing piece with
  | nil =>
    rw [splitChars, mem_singleton] at h
    rw [h]
    exact not_mem_nil
  | cons d rest ih =>
    rw [splitChars] at h
    split at h
    · rename_i hnil
      exact absurd hnil (splitChars_ne_nil c rest)
    rename_i hpieces
    rw [hpieces] at ih
    split at h
    · rcases mem_cons.mp h with rfl | h
      · exact not_mem_nil
      · exact ih h
    · rename_i hd
      rcases mem_cons.mp h with rfl | h
      · exact mem_cons.not.mpr (not_or.mpr ⟨Ne.symm hd, ih mem_cons_self⟩)
      · exact ih (mem_cons_of_mem _ h)

theorem not_mem_of_mem_splitOnChar {piece : String} (h : piece ∈ splitOnChar c s) :
    c ∉ piece.toList := by
  obtain ⟨cs, hcs, rfl⟩ := mem_map.mp h
  rw [String.toList_ofList]
  exact not_mem_of_mem_splitChars hcs

/-- Joining and splitting gives texts without the separator back. -/
theorem splitOnChar_join (hne : l ≠ []) (h : ∀ s ∈ l, c ∉ s.toList) :
    splitOnChar c (join (String.singleton c) l) = l := by
  induction l with
  | nil => exact absurd rfl hne
  | cons s rest ih =>
    obtain ⟨hs, hrest⟩ := forall_mem_cons.mp h
    cases rest with
    | nil =>
      rw [join, splitOnChar, splitChars_of_not_mem hs, map_singleton, String.ofList_toList]
    | cons t rest =>
      have hchars : (join (String.singleton c) (s :: t :: rest)).toList =
          s.toList ++ c :: (join (String.singleton c) (t :: rest)).toList := by
        rw [join.eq_3 _ _ _ (cons_ne_nil _ _), String.toList_append, String.toList_append,
          String.toList_singleton, append_assoc, singleton_append]
      rw [splitOnChar, hchars, splitChars_append hs, map_cons, String.ofList_toList]
      exact congrArg _ (ih (cons_ne_nil _ _) hrest)

end Text
