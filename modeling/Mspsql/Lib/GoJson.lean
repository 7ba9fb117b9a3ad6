import Mspsql.Lib.Json
import Mspsql.Lib.SortedMap
import Mspsql.Lib.Text
import Mathlib.Data.List.TakeWhile

/-!
# Go strings and integers as JSON literals

How `encoding/json` writes strings and integers and reads them back.  A string in Go is any
sequence of bytes; a byte that belongs to no code point is written as the escape of the
replacement character, so that it does not come back (`unquote_quote`).
-/

/-- What a Go string is made of when it is ranged over: code points, and bytes which do not
belong to one. -/
inductive Rune where
  | char (c : Char)
  | bad (b : UInt8)
deriving DecidableEq

namespace Rune

def rank : Rune → Nat
  | .char c => 2 * c.toNat
  | .bad b => 2 * b.toNat + 1

theorem rank_injective : Function.Injective rank := by
  intro a b h
  cases a with
  | char c =>
    cases b with
    | char d =>
      have hn : c.toNat = d.toNat := by
        simp only [rank] at h
        omega
      exact congrArg Rune.char (Char.toNat_inj.mp hn)
    | bad d =>
      simp only [rank] at h
      omega
  | bad c =>
    cases b with
    | char d =>
      simp only [rank] at h
      omega
    | bad d =>
      have hn : c.toNat = d.toNat := by
        simp only [rank] at h
        omega
      exact congrArg Rune.bad (UInt8.toNat_inj.mp hn)

/-- Code points in their order, which is that of their bytes. -/
instance : LinearOrder Rune := LinearOrder.lift' rank rank_injective

end Rune

abbrev GoString := List Rune

namespace GoString

def ofChars (cs : List Char) : GoString := cs.map Rune.char

def ofString (s : String) : GoString := ofChars s.toList

/-- Valid UTF-8. -/
def Clean (s : GoString) : Prop := ∀ r ∈ s, ∃ c, r = .char c

theorem ofChars_clean (cs : List Char) : Clean (ofChars cs) := by
  intro r hr
  obtain ⟨c, -, rfl⟩ := List.mem_map.mp hr
  exact ⟨c, rfl⟩

theorem ofChars_injective : Function.Injective ofChars :=
  List.map_injective_iff.mpr fun _ _ h => Rune.char.inj h

/-- The code points of a string of valid UTF-8. -/
def chars? : GoString → Option (List Char)
  | [] => some []
  | .char c :: rest => (chars? rest).map (c :: ·)
  | .bad _ :: _ => none

theorem chars?_ofChars (cs : List Char) : chars? (ofChars cs) = some cs := by
  induction cs with
  | nil => rfl
  | cons c cs ih =>
    show (chars? (ofChars cs)).map (c :: ·) = some (c :: cs)
    rw [ih]
    rfl

theorem ofString_injective : Function.Injective ofString := fun _ _ h =>
  String.toList_inj.mp (ofChars_injective h)

end GoString

/-! ## String literals -/

namespace Json

theorem isHex_digitChar {n : Nat} (h : n < 16) : isHex n.digitChar = true := by
  have hall : ∀ k : Fin 16, isHex (Nat.digitChar k) = true := by decide
  exact hall ⟨n, h⟩

def byteCode (n : Nat) (h : n < 256) : Piece :=
  .code '0' '0' (n / 16).digitChar (n % 16).digitChar (by
    simp only [List.all_cons, List.all_nil, Bool.and_true, Bool.and_eq_true]
    exact ⟨by decide, by decide, isHex_digitChar (by omega), isHex_digitChar (by omega)⟩)

end Json

namespace Rune

def escapes : List (Char × Json.Piece) :=
  [('"', .short '"' (by decide)), ('\\', .short '\\' (by decide)),
    ('\x08', .short 'b' (by decide)), ('\x0c', .short 'f' (by decide)),
    ('\n', .short 'n' (by decide)), ('\r', .short 'r' (by decide)),
    ('\t', .short 't' (by decide)), ('<', .code '0' '0' '3' 'c' (.refl true)),
    ('>', .code '0' '0' '3' 'e' (.refl true)), ('&', .code '0' '0' '2' '6' (.refl true)),
    ('\u2028', .code '2' '0' '2' '8' (.refl true)), ('\u2029', .code '2' '0' '2' '9' (.refl true))]

/-- How a rune is written in a literal. -/
def piece : Rune → Json.Piece
  | .bad _ => .code 'f' 'f' 'f' 'd' (by decide)
  | .char c =>
    match escapes.find? (fun e => e.1 = c) with
    | some e => e.2
    | none =>
      if hplain : Json.isPlain c = true then .plain c hplain
      else Json.byteCode (c.toNat % 256) (by omega)

def valid : Rune → Rune
  | .bad _ => .char '\uFFFD'
  | .char c => .char c

end Rune

namespace Json

def hexValue (c : Char) : Nat :=
  if c.isDigit then c.toNat - 48 else if 'a' ≤ c then c.toNat - 87 else c.toNat - 55

def codeValue (a b c d : Char) : Nat :=
  ((hexValue a * 16 + hexValue b) * 16 + hexValue c) * 16 + hexValue d

def shortValue (c : Char) : Char :=
  if c = 'b' then '\x08' else if c = 'f' then '\x0c' else if c = 'n' then '\n'
  else if c = 'r' then '\r' else if c = 't' then '\t' else c

/-- A first half of a surrogate pair without its second half. -/
def unpaired : Option Nat → GoString
  | none => []
  | some _ => [.char '\uFFFD']

/-- The string a literal stands for.  The first argument is the first half of a surrogate
pair that has just been read. -/
def unquote : Option Nat → List Piece → GoString
  | pending, [] => unpaired pending
  | pending, .plain c _ :: rest => unpaired pending ++ .char c :: unquote none rest
  | pending, .short c _ :: rest => unpaired pending ++ .char (shortValue c) :: unquote none rest
  | pending, .code a b c d _ :: rest =>
    let value := codeValue a b c d
    if 0xDC00 ≤ value ∧ value < 0xE000 then
      match pending with
      | some high =>
        .char (Char.ofNat ((high - 0xD800) * 0x400 + (value - 0xDC00) + 0x10000)) ::
          unquote none rest
      | none => .char '\uFFFD' :: unquote none rest
    else if 0xD800 ≤ value ∧ value < 0xDC00 then
      unpaired pending ++ unquote (some value) rest
    else unpaired pending ++ .char (Char.ofNat value) :: unquote none rest

def quote (s : GoString) : List Piece := s.map Rune.piece

theorem hexValue_digitChar {n : Nat} (h : n < 16) : hexValue n.digitChar = n := by
  have hall : ∀ k : Fin 16, hexValue (Nat.digitChar k) = k := by decide
  exact hall ⟨n, h⟩

theorem unquote_byteCode {n : Nat} (h : n < 256) (rest : List Piece) :
    unquote none (byteCode n h :: rest) = .char (Char.ofNat n) :: unquote none rest := by
  have hvalue : codeValue '0' '0' (n / 16).digitChar (n % 16).digitChar = n := by
    rw [codeValue, hexValue_digitChar (by omega), hexValue_digitChar (by omega)]
    have hzero : hexValue '0' = 0 := by decide
    omega
  rw [byteCode, unquote]
  simp only [hvalue]
  rw [if_neg (by omega), if_neg (by omega)]
  rfl

theorem unquote_escapes {e : Char × Piece} (h : e ∈ Rune.escapes) (rest : List Piece) :
    unquote none (e.2 :: rest) = .char e.1 :: unquote none rest := by
  simp only [Rune.escapes, List.mem_cons, List.not_mem_nil, or_false] at h
  rcases h with rfl | rfl | rfl | rfl | rfl | rfl | rfl | rfl | rfl | rfl | rfl | rfl <;> rfl

theorem unquote_piece (r : Rune) (rest : List Piece) :
    unquote none (r.piece :: rest) = r.valid :: unquote none rest := by
  cases r with
  | bad b => rfl
  | char c =>
    rw [Rune.piece]
    split
    · rename_i e he
      have hc : e.1 = c := by simpa using List.find?_some he
      rw [unquote_escapes (List.mem_of_find?_eq_some he), hc]
      rfl
    · rename_i hnone
      split
      · rfl
      · rename_i hplain
        have hfree : ∀ e ∈ Rune.escapes, e.1 ≠ c := by simpa using hnone
        have hquote : c ≠ '"' := (hfree _ (.head _)).symm
        have hslash : c ≠ '\\' := (hfree _ (.tail _ (.head _))).symm
        have hlow : c.toNat < 32 := by simpa [isPlain, hquote, hslash] using hplain
        rw [unquote_byteCode, Nat.mod_eq_of_lt (by omega), Char.ofNat_toNat]
        rfl

theorem unquote_quote (s : GoString) : unquote none (quote s) = s.map Rune.valid := by
  induction s with
  | nil => rfl
  | cons r s ih =>
    rw [quote, List.map_cons, unquote_piece]
    exact congrArg _ ih

theorem map_valid_of_clean {s : GoString} (h : s.Clean) : s.map Rune.valid = s := by
  refine (List.map_congr_left fun r hr => ?_).trans (List.map_id s)
  obtain ⟨c, rfl⟩ := h r hr
  rfl

theorem escape_escapes {e : Char × Piece} (h : e ∈ Rune.escapes) : e.2.escape = e.2 := by
  simp only [Rune.escapes, List.mem_cons, List.not_mem_nil, or_false] at h
  rcases h with rfl | rfl | rfl | rfl | rfl | rfl | rfl | rfl | rfl | rfl | rfl | rfl <;> rfl

theorem escape_piece (r : Rune) : r.piece.escape = r.piece := by
  cases r with
  | bad b => rfl
  | char c =>
    rw [Rune.piece]
    split
    · rename_i he
      exact escape_escapes (List.mem_of_find?_eq_some he)
    · rename_i hnone
      split
      · have hfree : ∀ e ∈ Rune.escapes, e.1 ≠ c := by simpa using hnone
        have hne : ∀ d, d ∈ Rune.escapes.map Prod.fst → c ≠ d := by
          rintro d hd rfl
          obtain ⟨e, he, hec⟩ := List.mem_map.mp hd
          exact hfree e he hec
        simp [Piece.escape, hne '<' (by decide), hne '>' (by decide), hne '&' (by decide),
          hne '\u2028' (by decide), hne '\u2029' (by decide)]
      · rfl

theorem escape_quote (s : GoString) : (quote s).map Piece.escape = quote s := by
  rw [quote, List.map_map]
  exact List.map_congr_left fun r _ => escape_piece r

end Json

/-! ## Numbers -/

namespace Json

def intText : Int → List Char
  | .ofNat n => Nat.toDigits 10 n
  | .negSucc n => '-' :: Nat.toDigits 10 (n + 1)

/-- A decimal numeral starts with zero only if it is zero. -/
theorem toDigits_head {n : Nat} {rest : List Char} (h : Nat.toDigits 10 n = '0' :: rest) :
    rest = [] := by
  induction n using Nat.strong_induction_on generalizing rest with
  | _ n ih =>
    by_cases hlt : n < 10
    · rw [Nat.toDigits_of_lt_base hlt] at h
      exact (List.cons.inj h).2.symm
    · rw [Nat.toDigits_of_base_le (by decide) (by omega)] at h
      cases hfront : Nat.toDigits 10 (n / 10) with
      | nil => exact absurd hfront Nat.toDigits_ne_nil
      | cons c cs =>
        rw [hfront] at h
        obtain ⟨rfl, -⟩ := List.cons.inj h
        have hnil := ih (n / 10) (by omega) hfront
        have hzero : n / 10 = 0 := by
          have hvalue := @Nat.ofDigitChars_toDigits 10 (n / 10) (by decide) (by decide)
          rw [hfront, hnil] at hvalue
          exact hvalue.symm.trans (by decide)
        omega

theorem integerOk_toDigits (n : Nat) : integerOk (Nat.toDigits 10 n) = true := by
  have hdigits : ∀ c ∈ Nat.toDigits 10 n, c.isDigit = true := fun c hc =>
    Nat.isDigit_of_mem_toDigits (by decide) (by decide) hc
  cases h : Nat.toDigits 10 n with
  | nil => exact absurd h Nat.toDigits_ne_nil
  | cons c rest =>
    rw [integerOk]
    rw [h] at hdigits
    split
    · rename_i hzero
      subst hzero
      rw [toDigits_head h]
      rfl
    · have hdrop : rest.dropWhile Char.isDigit = [] := List.dropWhile_eq_nil_iff.mpr fun d hd =>
        hdigits d (List.mem_cons_of_mem _ hd)
      rw [hdigits c List.mem_cons_self, hdrop]
      rfl

theorem isNumeral_intText (n : Int) : isNumeral (intText n) = true := by
  cases n with
  | negSucc n => exact integerOk_toDigits (n + 1)
  | ofNat n =>
    rw [intText, isNumeral.eq_2 _ (fun rest h => Text.toDigits_ne_cons_minus h)]
    exact integerOk_toDigits n

theorem isNumeric_of_isDigit {c : Char} (h : c.isDigit = true) : isNumeric c = true := by
  rw [isNumeric, h, Bool.true_or]

theorem isNumeric_intText (n : Int) : (intText n).all isNumeric = true := by
  have hdigits : ∀ k : Nat, (Nat.toDigits 10 k).all isNumeric = true := fun k =>
    List.all_eq_true.mpr fun c hc =>
      isNumeric_of_isDigit (Nat.isDigit_of_mem_toDigits (by decide) (by decide) hc)
  cases n with
  | ofNat n => exact hdigits n
  | negSucc n =>
    rw [intText, List.all_cons, hdigits]
    rfl

def Numeral.ofInt (n : Int) : Numeral := ⟨intText n, isNumeral_intText n, isNumeric_intText n⟩

/-- The integer a text stands for, if it is written as one. -/
def intOf? : List Char → Option Int
  | '-' :: digits => (Text.digits? digits).map fun k => -(k : Int)
  | digits => (Text.digits? digits).map fun k => (k : Int)

def Numeral.toInt? (n : Numeral) : Option Int := intOf? n.text

theorem digits?_toDigits (n : Nat) : Text.digits? (Nat.toDigits 10 n) = some n := by
  have hall : (Nat.toDigits 10 n).all Char.isDigit = true := List.all_eq_true.mpr fun c hc =>
    Nat.isDigit_of_mem_toDigits (by decide) (by decide) hc
  have hvalue := @Nat.ofDigitChars_toDigits 10 n (by decide) (by decide)
  rw [Nat.ofDigitChars_eq_foldl] at hvalue
  rw [Text.digits?.eq_2 _ Nat.toDigits_ne_nil, hall, if_pos rfl, hvalue]

theorem intOf?_intText (n : Int) : intOf? (intText n) = some n := by
  cases n with
  | ofNat n =>
    show (match Nat.toDigits 10 n with
      | '-' :: digits => (Text.digits? digits).map fun k => -(k : Int)
      | digits => (Text.digits? digits).map fun k => (k : Int)) = _
    split
    · rename_i h
      exact absurd h Text.toDigits_ne_cons_minus
    · rw [digits?_toDigits]
      rfl
  | negSucc n =>
    show (Text.digits? (Nat.toDigits 10 (n + 1))).map (fun k => -(k : Int)) = _
    rw [digits?_toDigits]
    rfl

theorem toInt?_ofInt (n : Int) : (Numeral.ofInt n).toInt? = some n := intOf?_intText n

theorem intText_injective : Function.Injective intText := by
  intro m n h
  have hvalue := congrArg intOf? h
  rw [intOf?_intText, intOf?_intText] at hvalue
  exact Option.some.inj hvalue

end Json
