import Mathlib.Data.List.Basic

/-!
# Words of a shell command

How a POSIX shell splits a line into words, for lines that are words and quotes only: a line
with an operator, an expansion, an escape or an open quote has no words here.
-/

namespace Shell

open List

def apostrophe : Char := Char.ofNat 39

def quotation : Char := Char.ofNat 34

inductive Mode where
  | plain
  | single
  | double

/-- Whether a character stands for itself outside quotes. -/
def ordinary (c : Char) : Bool := c.isAlphanum || c = '-' || c = '_' || c = '/' || c = '.'

/-- Whether a character stands for itself in double quotes. -/
def literal (c : Char) : Bool := c ≠ '$' && c ≠ '\\' && c ≠ Char.ofNat 96

/-- The words of the rest of a line, `word` being the one that has begun. -/
def words : Mode → Option (List Char) → List Char → Option (List (List Char))
  | _, _, [] => none
  | .plain, word, c :: rest =>
    if c = '\n' then if rest = [] then some word.toList else none
    else if c = ' ' then (words .plain none rest).map (word.toList ++ ·)
    else if c = apostrophe then words .single (some (word.getD [])) rest
    else if c = quotation then words .double (some (word.getD [])) rest
    else if ordinary c then words .plain (some (word.getD [] ++ [c])) rest
    else none
  | .single, word, c :: rest =>
    if c = apostrophe then words .plain word rest
    else words .single (some (word.getD [] ++ [c])) rest
  | .double, word, c :: rest =>
    if c = quotation then words .plain word rest
    else if literal c then words .double (some (word.getD [] ++ [c])) rest
    else none

def split (line : String) : Option (List String) :=
  (words .plain none line.toList).map (·.map String.ofList)

/-- A text in single quotes; an apostrophe of it is put in double quotes between two such
texts. -/
def quote (text : String) : String :=
  String.ofList (apostrophe :: text.toList.flatMap (fun c => if c = apostrophe then
    [apostrophe, quotation, apostrophe, quotation, apostrophe] else [c]) ++ [apostrophe])

theorem words_single (text word rest : List Char) :
    words .single (some word) (text.flatMap (fun c => if c = apostrophe then
        [apostrophe, quotation, apostrophe, quotation, apostrophe] else [c]) ++
        apostrophe :: rest) =
      words .plain (some (word ++ text)) rest := by
  induction text generalizing word with
  | nil => simp [words]
  | cons c text ih =>
    rw [flatMap_cons]
    by_cases h : c = apostrophe
    · have hmarks : apostrophe ≠ '\n' ∧ apostrophe ≠ ' ' ∧ quotation ≠ '\n' ∧ quotation ≠ ' ' ∧
          quotation ≠ apostrophe ∧ literal apostrophe = true := by decide
      simp [words, hmarks, hmarks.2.2.2.2.1.symm, ih, h]
    · simp [words, h, ih]

theorem words_quote (text : String) (rest : List Char) :
    words .plain none ((quote text).toList ++ rest) = words .plain (some text.toList) rest := by
  have hmarks : apostrophe ≠ '\n' ∧ apostrophe ≠ ' ' := by decide
  simp only [quote, String.toList_ofList, append_assoc, cons_append, words,
    if_neg hmarks.2, if_pos]
  exact words_single text.toList [] rest

/-- Quoted texts between spaces are read back one by one. -/
theorem words_line (texts : List String) (word : List Char) :
    words .plain (some word) (texts.flatMap (fun text => ' ' :: (quote text).toList) ++ ['\n']) =
      some (word :: texts.map String.toList) := by
  induction texts generalizing word with
  | nil => simp [words]
  | cons text texts ih =>
    have hspace : ' ' ≠ '\n' := by decide
    rw [flatMap_cons, cons_append, cons_append, words, append_assoc, words_quote, ih]
    rfl

end Shell
