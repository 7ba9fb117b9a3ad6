import Mathlib.Data.List.Basic

/-!
# JSON texts

A JSON text is read into a tree that keeps every literal as it is written: a string is the
list of its pieces between the quotes, a number is its numeral.  Printing a tree therefore
gives the compact form of the text it was read from, and `Json.tidy` is what an encoder does
to a value somebody else wrote: white space goes, and the characters that HTML would
interpret are replaced by their escapes.

Members of objects and items of arrays also keep the text they were read from, since a
reader may be asked for the bytes of a value and not for its meaning.

`Json.parse_print`: what has been printed from a tidy tree is read back as that tree.
-/

namespace Json

def isHex (c : Char) : Bool :=
  c.isDigit || ('a' ≤ c && c ≤ 'f') || ('A' ≤ c && c ≤ 'F')

def isPlain (c : Char) : Bool := c ≠ '"' && c ≠ '\\' && 32 ≤ c.toNat

def isShort (c : Char) : Bool := c ∈ ['"', '\\', '/', 'b', 'f', 'n', 'r', 't']

/-- One character of a string as it is written. -/
inductive Piece where
  | plain (c : Char) (ok : isPlain c = true)
  | short (c : Char) (ok : isShort c = true)
  | code (a b c d : Char) (ok : [a, b, c, d].all isHex = true)
deriving DecidableEq

def isNumeric (c : Char) : Bool := c.isDigit || c ∈ ['-', '+', '.', 'e', 'E']

def exponentOk : List Char → Bool
  | [] => true
  | e :: rest =>
    (e = 'e' || e = 'E') &&
      match rest with
      | [] => false
      | sign :: digits =>
        if sign = '+' || sign = '-' then !digits.isEmpty && digits.all Char.isDigit
        else (sign :: digits).all Char.isDigit

def fractionOk : List Char → Bool
  | '.' :: rest =>
    !(rest.takeWhile Char.isDigit).isEmpty && exponentOk (rest.dropWhile Char.isDigit)
  | rest => exponentOk rest

def integerOk : List Char → Bool
  | [] => false
  | c :: rest =>
    if c = '0' then fractionOk rest
    else c.isDigit && fractionOk (rest.dropWhile Char.isDigit)

def isNumeral : List Char → Bool
  | '-' :: rest => integerOk rest
  | text => integerOk text

structure Numeral where
  text : List Char
  numeral : isNumeral text = true
  numeric : text.all isNumeric = true
deriving DecidableEq

end Json

mutual

/-- A JSON value, literals as they are written. -/
inductive Json where
  | null
  | bool (b : Bool)
  | num (n : Json.Numeral)
  | str (pieces : List Json.Piece)
  | arr (items : JsonItems)
  | obj (members : JsonMembers)

/-- The items of an array, each with the text it was read from. -/
inductive JsonItems where
  | nil
  | cons (raw : List Char) (head : Json) (tail : JsonItems)

inductive JsonMembers where
  | nil
  | cons (key : List Json.Piece) (raw : List Char) (value : Json) (rest : JsonMembers)

end

namespace Json

/-! ## Printing -/

def Piece.text : Piece → List Char
  | .plain c _ => [c]
  | .short c _ => ['\\', c]
  | .code a b c d _ => ['\\', 'u', a, b, c, d]

def quoted (pieces : List Piece) : List Char := '"' :: (pieces.flatMap Piece.text ++ ['"'])

mutual

def print : Json → List Char
  | .null => ['n', 'u', 'l', 'l']
  | .bool true => ['t', 'r', 'u', 'e']
  | .bool false => ['f', 'a', 'l', 's', 'e']
  | .num n => n.text
  | .str pieces => quoted pieces
  | .arr .nil => ['[', ']']
  | .arr (.cons _ v rest) => '[' :: (v.print ++ printItems rest)
  | .obj .nil => ['{', '}']
  | .obj (.cons k _ v rest) => '{' :: (quoted k ++ ':' :: (v.print ++ printMembers rest))

/-- The items that follow another one, and the bracket. -/
def printItems : JsonItems → List Char
  | .nil => [']']
  | .cons _ v rest => ',' :: (v.print ++ printItems rest)

/-- The members that follow another one, and the brace. -/
def printMembers : JsonMembers → List Char
  | .nil => ['}']
  | .cons k _ v rest => ',' :: (quoted k ++ ':' :: (v.print ++ printMembers rest))

end

/-! ## Tidying -/

/-- What HTML would interpret is written as an escape. -/
def Piece.escape : Piece → Piece
  | .plain c ok =>
    if c = '<' then .code '0' '0' '3' 'c' (by decide)
    else if c = '>' then .code '0' '0' '3' 'e' (by decide)
    else if c = '&' then .code '0' '0' '2' '6' (by decide)
    else if c = '\u2028' then .code '2' '0' '2' '8' (by decide)
    else if c = '\u2029' then .code '2' '0' '2' '9' (by decide)
    else .plain c ok
  | p => p

mutual

def tidy : Json → Json
  | .null => .null
  | .bool b => .bool b
  | .num n => .num n
  | .str pieces => .str (pieces.map Piece.escape)
  | .arr items => .arr (tidyItems items)
  | .obj members => .obj (tidyMembers members)

def tidyItems : JsonItems → JsonItems
  | .nil => .nil
  | .cons _ v rest => .cons v.tidy.print v.tidy (tidyItems rest)

def tidyMembers : JsonMembers → JsonMembers
  | .nil => .nil
  | .cons k _ v rest => .cons (k.map Piece.escape) v.tidy.print v.tidy (tidyMembers rest)

end

theorem Piece.escape_escape (p : Piece) : p.escape.escape = p.escape := by
  cases p with
  | short c ok => rfl
  | code a b c d ok => rfl
  | plain c ok =>
    by_cases hlt : c = '<'
    · subst hlt; rfl
    by_cases hgt : c = '>'
    · subst hgt; rfl
    by_cases hamp : c = '&'
    · subst hamp; rfl
    by_cases hls : c = '\u2028'
    · subst hls; rfl
    by_cases hps : c = '\u2029'
    · subst hps; rfl
    simp [Piece.escape, hlt, hgt, hamp, hls, hps]

theorem map_escape_escape (pieces : List Piece) :
    (pieces.map Piece.escape).map Piece.escape = pieces.map Piece.escape := by
  rw [List.map_map]
  exact List.map_congr_left (fun p _ => p.escape_escape)

mutual

theorem tidy_tidy : (v : Json) → v.tidy.tidy = v.tidy
  | .null => rfl
  | .bool _ => rfl
  | .num _ => rfl
  | .str pieces => congrArg Json.str (map_escape_escape pieces)
  | .arr items => congrArg Json.arr (tidyItems_tidyItems items)
  | .obj members => congrArg Json.obj (tidyMembers_tidyMembers members)

theorem tidyItems_tidyItems : (items : JsonItems) → tidyItems (tidyItems items) = tidyItems items
  | .nil => rfl
  | .cons _ v rest => by
    simp only [tidyItems, tidy_tidy v, tidyItems_tidyItems rest]

theorem tidyMembers_tidyMembers :
    (members : JsonMembers) → tidyMembers (tidyMembers members) = tidyMembers members
  | .nil => rfl
  | .cons k _ v rest => by
    simp only [tidyMembers, tidy_tidy v, tidyMembers_tidyMembers rest, map_escape_escape]

end

/-! ## Reading -/

def isSpace (c : Char) : Bool := c ∈ [' ', '\t', '\r', '\n']

def skipSpace (s : List Char) : List Char := s.dropWhile isSpace

/-- The text a reader went through when it stopped before `rest`. -/
def consumed (s rest : List Char) : List Char := s.take (s.length - rest.length)

/-- The pieces up to the closing quote. -/
def scanPieces : List Char → Option (List Piece × List Char)
  | [] => none
  | c :: rest =>
    if c = '"' then some ([], rest)
    else if c = '\\' then
      match rest with
      | [] => none
      | e :: rest =>
        if h : isShort e = true then
          (scanPieces rest).map fun r => (.short e h :: r.1, r.2)
        else
          match rest with
          | a :: b :: x :: y :: rest =>
            if h : e = 'u' ∧ [a, b, x, y].all isHex = true then
              (scanPieces rest).map fun r => (.code a b x y h.2 :: r.1, r.2)
            else none
          | _ => none
    else if h : isPlain c = true then
      (scanPieces rest).map fun r => (.plain c h :: r.1, r.2)
    else none

def scanPlain (s : List Char) : Option (Json × List Char) :=
  if ['n', 'u', 'l', 'l'].isPrefixOf s then some (.null, s.drop 4)
  else if ['t', 'r', 'u', 'e'].isPrefixOf s then some (.bool true, s.drop 4)
  else if ['f', 'a', 'l', 's', 'e'].isPrefixOf s then some (.bool false, s.drop 5)
  else
    let text := s.takeWhile isNumeric
    if h : isNumeral text = true ∧ text.all isNumeric = true then
      some (.num ⟨text, h.1, h.2⟩, s.dropWhile isNumeric)
    else none

mutual

/-- The value a text starts with, and what follows it.  The number bounds the nesting. -/
def scanValue : Nat → List Char → Option (Json × List Char)
  | 0, _ => none
  | n + 1, s =>
    match s with
    | [] => none
    | c :: rest =>
      if c = '"' then (scanPieces rest).map fun r => (.str r.1, r.2)
      else if c = '[' then
        match skipSpace rest with
        | [] => none
        | d :: more =>
          if d = ']' then some (.arr .nil, more)
          else (scanItems n (d :: more)).map fun r => (.arr r.1, r.2)
      else if c = '{' then
        match skipSpace rest with
        | [] => none
        | d :: more =>
          if d = '}' then some (.obj .nil, more)
          else (scanMembers n (d :: more)).map fun r => (.obj r.1, r.2)
      else scanPlain (c :: rest)

def scanItems : Nat → List Char → Option (JsonItems × List Char)
  | 0, _ => none
  | n + 1, s =>
    match scanValue n s with
    | none => none
    | some (v, rest) =>
      match skipSpace rest with
      | [] => none
      | d :: more =>
        if d = ']' then some (.cons (consumed s rest) v .nil, more)
        else if d = ',' then
          (scanItems n (skipSpace more)).map fun r => (.cons (consumed s rest) v r.1, r.2)
        else none

def scanMembers : Nat → List Char → Option (JsonMembers × List Char)
  | 0, _ => none
  | n + 1, s =>
    match s with
    | [] => none
    | q :: s =>
      if q ≠ '"' then none
      else
        match scanPieces s with
        | none => none
        | some (k, afterKey) =>
          match skipSpace afterKey with
          | [] => none
          | colon :: s =>
            if colon ≠ ':' then none
            else
              let s := skipSpace s
              match scanValue n s with
              | none => none
              | some (v, rest) =>
                match skipSpace rest with
                | [] => none
                | d :: more =>
                  if d = '}' then some (.cons k (consumed s rest) v .nil, more)
                  else if d = ',' then
                    (scanMembers n (skipSpace more)).map fun r =>
                      (.cons k (consumed s rest) v r.1, r.2)
                  else none

end

def parse (text : List Char) : Option (List Char × Json) :=
  let s := skipSpace text
  match scanValue (2 * s.length + 1) s with
  | none => none
  | some (v, rest) => if skipSpace rest = [] then some (consumed s rest, v) else none

/-! ## Reading what was printed -/

theorem consumed_append (w rest : List Char) : consumed (w ++ rest) rest = w := by
  show (w ++ rest).take ((w ++ rest).length - rest.length) = w
  rw [List.length_append, Nat.add_sub_cancel, List.take_left]

theorem scanPieces_text (p : Piece) (w : List Char) :
    scanPieces (p.text ++ w) = (scanPieces w).map fun r => (p :: r.1, r.2) := by
  cases p with
  | plain c ok =>
    have hq : c ≠ '"' := by rintro rfl; exact absurd ok (by decide)
    have hb : c ≠ '\\' := by rintro rfl; exact absurd ok (by decide)
    rw [Piece.text, List.singleton_append, scanPieces.eq_def]
    simp only [hq, hb, ok, if_false, dif_pos]
  | short c ok =>
    rw [Piece.text, List.cons_append, scanPieces.eq_def]
    simp [ok]
  | code a b c d ok =>
    have hu : isShort 'u' = false := by decide
    have hall : isHex a = true ∧ isHex b = true ∧ isHex c = true ∧ isHex d = true := by
      simpa using ok
    rw [Piece.text, scanPieces.eq_def]
    simp [hu, hall]

theorem scanPieces_print (pieces : List Piece) (rest : List Char) :
    scanPieces (pieces.flatMap Piece.text ++ '"' :: rest) = some (pieces, rest) := by
  induction pieces with
  | nil =>
    rw [List.flatMap_nil, scanPieces.eq_def]
    rfl
  | cons p pieces ih =>
    rw [List.flatMap_cons, List.append_assoc, scanPieces_text, ih]
    rfl

/-- A numeral ends where its reader stops. -/
def Ends (rest : List Char) : Prop := ∀ c ∈ rest.head?, isNumeric c = false

theorem ends_cons {c : Char} {rest : List Char} (h : isNumeric c = false) : Ends (c :: rest) := by
  intro d hd
  rw [List.head?_cons, Option.mem_some_iff] at hd
  rw [← hd]
  exact h

def Starts (text : List Char) : Prop :=
  ∃ c rest, text = c :: rest ∧ isSpace c = false ∧ c ≠ ']' ∧ c ≠ '}'

theorem Starts.append {text : List Char} (h : Starts text) (rest : List Char) :
    Starts (text ++ rest) := by
  obtain ⟨c, more, rfl, hc⟩ := h
  exact ⟨c, more ++ rest, rfl, hc⟩

theorem Starts.skipSpace {text : List Char} (h : Starts text) : skipSpace text = text := by
  obtain ⟨c, rest, rfl, hspace, -⟩ := h
  show List.dropWhile isSpace (c :: rest) = c :: rest
  rw [List.dropWhile_cons, hspace]
  rfl

theorem isNumeric_of_head {n : Numeral} {c : Char} {rest : List Char} (h : n.text = c :: rest) :
    isNumeric c = true := by
  have hall := n.numeric
  rw [h, List.all_cons, Bool.and_eq_true] at hall
  exact hall.1

theorem Numeral.exists_cons (n : Numeral) : ∃ c rest, n.text = c :: rest := by
  cases h : n.text with
  | nil =>
    have hnum := n.numeral
    rw [h] at hnum
    exact absurd hnum (by decide)
  | cons c rest => exact ⟨c, rest, rfl⟩

theorem starts_print (v : Json) : Starts v.print := by
  cases v with
  | null | str pieces => exact ⟨_, _, rfl, by decide, by decide, by decide⟩
  | bool b => cases b <;> exact ⟨_, _, rfl, by decide, by decide, by decide⟩
  | num n =>
    obtain ⟨c, rest, hc⟩ := n.exists_cons
    have hnumeric := isNumeric_of_head hc
    refine ⟨c, rest, hc, ?_, ?_, ?_⟩
    · by_contra hspace
      rw [Bool.not_eq_false] at hspace
      have hmem : c = ' ' ∨ c = '\t' ∨ c = '\r' ∨ c = '\n' := by simpa [isSpace] using hspace
      rcases hmem with rfl | rfl | rfl | rfl <;> exact absurd hnumeric (by decide)
    · rintro rfl
      exact absurd hnumeric (by decide)
    · rintro rfl
      exact absurd hnumeric (by decide)
  | arr items => cases items <;> exact ⟨_, _, rfl, by decide, by decide, by decide⟩
  | obj members => cases members <;> exact ⟨_, _, rfl, by decide, by decide, by decide⟩

theorem scanPlain_num (n : Numeral) {rest : List Char} (hrest : Ends rest) :
    scanPlain (n.text ++ rest) = some (.num n, rest) := by
  obtain ⟨c, cs, hc⟩ := n.exists_cons
  have hnumeric := isNumeric_of_head hc
  have hword : ∀ w ws, isNumeric w = false → (w :: ws).isPrefixOf (n.text ++ rest) = false := by
    intro w ws hw
    rw [hc, List.cons_append, List.isPrefixOf]
    have hne : (w == c) = false := by
      rw [beq_eq_false_iff_ne]
      rintro rfl
      rw [hnumeric] at hw
      exact Bool.noConfusion hw
    rw [hne, Bool.false_and]
  have htake : (n.text ++ rest).takeWhile isNumeric = n.text := by
    rw [List.takeWhile_append_of_pos (fun a ha => List.all_eq_true.mp n.numeric a ha)]
    cases rest with
    | nil => rw [List.takeWhile_nil, List.append_nil]
    | cons d rest =>
      rw [List.takeWhile_cons, hrest d rfl, if_neg Bool.false_ne_true, List.append_nil]
  have hdrop : (n.text ++ rest).dropWhile isNumeric = rest := by
    rw [List.dropWhile_append_of_pos (fun a ha => List.all_eq_true.mp n.numeric a ha)]
    cases rest with
    | nil => rfl
    | cons d rest => rw [List.dropWhile_cons, hrest d rfl, if_neg Bool.false_ne_true]
  rw [scanPlain, hword 'n' _ (by decide), hword 't' _ (by decide), hword 'f' _ (by decide)]
  simp only [Bool.false_eq_true, if_false, htake, hdrop]
  rw [dif_pos ⟨n.numeral, n.numeric⟩]

/-- A text that the reader takes for the value `v`, whatever follows it. -/
def Reads (text : List Char) (v : Json) : Prop :=
  ∀ n rest, 2 * text.length ≤ n → Ends rest → scanValue (n + 1) (text ++ rest) = some (v, rest)

theorem reads_plain {text : List Char} {v : Json}
    (hhead : ∀ c ∈ text.head?, c ≠ '"' ∧ c ≠ '[' ∧ c ≠ '{') (hne : text ≠ [])
    (hscan : ∀ rest, Ends rest → scanPlain (text ++ rest) = some (v, rest)) : Reads text v := by
  intro n rest _ hrest
  cases text with
  | nil => exact absurd rfl hne
  | cons c cs =>
    obtain ⟨hq, hb, ho⟩ := hhead c rfl
    rw [List.cons_append, scanValue]
    simp only [hq, hb, ho]
    exact hscan rest hrest

theorem reads_str (pieces : List Piece) : Reads (quoted pieces) (.str pieces) := by
  intro n rest _ _
  have htext : quoted pieces ++ rest = '"' :: (pieces.flatMap Piece.text ++ '"' :: rest) := by
    rw [quoted, List.cons_append, List.append_assoc, List.singleton_append]
  rw [htext, scanValue]
  simp only [if_true, scanPieces_print, Option.map_some]

mutual

theorem reads_print : (v : Json) → v.tidy = v → Reads v.print v
  | .null, _ => by
    refine reads_plain (fun c hc => ?_) (List.cons_ne_nil _ _) (fun rest _ => rfl)
    cases hc
    decide
  | .bool b, _ => by
    cases b <;>
      refine reads_plain (fun c hc => ?_) (List.cons_ne_nil _ _) (fun rest _ => rfl) <;>
      cases hc <;> decide
  | .num n, _ => by
    obtain ⟨c, cs, hc⟩ := n.exists_cons
    have hnumeric := isNumeric_of_head hc
    refine reads_plain (fun d hd => ?_) (fun hnil => ?_) (fun rest hrest => scanPlain_num n hrest)
    · rw [print, hc, List.head?_cons, Option.mem_some_iff] at hd
      rw [← hd]
      refine ⟨?_, ?_, ?_⟩ <;>
      · rintro rfl
        exact absurd hnumeric (by decide)
    · rw [print, hc] at hnil
      exact absurd hnil (List.cons_ne_nil _ _)
  | .str pieces, _ => reads_str pieces
  | .arr .nil, _ => fun n rest _ _ => rfl
  | .arr (.cons raw v items), h => by
    intro n rest hn _
    rw [tidy, tidyItems, Json.arr.injEq, JsonItems.cons.injEq] at h
    obtain ⟨hraw, hv, hitems⟩ := h
    rw [hv] at hraw
    have hstarts : Starts (v.print ++ (printItems items ++ rest)) := (starts_print v).append _
    have hread := readsItems_print items hitems v (reads_print v hv) n rest (by
      rw [print, List.length_cons, List.length_append] at hn
      omega)
    rw [print, List.cons_append, List.append_assoc, scanValue]
    simp only [Char.reduceEq, if_false, if_true, hstarts.skipSpace]
    obtain ⟨c, cs, hc, -, hclose, -⟩ := hstarts
    rw [hc] at hread ⊢
    simp only [hclose, if_false, hread, Option.map_some, hraw]
  | .obj .nil, _ => fun n rest _ _ => rfl
  | .obj (.cons k raw v members), h => by
    intro n rest hn _
    rw [tidy, tidyMembers, Json.obj.injEq, JsonMembers.cons.injEq] at h
    obtain ⟨-, hraw, hv, hmembers⟩ := h
    rw [hv] at hraw
    have hread := readsMembers_print members hmembers k v (reads_print v hv) n rest (by
      rw [print, List.length_cons, List.length_append, List.length_cons, List.length_append] at hn
      omega)
    rw [print, List.cons_append, List.append_assoc, List.cons_append, List.append_assoc, scanValue]
    have hskip : skipSpace (quoted k ++ ':' :: (v.print ++ (printMembers members ++ rest))) =
        quoted k ++ ':' :: (v.print ++ (printMembers members ++ rest)) := rfl
    simp only [Char.reduceEq, if_false, if_true, hskip]
    rw [quoted, List.cons_append] at hread ⊢
    simp only [Char.reduceEq, if_false, hread, Option.map_some]
    rw [hraw]

theorem readsItems_print : (items : JsonItems) → tidyItems items = items →
    ∀ v : Json, Reads v.print v → ∀ n rest, 2 * (v.print.length + (printItems items).length) ≤ n →
      scanItems n (v.print ++ (printItems items ++ rest)) = some (.cons v.print v items, rest)
  | .nil, _, v, hv, n, rest, hn => by
    obtain ⟨n, rfl⟩ : ∃ m, n = m + 1 + 1 := ⟨n - 2, by
      rw [printItems, List.length_singleton] at hn
      omega⟩
    have hread := hv n (']' :: rest) (by
      rw [printItems, List.length_singleton] at hn
      omega) (ends_cons (by decide))
    rw [printItems, List.singleton_append, scanItems, hread]
    have hskip : skipSpace (']' :: rest) = ']' :: rest := rfl
    simp only [hskip, if_true, consumed_append]
  | .cons raw w items, h, v, hv, n, rest, hn => by
    rw [tidyItems, JsonItems.cons.injEq] at h
    obtain ⟨hraw, hw, hitems⟩ := h
    rw [hw] at hraw
    rw [printItems, List.length_cons, List.length_append] at hn
    obtain ⟨n, rfl⟩ : ∃ m, n = m + 1 + 1 := ⟨n - 2, by omega⟩
    have hread := hv n (',' :: (w.print ++ (printItems items ++ rest))) (by omega)
      (ends_cons (by decide))
    have hrest := readsItems_print items hitems w (reads_print w hw) (n + 1) rest (by omega)
    have hstarts : Starts (w.print ++ (printItems items ++ rest)) := (starts_print w).append _
    have hskip : skipSpace (',' :: (w.print ++ (printItems items ++ rest))) =
        ',' :: (w.print ++ (printItems items ++ rest)) := rfl
    rw [printItems, List.cons_append, List.append_assoc, scanItems, hread]
    simp only [hskip, Char.reduceEq, if_false, if_true, hstarts.skipSpace, hrest, Option.map_some,
      consumed_append]
    rw [hraw]

theorem readsMembers_print : (members : JsonMembers) → tidyMembers members = members →
    ∀ (k : List Piece) (v : Json), Reads v.print v → ∀ n rest,
      2 * ((quoted k).length + (v.print.length + (printMembers members).length)) ≤ n →
      scanMembers n (quoted k ++ ':' :: (v.print ++ (printMembers members ++ rest))) =
        some (.cons k v.print v members, rest)
  | .nil, _, k, v, hv, n, rest, hn => by
    obtain ⟨n, rfl⟩ : ∃ m, n = m + 1 + 1 := ⟨n - 2, by
      rw [printMembers, List.length_singleton] at hn
      omega⟩
    have hread := hv n ('}' :: rest) (by
      rw [printMembers, List.length_singleton] at hn
      omega) (ends_cons (by decide))
    have hstarts : Starts (v.print ++ '}' :: rest) := (starts_print v).append _
    rw [printMembers, List.singleton_append, quoted, List.cons_append, List.append_assoc,
      List.singleton_append, scanMembers]
    have hcolon : skipSpace (':' :: (v.print ++ '}' :: rest)) = ':' :: (v.print ++ '}' :: rest) :=
      rfl
    have hclose : skipSpace ('}' :: rest) = '}' :: rest := rfl
    simp only [ne_eq, not_true_eq_false, if_false, scanPieces_print, hcolon, hstarts.skipSpace,
      hread, hclose, if_true, consumed_append]
  | .cons k' raw w members, h, k, v, hv, n, rest, hn => by
    rw [tidyMembers, JsonMembers.cons.injEq] at h
    obtain ⟨-, hraw, hw, hmembers⟩ := h
    rw [hw] at hraw
    rw [printMembers, List.length_cons, List.length_append, List.length_cons,
      List.length_append] at hn
    obtain ⟨n, rfl⟩ : ∃ m, n = m + 1 + 1 := ⟨n - 2, by omega⟩
    let more := quoted k' ++ ':' :: (w.print ++ (printMembers members ++ rest))
    have hread := hv n (',' :: more) (by omega) (ends_cons (by decide))
    have hrest := readsMembers_print members hmembers k' w (reads_print w hw) (n + 1) rest
      (by omega)
    have hstarts : Starts (v.print ++ ',' :: more) := (starts_print v).append _
    have htail : printMembers (.cons k' raw w members) ++ rest = ',' :: more := by
      simp only [printMembers, more, List.cons_append, List.append_assoc]
    rw [htail, quoted, List.cons_append, List.append_assoc, List.singleton_append, scanMembers]
    have hcolon : skipSpace (':' :: (v.print ++ ',' :: more)) = ':' :: (v.print ++ ',' :: more) :=
      rfl
    have hcomma : skipSpace (',' :: more) = ',' :: more := rfl
    have hmore : skipSpace more = more := rfl
    simp only [ne_eq, not_true_eq_false, if_false, scanPieces_print, hcolon, hstarts.skipSpace,
      hread, hcomma, Char.reduceEq, if_true, hmore, consumed_append]
    rw [hrest, Option.map_some, hraw]

end

theorem parse_print {v : Json} (h : v.tidy = v) : parse v.print = some (v.print, v) := by
  have hread := reads_print v h (2 * v.print.length) [] (Nat.le_refl _) (fun c hc => nomatch hc)
  rw [List.append_nil] at hread
  rw [parse, (starts_print v).skipSpace, hread]
  show (if skipSpace [] = [] then some (consumed v.print [], v) else none) = some (v.print, v)
  have hall := consumed_append v.print []
  rw [List.append_nil] at hall
  rw [hall]
  rfl

end Json
