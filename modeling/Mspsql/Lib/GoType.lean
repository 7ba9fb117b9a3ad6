import Mspsql.Lib.GoJson

/-!
# Go values as JSON

`encoding/json` writes and reads a value by its type.  A type here is a description of a Go
type with its field tags, `GoType.Val` is the type of its values, and `GoType.marshal` and
`GoType.decode` go by recursion over the description, as the package does by reflection.

What is read back is the value up to `GoType.norm`: an empty slice that was left out comes
back as nil.  On values whose strings are valid UTF-8 reading back and writing again changes
nothing (`GoType.decode_marshal` and `GoType.marshal_norm`).
-/

mutual

/-- A Go type, as far as `encoding/json` looks at it.  `custom` is a type with its own
`MarshalJSON` and `UnmarshalJSON`, `raw` is `json.RawMessage`. -/
inductive GoType (κ : Type) where
  | string
  | bool
  | int (bits : Nat)
  | custom (kind : κ)
  | raw
  | ptr (elem : GoType κ)
  | slice (elem : GoType κ)
  | map (elem : GoType κ)
  | struct (fields : GoFields κ)

/-- The exported fields of a struct with their JSON names and `omitempty`. -/
inductive GoFields (κ : Type) where
  | nil
  | cons (name : String) (omitempty : Bool) (type : GoType κ) (rest : GoFields κ)

end

open Json (quote unquote quoted)

def Json.ofChars (w : List Char) : Json := .str (quote (GoString.ofChars w))

/-- The types that print themselves.  A value of such a type is known by the text it
prints; `canon` reads a JSON text and gives what the value read prints. -/
structure Printers (κ : Type) where
  canon : κ → List Char → Option (List Char)
  /-- Does `UnmarshalJSON` leave the value alone on `null`? -/
  keepsNull : κ → Bool
  zeroText : κ → List Char
  canon_printed : ∀ {k raw w}, canon k raw = some w → canon k (Json.ofChars w).print = some w
  canon_zero : ∀ k, canon k (Json.ofChars (zeroText k)).print = some (zeroText k)

variable {κ : Type}

/-- A text that is printed by a value of the kind. -/
abbrev Printers.Printed (P : Printers κ) (k : κ) : Type :=
  { w : List Char // P.canon k (Json.ofChars w).print = some w }

def Printers.read (P : Printers κ) (k : κ) (text : List Char) : Option (P.Printed k) :=
  match h : P.canon k text with
  | some w => some ⟨w, P.canon_printed h⟩
  | none => none

theorem Printers.read_print (P : Printers κ) {k : κ} (w : P.Printed k) :
    P.read k (Json.ofChars w.1).print = some w := by
  rw [Printers.read]
  split
  · rename_i h
    exact congrArg some (Subtype.ext (Option.some.inj (h.symm.trans w.2)))
  · rename_i h
    exact absurd (h.symm.trans w.2) (fun hnone => nomatch hnone)

/-- Does a signed integer of the given width hold the number? -/
def Fits (bits : Nat) (n : Int) : Prop := -(2 ^ (bits - 1)) ≤ n ∧ n < 2 ^ (bits - 1)
deriving Decidable

theorem fits_zero (bits : Nat) : Fits bits 0 := by
  have hpos : (0 : Int) < 2 ^ (bits - 1) := Int.pow_pos (by decide)
  exact ⟨by omega, hpos⟩

mutual

/-- The values of a type.  A value that its own `MarshalJSON` refuses to print is `none`. -/
@[reducible] def GoType.Val (P : Printers κ) : GoType κ → Type
  | .string => GoString
  | .bool => Bool
  | .int bits => { n : Int // Fits bits n }
  | .custom k => Option (P.Printed k)
  | .raw => Option (List Char)
  | .ptr t => Option (t.Val P)
  | .slice t => Option (List (t.Val P))
  | .map t => Option (SortedMap GoString (t.Val P))
  | .struct fs => fs.Val P

@[reducible] def GoFields.Val (P : Printers κ) : GoFields κ → Type
  | .nil => Unit
  | .cons _ _ t rest => t.Val P × rest.Val P

end

variable {P : Printers κ}

mutual

def GoType.zero : (t : GoType κ) → t.Val P
  | .string => ([] : GoString)
  | .bool => false
  | .int bits => ⟨0, fits_zero bits⟩
  | .custom k => some ⟨P.zeroText k, P.canon_zero k⟩
  | .raw => none
  | .ptr _ => none
  | .slice _ => none
  | .map _ => none
  | .struct fs => fs.zero

def GoFields.zero : (fs : GoFields κ) → fs.Val P
  | .nil => ()
  | .cons _ _ t rest => (t.zero, rest.zero)

end

/-- `isEmptyValue`, which decides about `omitempty`. -/
def GoType.isEmpty : (t : GoType κ) → t.Val P → Bool
  | .string, s => List.isEmpty (α := Rune) s
  | .bool, b => !b
  | .int _, n => n.1 = 0
  | .raw, v => (v.getD []).isEmpty
  | .ptr _, v => v.isNone
  | .slice _, v => (v.getD []).isEmpty
  | .map _, v => (v.getD ∅).entries.isEmpty
  | _, _ => false

/-- All results of a function, if each is there. -/
def collect {α β : Type} (f : α → Option β) : List α → Option (List β)
  | [] => some []
  | a :: rest => (f a).bind fun b => (collect f rest).map (b :: ·)

def JsonItems.ofList : List Json → JsonItems
  | [] => .nil
  | v :: rest => .cons v.print v (ofList rest)

def JsonMembers.ofList : List (List Json.Piece × Json) → JsonMembers
  | [] => .nil
  | (k, v) :: rest => .cons k v.print v (ofList rest)

mutual

/-- `json.Marshal`. -/
def GoType.marshal : (t : GoType κ) → t.Val P → Option Json
  | .string, s => some (.str (quote s))
  | .bool, b => some (.bool b)
  | .int _, n => some (.num (.ofInt n.1))
  | .custom _, v => v.map fun w => Json.ofChars w.1
  | .raw, v =>
    match v with
    | none => some .null
    | some text => (Json.parse text).map fun r => r.2.tidy
  | .ptr t, v =>
    match v with
    | none => some .null
    | some x => t.marshal x
  | .slice t, v =>
    match v with
    | none => some .null
    | some xs => (collect t.marshal xs).map fun vs => .arr (.ofList vs)
  | .map t, v =>
    match v with
    | none => some .null
    | some m =>
      (collect (fun e => (t.marshal e.2).map fun v => (quote e.1, v)) m.entries).map fun ms =>
        .obj (.ofList ms)
  | .struct fs, v => (fs.marshal v).map fun ms => .obj (.ofList ms)

def GoFields.marshal : (fs : GoFields κ) → fs.Val P → Option (List (List Json.Piece × Json))
  | .nil, _ => some []
  | .cons name omitempty t rest, (x, xs) =>
    if omitempty && t.isEmpty x then rest.marshal xs
    else (t.marshal x).bind fun v =>
      (rest.marshal xs).map ((quote (GoString.ofString name), v) :: ·)

end

mutual

/-- Every value in it that prints itself can be printed, and every raw message is JSON. -/
def GoType.Writable : (t : GoType κ) → t.Val P → Prop
  | .custom _, v => v.isSome = true
  | .raw, v => ∀ text ∈ v, (Json.parse text).isSome = true
  | .ptr t, v => ∀ x ∈ v, t.Writable x
  | .slice t, v => ∀ xs ∈ v, ∀ x ∈ xs, t.Writable x
  | .map t, v => ∀ m ∈ v, ∀ e ∈ m.entries, t.Writable e.2
  | .struct fs, v => fs.Writable v
  | _, _ => True

def GoFields.Writable : (fs : GoFields κ) → fs.Val P → Prop
  | .nil, _ => True
  | .cons _ _ t rest, (x, xs) => t.Writable x ∧ rest.Writable xs

end

theorem isSome_collect {f : α → Option β} {xs : List α} (h : ∀ x ∈ xs, (f x).isSome = true) :
    (collect f xs).isSome = true := by
  induction xs with
  | nil => rfl
  | cons x xs ih =>
    obtain ⟨hx, hxs⟩ := List.forall_mem_cons.mp h
    obtain ⟨b, hb⟩ := Option.isSome_iff_exists.mp hx
    rw [collect, hb, Option.bind_some, Option.isSome_map]
    exact ih hxs

mutual

theorem GoType.isSome_marshal : (t : GoType κ) → ∀ x : t.Val P, t.Writable x →
    (t.marshal x).isSome = true
  | .string, _, _ => rfl
  | .bool, _, _ => rfl
  | .int _, _, _ => rfl
  | .custom _, x, h => by rwa [GoType.marshal, Option.isSome_map]
  | .raw, none, _ => rfl
  | .raw, some text, h => by
    rw [GoType.marshal, Option.isSome_map]
    exact h text rfl
  | .ptr _, none, _ => rfl
  | .ptr t, some x, h => t.isSome_marshal x (h x rfl)
  | .slice _, none, _ => rfl
  | .slice t, some xs, h => by
    rw [GoType.marshal, Option.isSome_map]
    exact isSome_collect fun x hx => t.isSome_marshal x (h xs rfl x hx)
  | .map _, none, _ => rfl
  | .map t, some m, h => by
    rw [GoType.marshal, Option.isSome_map]
    refine isSome_collect fun e he => ?_
    rw [Option.isSome_map]
    exact t.isSome_marshal e.2 (h m rfl e he)
  | .struct fs, x, h => by
    rw [GoType.marshal, Option.isSome_map]
    exact fs.isSome_marshal x h

theorem GoFields.isSome_marshal : (fs : GoFields κ) → ∀ x : fs.Val P, fs.Writable x →
    (fs.marshal x).isSome = true
  | .nil, _, _ => rfl
  | .cons _ _ t rest, (x, xs), h => by
    rw [GoFields.marshal]
    split
    · exact rest.isSome_marshal xs h.2
    · obtain ⟨v, hv⟩ := Option.isSome_iff_exists.mp (t.isSome_marshal x h.1)
      rw [hv, Option.bind_some, Option.isSome_map]
      exact rest.isSome_marshal xs h.2

end

/-! ## Reading -/

/-- Characters that are equal for the decoder when it looks for a field. -/
def foldChar (c : Char) : Char :=
  if c = '\u212A' then 'k' else if c = '\u017F' then 's' else c.toLower

def foldName (s : GoString) : GoString := s.map fun r =>
  match r with
  | .char c => .char (foldChar c)
  | .bad b => .bad b

/-- The field a key goes to: the one of that name, or else the first that differs from it
only in case. -/
def resolve (names : List String) (key : GoString) : Option String :=
  (names.find? fun name => GoString.ofString name = key).or
    (names.find? fun name => foldName (GoString.ofString name) = foldName key)

/-- The values of the members with a certain key, one after the other into one place. -/
def JsonMembers.decodeInto {α : Type} (goes : GoString → Bool)
    (f : List Char → Json → α → Option α) : JsonMembers → α → Option α
  | .nil, a => some a
  | .cons k raw v rest, a =>
    if goes (unquote none k) then (f raw v a).bind (rest.decodeInto goes f)
    else rest.decodeInto goes f a

def JsonMembers.decodeMap {α : Type} (f : List Char → Json → Option α) :
    JsonMembers → SortedMap GoString α → Option (SortedMap GoString α)
  | .nil, m => some m
  | .cons k raw v rest, m => (f raw v).bind fun a => rest.decodeMap f (m.insert (unquote none k) a)

def JsonItems.decodeList {α : Type} (f : List Char → Json → Option α) : JsonItems → Option (List α)
  | .nil => some []
  | .cons raw v rest => (f raw v).bind fun a => (rest.decodeList f).map (a :: ·)

def GoFields.names : GoFields κ → List String
  | .nil => []
  | .cons name _ _ rest => name :: rest.names

mutual

/-- Decoding a JSON value, given with its text, into a place that holds a value already. -/
def GoType.decode : (t : GoType κ) → List Char → Json → t.Val P → Option (t.Val P)
  | .string, _, v, cur =>
    match v with
    | .null => some cur
    | .str pieces => some (unquote none pieces)
    | _ => none
  | .bool, _, v, cur =>
    match v with
    | .null => some cur
    | .bool b => some b
    | _ => none
  | .int bits, _, v, cur =>
    match v with
    | .null => some cur
    | .num n => n.toInt?.bind fun i => if h : Fits bits i then some ⟨i, h⟩ else none
    | _ => none
  | .custom k, text, v, cur =>
    match v with
    | .null => if P.keepsNull k then some cur else (P.read k text).map some
    | _ => (P.read k text).map some
  | .raw, text, _, _ => some (some text)
  | .ptr t, text, v, cur =>
    match v with
    | .null => some none
    | v => (t.decode text v (cur.getD t.zero)).map some
  | .slice t, _, v, _ =>
    match v with
    | .null => some none
    | .arr items => (items.decodeList fun text v => t.decode text v t.zero).map some
    | _ => none
  | .map t, _, v, cur =>
    match v with
    | .null => some none
    | .obj members =>
      (members.decodeMap (fun text v => t.decode text v t.zero) (cur.getD ∅)).map some
    | _ => none
  | .struct fs, _, v, cur =>
    match v with
    | .null => some cur
    | .obj members => fs.decode fs.names members cur
    | _ => none

def GoFields.decode : (fs : GoFields κ) → List String → JsonMembers → fs.Val P → Option (fs.Val P)
  | .nil, _, _, _ => some ()
  | .cons name _ t rest, names, members, (x, xs) =>
    (members.decodeInto (fun key => resolve names key = some name) t.decode x).bind fun x =>
      (rest.decode names members xs).map fun xs => (x, xs)

end

section

variable {name : String} {omitempty : Bool} {t : GoType κ} {rest : GoFields κ}
  {names : List String} {members : JsonMembers} {x y : (GoFields.cons name omitempty t rest).Val P}

theorem GoFields.decode_fst
    (h : (GoFields.cons name omitempty t rest).decode names members x = some y) :
    members.decodeInto (fun key => resolve names key = some name) t.decode x.1 = some y.1 := by
  obtain ⟨y₁, hy₁, h⟩ := Option.bind_eq_some_iff.mp h
  obtain ⟨y₂, hy₂, rfl⟩ := Option.map_eq_some_iff.mp h
  exact hy₁

theorem GoFields.decode_snd
    (h : (GoFields.cons name omitempty t rest).decode names members x = some y) :
    rest.decode names members x.2 = some y.2 := by
  obtain ⟨y₁, hy₁, h⟩ := Option.bind_eq_some_iff.mp h
  obtain ⟨y₂, hy₂, rfl⟩ := Option.map_eq_some_iff.mp h
  exact hy₂

end

/-- `json.Unmarshal` into a fresh variable. -/
def GoType.unmarshal (t : GoType κ) (text : List Char) : Option (t.Val P) :=
  (Json.parse text).bind fun r => t.decode r.1 r.2 t.zero

/-! ## What is written is tidy -/

theorem collect_forall₂ {α β : Type} {f : α → Option β} {xs : List α} {ys : List β}
    (h : collect f xs = some ys) : List.Forall₂ (fun x y => f x = some y) xs ys := by
  induction xs generalizing ys with
  | nil =>
    cases h
    exact .nil
  | cons x xs ih =>
    rw [collect, Option.bind_eq_some_iff] at h
    obtain ⟨y, hy, h⟩ := h
    rw [Option.map_eq_some_iff] at h
    obtain ⟨rest, hrest, rfl⟩ := h
    exact .cons hy (ih hrest)

theorem exists_of_mem_collect {f : α → Option β} {xs : List α} {ys : List β}
    (h : collect f xs = some ys) {y : β} (hy : y ∈ ys) : ∃ x ∈ xs, f x = some y := by
  have hall := collect_forall₂ h
  clear h
  induction hall with
  | nil => exact absurd hy List.not_mem_nil
  | cons hx _ ih =>
    rcases List.mem_cons.mp hy with rfl | hy
    · exact ⟨_, List.mem_cons_self, hx⟩
    · obtain ⟨x, hmem, hfx⟩ := ih hy
      exact ⟨x, List.mem_cons_of_mem _ hmem, hfx⟩

theorem JsonItems.tidy_ofList {vs : List Json} (h : ∀ v ∈ vs, v.tidy = v) :
    Json.tidyItems (ofList vs) = ofList vs := by
  induction vs with
  | nil => rfl
  | cons v vs ih =>
    obtain ⟨hv, hvs⟩ := List.forall_mem_cons.mp h
    rw [ofList, Json.tidyItems, hv, ih hvs]

theorem JsonMembers.tidy_ofList (h : ∀ m ∈ ms, m.1.map Json.Piece.escape = m.1 ∧ m.2.tidy = m.2) :
    Json.tidyMembers (ofList ms) = ofList ms := by
  induction ms with
  | nil => rfl
  | cons m ms ih =>
    obtain ⟨⟨hk, hv⟩, hms⟩ := List.forall_mem_cons.mp h
    rw [ofList, Json.tidyMembers, hk, hv, ih hms]

theorem Json.tidy_ofChars (w : List Char) : (Json.ofChars w).tidy = Json.ofChars w := by
  rw [Json.ofChars, Json.tidy, Json.escape_quote]

mutual

theorem GoType.tidy_marshal : (t : GoType κ) → ∀ (x : t.Val P) (v : Json),
    t.marshal x = some v → v.tidy = v
  | .string, s, v, h => by
    cases h
    rw [Json.tidy, Json.escape_quote]
  | .bool, b, v, h => by
    cases h
    rfl
  | .int _, n, v, h => by
    cases h
    rfl
  | .custom _, x, v, h => by
    rw [GoType.marshal, Option.map_eq_some_iff] at h
    obtain ⟨w, -, rfl⟩ := h
    exact Json.tidy_ofChars w.1
  | .raw, none, v, h => by
    cases h
    rfl
  | .raw, some text, v, h => by
    rw [GoType.marshal, Option.map_eq_some_iff] at h
    obtain ⟨r, -, rfl⟩ := h
    exact Json.tidy_tidy r.2
  | .ptr _, none, v, h => by
    cases h
    rfl
  | .ptr t, some x, v, h => t.tidy_marshal x v h
  | .slice _, none, v, h => by
    cases h
    rfl
  | .slice t, some xs, v, h => by
    rw [GoType.marshal, Option.map_eq_some_iff] at h
    obtain ⟨vs, hvs, rfl⟩ := h
    refine congrArg Json.arr (JsonItems.tidy_ofList fun v hv => ?_)
    obtain ⟨x, -, hx⟩ := exists_of_mem_collect hvs hv
    exact t.tidy_marshal x v hx
  | .map _, none, v, h => by
    cases h
    rfl
  | .map t, some m, v, h => by
    rw [GoType.marshal, Option.map_eq_some_iff] at h
    obtain ⟨ms, hms, rfl⟩ := h
    refine congrArg Json.obj (JsonMembers.tidy_ofList fun r hr => ?_)
    obtain ⟨e, -, he⟩ := exists_of_mem_collect hms hr
    rw [Option.map_eq_some_iff] at he
    obtain ⟨v, hv, rfl⟩ := he
    exact ⟨Json.escape_quote _, t.tidy_marshal e.2 v hv⟩
  | .struct fs, x, v, h => by
    rw [GoType.marshal, Option.map_eq_some_iff] at h
    obtain ⟨ms, hms, rfl⟩ := h
    exact congrArg Json.obj (JsonMembers.tidy_ofList (fs.tidy_marshal x ms hms))

theorem GoFields.tidy_marshal : (fs : GoFields κ) → ∀ (x : fs.Val P)
    (ms : List (List Json.Piece × Json)), fs.marshal x = some ms →
      ∀ m ∈ ms, m.1.map Json.Piece.escape = m.1 ∧ m.2.tidy = m.2
  | .nil, _, ms, h => by
    cases h
    exact List.forall_mem_nil _
  | .cons name omitempty t rest, (x, xs), ms, h => by
    rw [GoFields.marshal] at h
    split at h
    · exact rest.tidy_marshal xs ms h
    · rw [Option.bind_eq_some_iff] at h
      obtain ⟨v, hv, h⟩ := h
      rw [Option.map_eq_some_iff] at h
      obtain ⟨ms, hms, rfl⟩ := h
      exact List.forall_mem_cons.mpr
        ⟨⟨Json.escape_quote _, t.tidy_marshal x v hv⟩, rest.tidy_marshal xs ms hms⟩

end

/-! ## Reading back -/

/-- A type whose values are never written as `null`. -/
def GoType.solid : GoType κ → Bool
  | .raw | .ptr _ | .slice _ | .map _ => false
  | _ => true

mutual

/-- The field names of a struct differ, and a pointer is not to something that can itself be
nil. -/
def GoType.wellFormed : GoType κ → Bool
  | .ptr t => t.solid && t.wellFormed
  | .slice t => t.wellFormed
  | .map t => t.wellFormed
  | .struct fs => fs.names.Nodup && fs.wellFormed
  | _ => true

def GoFields.wellFormed : GoFields κ → Bool
  | .nil => true
  | .cons _ _ t rest => t.wellFormed && rest.wellFormed

end

mutual

/-- All strings of the value are valid UTF-8. -/
def GoType.Clean : (t : GoType κ) → t.Val P → Prop
  | .string, s => GoString.Clean s
  | .ptr t, v => ∀ x ∈ v, t.Clean x
  | .slice t, v => ∀ xs ∈ v, ∀ x ∈ xs, t.Clean x
  | .map t, v => ∀ m ∈ v, ∀ e ∈ m.entries, GoString.Clean e.1 ∧ t.Clean e.2
  | .struct fs, v => fs.Clean v
  | _, _ => True

def GoFields.Clean : (fs : GoFields κ) → fs.Val P → Prop
  | .nil, _ => True
  | .cons _ _ t rest, (x, xs) => t.Clean x ∧ rest.Clean xs

end

def SortedMap.mapValues {α β : Type} {ι : Type} [LinearOrder ι] (f : α → β) (m : SortedMap ι α) :
    SortedMap ι β :=
  ⟨m.entries.map fun e => (e.1, f e.2), List.pairwise_map.mpr m.sorted⟩

mutual

/-- The value that is read back for a value. -/
def GoType.norm : (t : GoType κ) → t.Val P → t.Val P
  | .raw, v => ((GoType.raw.marshal v).map Json.print).or v
  | .ptr t, v => v.map t.norm
  | .slice t, v => v.map (List.map t.norm)
  | .map t, v => v.map (SortedMap.mapValues t.norm)
  | .struct fs, v => fs.norm v
  | .string, v => v
  | .bool, v => v
  | .int _, v => v
  | .custom _, v => v

def GoFields.norm : (fs : GoFields κ) → fs.Val P → fs.Val P
  | .nil, v => v
  | .cons _ omitempty t rest, (x, xs) =>
    (if omitempty && t.isEmpty x then t.zero else t.norm x, rest.norm xs)

end

theorem JsonItems.decodeList_ofList {f : List Char → Json → Option β} {g : α → Option Json}
    {h : α → β} {xs : List α} {vs : List Json} (hcollect : collect g xs = some vs)
    (hread : ∀ x ∈ xs, ∀ v, g x = some v → f v.print v = some (h x)) :
    (ofList vs).decodeList f = some (xs.map h) := by
  induction xs generalizing vs with
  | nil =>
    cases hcollect
    rfl
  | cons x xs ih =>
    rw [collect, Option.bind_eq_some_iff] at hcollect
    obtain ⟨v, hv, hcollect⟩ := hcollect
    rw [Option.map_eq_some_iff] at hcollect
    obtain ⟨rest, hrest, rfl⟩ := hcollect
    obtain ⟨hx, hxs⟩ := List.forall_mem_cons.mp hread
    rw [ofList, decodeList, hx v hv, ih hrest hxs]
    rfl

namespace SortedMap

variable {α β : Type} {ms : List (List Json.Piece × Json)}

variable {ι α : Type} [LinearOrder ι]

theorem insertIn_of_forall_lt {k : ι} {v : α} {l : List (ι × α)} (h : ∀ e ∈ l, e.1 < k) :
    insertIn k v l = l ++ [(k, v)] := by
  induction l with
  | nil => rfl
  | cons e l ih =>
    obtain ⟨he, hl⟩ := List.forall_mem_cons.mp h
    rw [insertIn, if_pos he, ih hl]
    rfl

theorem ext_entries {m m' : SortedMap ι α} (h : m.entries = m'.entries) : m = m' := by
  cases m'
  cases h
  rfl

end SortedMap

/-- Entries that are written in their order are put into the map one behind the other. -/
theorem JsonMembers.decodeMap_ofList {f : List Char → Json → Option β} {g : α → Option Json}
    {h : α → β} {es : List (GoString × α)} {m : SortedMap GoString β}
    (hcollect : collect (fun e => (g e.2).map fun v => (quote e.1, v)) es = some ms)
    (hread : ∀ e ∈ es, GoString.Clean e.1 ∧ ∀ v, g e.2 = some v → f v.print v = some (h e.2))
    (hsorted : es.Pairwise fun a b => a.1 < b.1) (hbelow : ∀ a ∈ m.entries, ∀ e ∈ es, a.1 < e.1) :
    ∃ m', (ofList ms).decodeMap f m = some m' ∧
      m'.entries = m.entries ++ es.map fun e => (e.1, h e.2) := by
  induction es generalizing ms m with
  | nil =>
    cases hcollect
    exact ⟨m, rfl, (List.append_nil _).symm⟩
  | cons e es ih =>
    rw [collect, Option.bind_eq_some_iff] at hcollect
    obtain ⟨_, hv, hcollect⟩ := hcollect
    rw [Option.map_eq_some_iff] at hv hcollect
    obtain ⟨v, hv, rfl⟩ := hv
    obtain ⟨rest, hrest, rfl⟩ := hcollect
    obtain ⟨⟨hclean, he⟩, hes⟩ := List.forall_mem_cons.mp hread
    obtain ⟨hfirst, hsorted⟩ := List.pairwise_cons.mp hsorted
    have hkey : unquote none (quote e.1) = e.1 := by
      rw [Json.unquote_quote, Json.map_valid_of_clean hclean]
    have hentries : (m.insert e.1 (h e.2)).entries = m.entries ++ [(e.1, h e.2)] :=
      SortedMap.insertIn_of_forall_lt fun a ha => hbelow a ha e List.mem_cons_self
    have hbelow' : ∀ a ∈ (m.insert e.1 (h e.2)).entries, ∀ b ∈ es, a.1 < b.1 := by
      intro a ha b hb
      rw [hentries, List.mem_append, List.mem_singleton] at ha
      rcases ha with ha | rfl
      · exact hbelow a ha b (List.mem_cons_of_mem _ hb)
      · exact hfirst b hb
    obtain ⟨m', hm', hm'entries⟩ := ih hrest hes hsorted hbelow'
    refine ⟨m', ?_, ?_⟩
    · rw [ofList, decodeMap, he v hv, hkey]
      exact hm'
    · rw [hm'entries, hentries, List.append_assoc, List.singleton_append, List.map_cons]

theorem JsonMembers.decodeInto_append {goes : GoString → Bool} {f : List Char → Json → α → Option α}
    (before after : List (List Json.Piece × Json)) (a : α) :
    (ofList (before ++ after)).decodeInto goes f a =
      ((ofList before).decodeInto goes f a).bind ((ofList after).decodeInto goes f) := by
  induction before generalizing a with
  | nil => rfl
  | cons m before ih =>
    rw [List.cons_append, ofList, ofList, decodeInto, decodeInto]
    split
    · rw [Option.bind_assoc]
      exact congrArg _ (funext fun b => ih b)
    · exact ih a

theorem JsonMembers.decodeInto_of_forall {goes : GoString → Bool}
    {f : List Char → Json → α → Option α} (h : ∀ m ∈ ms, goes (unquote none m.1) = false) (a : α) :
    (ofList ms).decodeInto goes f a = some a := by
  induction ms with
  | nil => rfl
  | cons m ms ih =>
    obtain ⟨hm, hms⟩ := List.forall_mem_cons.mp h
    rw [ofList, decodeInto, hm]
    exact ih hms

theorem unquote_quote_ofString (s : String) :
    unquote none (quote (GoString.ofString s)) = GoString.ofString s := by
  rw [Json.unquote_quote]
  exact Json.map_valid_of_clean (GoString.ofChars_clean _)

theorem resolve_name {names : List String} {name : String} (h : name ∈ names) :
    resolve names (GoString.ofString name) = some name := by
  have hfind : names.find? (fun n => GoString.ofString n = GoString.ofString name) = some name := by
    cases hf : names.find? (fun n => GoString.ofString n = GoString.ofString name) with
    | none =>
      have hno := List.find?_eq_none.mp hf name h
      exact absurd (decide_eq_true rfl) hno
    | some n =>
      have heq : GoString.ofString n = GoString.ofString name := by
        simpa using List.find?_some hf
      rw [GoString.ofString_injective heq]
  rw [resolve, hfind]
  rfl

theorem GoFields.exists_name_of_mem_marshal : (fs : GoFields κ) → ∀ (x : fs.Val P)
    (ms : List (List Json.Piece × Json)), fs.marshal x = some ms →
      ∀ m ∈ ms, ∃ name ∈ fs.names, m.1 = quote (GoString.ofString name)
  | .nil, _, ms, h => by
    cases h
    exact List.forall_mem_nil _
  | .cons name omitempty t rest, (x, xs), ms, h => by
    have hrest : ∀ ms', rest.marshal xs = some ms' → ∀ m ∈ ms',
        ∃ n ∈ name :: rest.names, m.1 = quote (GoString.ofString n) := by
      intro ms' hms' m hm
      obtain ⟨n, hn, hkey⟩ := rest.exists_name_of_mem_marshal xs ms' hms' m hm
      exact ⟨n, List.mem_cons_of_mem _ hn, hkey⟩
    rw [GoFields.marshal] at h
    split at h
    · exact hrest ms h
    · rw [Option.bind_eq_some_iff] at h
      obtain ⟨v, hv, h⟩ := h
      rw [Option.map_eq_some_iff] at h
      obtain ⟨ms, hms, rfl⟩ := h
      exact List.forall_mem_cons.mpr ⟨⟨name, List.mem_cons_self, rfl⟩, hrest ms hms⟩

theorem GoType.marshal_ne_null {t : GoType κ} (h : t.solid = true) {x : t.Val P} {v : Json}
    (hv : t.marshal x = some v) : v ≠ .null := by
  rintro rfl
  cases t with
  | string | bool | int bits => cases hv
  | custom k =>
    rw [GoType.marshal, Option.map_eq_some_iff] at hv
    obtain ⟨w, -, hv⟩ := hv
    cases hv
  | raw | ptr t | slice t | map t => cases h
  | struct fs =>
    rw [GoType.marshal, Option.map_eq_some_iff] at hv
    obtain ⟨ms, -, hv⟩ := hv
    cases hv

mutual

/-- What `json.Marshal` writes is read back as the value, empty slices and maps apart. -/
theorem GoType.decode_marshal : (t : GoType κ) → t.wellFormed = true →
    ∀ (x : t.Val P) (v : Json), t.Clean x → t.marshal x = some v →
      t.decode v.print v t.zero = some (t.norm x)
  | .string, _, s, v, hclean, h => by
    cases h
    rw [GoType.decode, Json.unquote_quote, Json.map_valid_of_clean hclean]
    rfl
  | .bool, _, b, v, _, h => by
    cases h
    rfl
  | .int bits, _, n, v, _, h => by
    cases h
    rw [GoType.decode, Json.toInt?_ofInt, Option.bind_some, dif_pos n.2]
    rfl
  | .custom k, _, x, v, _, h => by
    rw [GoType.marshal, Option.map_eq_some_iff] at h
    obtain ⟨w, rfl, rfl⟩ := h
    show (P.read k (Json.ofChars w.1).print).map some = some (some w)
    rw [P.read_print]
    rfl
  | .raw, _, x, v, _, h => by
    rw [GoType.decode, GoType.norm, h]
    rfl
  | .ptr _, _, none, v, _, h => by
    cases h
    rfl
  | .ptr t, hwf, some x, v, hclean, h => by
    rw [GoType.wellFormed, Bool.and_eq_true] at hwf
    have hread := t.decode_marshal hwf.2 x v (hclean x rfl) h
    have hnull := GoType.marshal_ne_null hwf.1 h
    have hstep : (GoType.ptr t).decode v.print v (GoType.ptr t).zero =
        (t.decode v.print v t.zero : Option (t.Val P)).map some := by
      cases v with
      | null => exact absurd rfl hnull
      | _ => rfl
    rw [hstep, hread]
    rfl
  | .slice _, _, none, v, _, h => by
    cases h
    rfl
  | .slice t, hwf, some xs, v, hclean, h => by
    rw [GoType.marshal, Option.map_eq_some_iff] at h
    obtain ⟨vs, hvs, rfl⟩ := h
    have hread := JsonItems.decodeList_ofList (f := fun text v => t.decode text v t.zero)
      (h := t.norm) hvs fun x hx v hv => t.decode_marshal hwf x v (hclean xs rfl x hx) hv
    rw [GoType.decode, hread]
    rfl
  | .map _, _, none, v, _, h => by
    cases h
    rfl
  | .map t, hwf, some m, v, hclean, h => by
    rw [GoType.marshal, Option.map_eq_some_iff] at h
    obtain ⟨ms, hms, rfl⟩ := h
    obtain ⟨m', hm', hentries⟩ := JsonMembers.decodeMap_ofList (m := ∅)
      (f := fun text v => t.decode text v t.zero) (h := t.norm) hms
      (fun e he => ⟨(hclean m rfl e he).1, fun v hv =>
        t.decode_marshal hwf e.2 v (hclean m rfl e he).2 hv⟩)
      m.sorted (fun a ha => nomatch ha)
    rw [GoType.decode]
    show ((JsonMembers.ofList ms).decodeMap _ ∅).map some = _
    have hread : m' = SortedMap.mapValues t.norm m := SortedMap.ext_entries hentries
    rw [hm', hread]
    rfl
  | .struct fs, hwf, x, v, hclean, h => by
    rw [GoType.marshal, Option.map_eq_some_iff] at h
    obtain ⟨ms, hms, rfl⟩ := h
    rw [GoType.wellFormed, Bool.and_eq_true, decide_eq_true_eq] at hwf
    exact fs.decode_marshal hwf.2 hwf.1 fs.names (fun name hname => hname) [] x ms hclean hms
      (fun m hm => nomatch hm)

/-- The fields that are still to be read, behind members that belong to other fields. -/
theorem GoFields.decode_marshal : (fs : GoFields κ) → fs.wellFormed = true → fs.names.Nodup →
    ∀ names : List String, (∀ name ∈ fs.names, name ∈ names) →
    ∀ (before : List (List Json.Piece × Json)) (x : fs.Val P)
      (ms : List (List Json.Piece × Json)), fs.Clean x → fs.marshal x = some ms →
      (∀ m ∈ before, ∀ name ∈ fs.names, resolve names (unquote none m.1) ≠ some name) →
      fs.decode names (.ofList (before ++ ms)) fs.zero = some (fs.norm x)
  | .nil, _, _, names, _, before, x, ms, _, _, _ => rfl
  | .cons name omitempty t rest, hwf, hnodup, names, hnames, before, (x, xs), ms, hclean, h,
      hbefore => by
    rw [GoFields.wellFormed, Bool.and_eq_true] at hwf
    obtain ⟨hname, hnodup⟩ := List.nodup_cons.mp hnodup
    obtain ⟨hmem, hrestnames⟩ := List.forall_mem_cons.mp hnames
    -- the members of the later fields do not go to this one
    have hothers : ∀ ms', rest.marshal xs = some ms' → ∀ m ∈ ms',
        decide (resolve names (unquote none m.1) = some name) = false := by
      intro ms' hms' m hm
      obtain ⟨n, hn, hkey⟩ := rest.exists_name_of_mem_marshal xs ms' hms' m hm
      rw [hkey, unquote_quote_ofString, resolve_name (hrestnames n hn), decide_eq_false_iff_not]
      intro heq
      exact hname (Option.some.inj heq ▸ hn)
    have hfront : ∀ m ∈ before, decide (resolve names (unquote none m.1) = some name) = false :=
      fun m hm => decide_eq_false (hbefore m hm name List.mem_cons_self)
    have hbehind : ∀ m ∈ before, ∀ n ∈ rest.names, resolve names (unquote none m.1) ≠ some n :=
      fun m hm n hn => hbefore m hm n (List.mem_cons_of_mem _ hn)
    rw [GoFields.marshal] at h
    rw [GoFields.zero, GoFields.decode, GoFields.norm]
    split at h
    · rename_i hempty
      rw [if_pos hempty, JsonMembers.decodeInto_of_forall (fun m hm => ?_), Option.bind_some,
        rest.decode_marshal hwf.2 hnodup names hrestnames before xs ms hclean.2 h hbehind]
      · rfl
      · rcases List.mem_append.mp hm with hm | hm
        · exact hfront m hm
        · exact hothers ms h m hm
    · rename_i hempty
      rw [Option.bind_eq_some_iff] at h
      obtain ⟨v, hv, h⟩ := h
      rw [Option.map_eq_some_iff] at h
      obtain ⟨ms, hms, rfl⟩ := h
      have hown : resolve names (unquote none (quote (GoString.ofString name))) = some name := by
        rw [unquote_quote_ofString, resolve_name hmem]
      have hfirst : (JsonMembers.ofList
          (before ++ (quote (GoString.ofString name), v) :: ms)).decodeInto
          (fun key => resolve names key = some name) t.decode t.zero = some (t.norm x) := by
        rw [JsonMembers.decodeInto_append, JsonMembers.decodeInto_of_forall hfront,
          Option.bind_some, JsonMembers.ofList, JsonMembers.decodeInto,
          if_pos (by simpa using hown), t.decode_marshal hwf.1 x v hclean.1 hv, Option.bind_some,
          JsonMembers.decodeInto_of_forall (hothers ms hms)]
      have hsplit : before ++ (quote (GoString.ofString name), v) :: ms =
          before ++ [(quote (GoString.ofString name), v)] ++ ms := by
        rw [List.append_assoc, List.singleton_append]
      have hrest := rest.decode_marshal hwf.2 hnodup names hrestnames
        (before ++ [(quote (GoString.ofString name), v)]) xs ms hclean.2 hms (by
          intro m hm n hn
          rcases List.mem_append.mp hm with hm | hm
          · exact hbehind m hm n hn
          · rw [List.mem_singleton.mp hm, hown]
            intro heq
            exact hname (Option.some.inj heq ▸ hn))
      rw [if_neg hempty, hfirst, Option.bind_some, hsplit, hrest]
      rfl

end

theorem GoType.unmarshal_marshal {t : GoType κ} (hwf : t.wellFormed = true) {x : t.Val P}
    {v : Json} (hclean : t.Clean x) (h : t.marshal x = some v) :
    t.unmarshal v.print = some (t.norm x) := by
  rw [GoType.unmarshal, Json.parse_print (t.tidy_marshal x v h)]
  exact t.decode_marshal hwf x v hclean h

/-! ## Writing again -/

theorem GoType.isEmpty_zero {t : GoType κ} {x : t.Val P} (h : t.isEmpty x = true) :
    t.isEmpty (t.zero : t.Val P) = true := by
  cases t with
  | custom k => cases h
  | struct fs => cases h
  | _ => rfl

theorem GoType.isEmpty_norm {t : GoType κ} {x : t.Val P} (h : t.isEmpty x = false) :
    t.isEmpty (t.norm x) = false := by
  cases t with
  | raw =>
    rw [GoType.norm]
    cases hv : (GoType.raw : GoType κ).marshal x with
    | none => exact h
    | some v =>
      obtain ⟨c, rest, hprint, -⟩ := Json.starts_print v
      show (v.print).isEmpty = false
      rw [hprint]
      rfl
  | ptr t => cases x <;> [exact h; rfl]
  | slice t =>
    cases x with
    | none => exact h
    | some xs =>
      cases xs with
      | nil => exact h
      | cons a xs => rfl
  | map t =>
    cases x with
    | none => exact h
    | some m =>
      obtain ⟨entries, hsorted⟩ := m
      cases entries with
      | nil => exact h
      | cons a xs => rfl
  | _ => exact h

theorem collect_congr {γ : Type} {f : α → Option β} {g : γ → Option β} {h : α → γ} {xs : List α}
    (heq : ∀ x ∈ xs, g (h x) = f x) : collect g (xs.map h) = collect f xs := by
  induction xs with
  | nil => rfl
  | cons x xs ih =>
    obtain ⟨hx, hxs⟩ := List.forall_mem_cons.mp heq
    rw [List.map_cons, collect, collect, hx, ih hxs]

mutual

theorem GoType.marshal_norm : (t : GoType κ) → ∀ x : t.Val P, t.marshal (t.norm x) = t.marshal x
  | .string, _ => rfl
  | .bool, _ => rfl
  | .int _, _ => rfl
  | .custom _, _ => rfl
  | .raw, x => by
    rw [GoType.norm]
    cases h : (GoType.raw : GoType κ).marshal x with
    | none => exact h
    | some v =>
      have htidy := (GoType.raw : GoType κ).tidy_marshal x v h
      show (Json.parse v.print).map (fun r => r.2.tidy) = some v
      rw [Json.parse_print htidy, Option.map_some, htidy]
  | .ptr _, none => rfl
  | .ptr t, some x => t.marshal_norm x
  | .slice _, none => rfl
  | .slice t, some xs => by
    show (collect t.marshal (xs.map t.norm)).map _ = (collect t.marshal xs).map _
    rw [collect_congr fun x _ => t.marshal_norm x]
  | .map _, none => rfl
  | .map t, some m => by
    show (collect _ (m.entries.map fun e => (e.1, t.norm e.2))).map _ = (collect _ m.entries).map _
    rw [collect_congr fun e _ => ?_]
    show (t.marshal (t.norm e.2)).map _ = (t.marshal e.2).map _
    rw [t.marshal_norm e.2]
  | .struct fs, x => by
    show (fs.marshal (fs.norm x)).map _ = (fs.marshal x).map _
    rw [fs.marshal_norm x]

theorem GoFields.marshal_norm :
    (fs : GoFields κ) → ∀ x : fs.Val P, fs.marshal (fs.norm x) = fs.marshal x
  | .nil, _ => rfl
  | .cons name omitempty t rest, (x, xs) => by
    rw [GoFields.norm, GoFields.marshal, GoFields.marshal, rest.marshal_norm xs]
    by_cases hempty : (omitempty && t.isEmpty x) = true
    · have homit : (omitempty && t.isEmpty (t.zero : t.Val P)) = true := by
        rw [Bool.and_eq_true] at hempty ⊢
        exact ⟨hempty.1, GoType.isEmpty_zero hempty.2⟩
      rw [if_pos hempty, if_pos hempty, if_pos homit]
    · have hkept : ¬ (omitempty && t.isEmpty (t.norm x)) = true := by
        intro h
        rw [Bool.and_eq_true] at h hempty
        have hfull : t.isEmpty x = false := by
          rw [← Bool.not_eq_true]
          exact fun hx => hempty ⟨h.1, hx⟩
        rw [GoType.isEmpty_norm hfull] at h
        exact Bool.noConfusion h.2
      rw [if_neg hempty, if_neg hempty, if_neg hkept, t.marshal_norm x]

end

/-! ## Zero values -/

mutual

theorem GoType.writable_zero : (t : GoType κ) → t.Writable (t.zero : t.Val P)
  | .string => trivial
  | .bool => trivial
  | .int _ => trivial
  | .custom _ => rfl
  | .raw => fun _ h => nomatch h
  | .ptr _ => fun _ h => nomatch h
  | .slice _ => fun _ h => nomatch h
  | .map _ => fun _ h => nomatch h
  | .struct fs => fs.writable_zero

theorem GoFields.writable_zero : (fs : GoFields κ) → fs.Writable (fs.zero : fs.Val P)
  | .nil => trivial
  | .cons _ _ t rest => ⟨t.writable_zero, rest.writable_zero⟩

end

mutual

theorem GoType.clean_zero : (t : GoType κ) → t.Clean (t.zero : t.Val P)
  | .string => fun _ h => nomatch h
  | .bool => trivial
  | .int _ => trivial
  | .custom _ => trivial
  | .raw => trivial
  | .ptr _ => fun _ h => nomatch h
  | .slice _ => fun _ h => nomatch h
  | .map _ => fun _ h => nomatch h
  | .struct fs => fs.clean_zero

theorem GoFields.clean_zero : (fs : GoFields κ) → fs.Clean (fs.zero : fs.Val P)
  | .nil => trivial
  | .cons _ _ t rest => ⟨t.clean_zero, rest.clean_zero⟩

end
