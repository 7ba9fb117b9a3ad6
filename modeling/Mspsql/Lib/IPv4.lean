import Mspsql.Lib.Text

/-!
# IPv4 addresses and their prefixes

Addresses and prefixes as the Go package `netip` has them.  The zero value of an address, which
is what lies behind the last address, is `none`.
-/

namespace IPv4

open List

abbrev Addr := Fin (2 ^ 32)

/-- `Addr.Next`. -/
def next (a : Option Addr) : Option Addr :=
  a.bind fun a => if h : a.val + 1 < 2 ^ 32 then some ⟨a.val + 1, h⟩ else none

theorem next_some {a : Addr} (h : a.val + 1 < 2 ^ 32) :
    next (some a) = some ⟨a.val + 1, h⟩ :=
  dif_pos h

theorem next_eq_some {a b : Addr} : next (some a) = some b ↔ b.val = a.val + 1 := by
  by_cases h : a.val + 1 < 2 ^ 32
  · rw [next_some h, Option.some_inj, Fin.ext_iff]
    exact eq_comm
  · have hnone : next (some a) = none := dif_neg h
    rw [hnone]
    constructor
    · exact nofun
    · omega

def octets (a : Addr) : List Nat :=
  [a.val / 2 ^ 24, a.val / 2 ^ 16 % 256, a.val / 2 ^ 8 % 256, a.val % 256]

theorem octet_lt {a : Addr} {n : Nat} (h : n ∈ octets a) : n < 256 := by
  simp only [octets, mem_cons, not_mem_nil, or_false] at h
  omega

/-- `Addr.String`. -/
def text : Option Addr → String
  | some a => Text.join "." ((octets a).map toString)
  | none => "invalid IP"

def number? (limit : Nat) (field : String) : Option Nat :=
  (Text.digits? field.toList).filter fun n => n ≤ limit ∧ toString n = field

/-- `netip.ParseAddr` of an IPv4 address. -/
def parseAddr (s : String) : Option Addr :=
  match (Text.splitOnChar '.' s).mapM (number? 255) with
  | some [a, b, c, d] => some (Fin.ofNat _ (((a * 256 + b) * 256 + c) * 256 + d))
  | _ => none

set_option maxRecDepth 4000 in
theorem number?_toString : ∀ n < 256, number? 255 (toString n) = some n := by decide

theorem mapM_number?_toString {l : List Nat} (h : ∀ n ∈ l, n < 256) :
    (l.map toString).mapM (number? 255) = some l := by
  induction l with
  | nil => rfl
  | cons n rest ih =>
    obtain ⟨hn, hrest⟩ := forall_mem_cons.mp h
    rw [map_cons, mapM_cons, number?_toString n hn, ih hrest]
    rfl

theorem parseAddr_text (a : Addr) : parseAddr (text (some a)) = some a := by
  have hsplit : Text.splitOnChar '.' (text (some a)) = (octets a).map toString := by
    refine Text.splitOnChar_join (cons_ne_nil _ _) fun s hs => ?_
    obtain ⟨n, -, rfl⟩ := mem_map.mp hs
    exact Text.not_mem_toString (by decide) n
  rw [parseAddr, hsplit, mapM_number?_toString fun n => octet_lt]
  refine congrArg some (Fin.ext ?_)
  simp only [Fin.val_ofNat]
  omega

theorem text_ne_empty (a : Addr) : text (some a) ≠ "" := by
  intro h
  have hparse := parseAddr_text a
  rw [h] at hparse
  have hnone : parseAddr "" = none := by decide
  cases hparse

theorem text_inj {a b : Addr} (h : text (some a) = text (some b)) : a = b := by
  have ha := parseAddr_text a
  rw [h, parseAddr_text] at ha
  exact (Option.some.inj ha).symm

structure Prefix where
  addr : Addr
  bits : Nat
deriving DecidableEq, Repr

namespace Prefix

variable (p : Prefix)

def size : Nat := 2 ^ (32 - p.bits)

/-- `Prefix.Contains`. -/
def contains (a : Option Addr) : Bool :=
  a.any fun a => a.val >>> (32 - p.bits) = p.addr.val >>> (32 - p.bits)

/-- `Prefix.Masked`. -/
def masked : Prefix :=
  { p with addr := Fin.ofNat _ (p.addr.val >>> (32 - p.bits) <<< (32 - p.bits)) }

/-- `Prefix.String`. -/
def text : String := IPv4.text (some p.addr) ++ "/" ++ toString p.bits

/-- `netip.ParsePrefix` of an IPv4 prefix. -/
def parse (s : String) : Option Prefix :=
  match Text.splitOnChar '/' s with
  | [addr, bits] => (parseAddr addr).bind fun addr => (number? 32 bits).map fun bits => ⟨addr, bits⟩
  | _ => none

variable {p}

theorem exists_block (hmasked : p = p.masked) : ∃ block, p.addr.val = block * p.size := by
  have haddr : p.addr.val = p.addr.val >>> (32 - p.bits) <<< (32 - p.bits) % 2 ^ 32 :=
    congrArg (fun q : Prefix => q.addr.val) hmasked
  have hle : p.addr.val / p.size * p.size ≤ p.addr.val := Nat.div_mul_le_self _ _
  rw [Nat.shiftRight_eq_div_pow, Nat.shiftLeft_eq, ← size, Nat.mod_eq_of_lt (by omega)] at haddr
  exact ⟨_, haddr⟩

theorem contains_iff (hmasked : p = p.masked) {a : Addr} :
    p.contains (some a) = true ↔ p.addr.val ≤ a.val ∧ a.val < p.addr.val + p.size := by
  obtain ⟨block, hblock⟩ := exists_block hmasked
  have hpos : 0 < p.size := Nat.two_pow_pos _
  have hdiv : p.addr.val / p.size = block := by rw [hblock, Nat.mul_div_cancel _ hpos]
  rw [contains, Option.any_some, decide_eq_true_eq, Nat.shiftRight_eq_div_pow,
    Nat.shiftRight_eq_div_pow]
  show a.val / p.size = p.addr.val / p.size ↔ _
  rw [hdiv, Nat.div_eq_iff hpos]
  omega

theorem last_le (hbits : p.bits ≤ 32) (hmasked : p = p.masked) : p.addr.val + p.size ≤ 2 ^ 32 := by
  obtain ⟨block, hblock⟩ := exists_block hmasked
  have hall : 2 ^ p.bits * p.size = 2 ^ 32 := by
    rw [size, ← Nat.pow_add, Nat.add_sub_cancel' hbits]
  have hlt : block * p.size < 2 ^ p.bits * p.size := by
    rw [hall, ← hblock]
    exact p.addr.isLt
  have hle : (block + 1) * p.size ≤ 2 ^ p.bits * p.size :=
    Nat.mul_le_mul_right _ (Nat.lt_of_mul_lt_mul_right hlt)
  rw [hall, Nat.succ_mul] at hle
  rw [hblock]
  exact hle

theorem eight_le_size (hbits : p.bits ≤ 29) : 8 ≤ p.size := by
  have hpow : 2 ^ 3 ≤ 2 ^ (32 - p.bits) := Nat.pow_le_pow_right (by decide) (by omega)
  exact hpow

end Prefix

end IPv4
