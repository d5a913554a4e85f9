import Mathlib.Data.Nat.Digits.Defs
import Mathlib.Order.Basic
import Mathlib.Tactic.Linarith

/-! UUIDs as the `uuid` module has them: 128-bit numbers, ordered as numbers.

`str` writes the 8-4-4-4-12 form, `parse` reads it back with braces, hyphens
and URN prefix optional, and `uuid5` derives an identifier from a namespace
and a name through SHA-1.
-/

set_option autoImplicit false

namespace MiniHedge.Python

structure UUID where
  int : Nat
  bound : int < 2 ^ 128
  deriving DecidableEq, Repr

namespace UUID

@[ext] theorem ext {a b : UUID} (same : a.int = b.int) : a = b := by
  cases a
  cases b
  cases same
  rfl

/-- `UUID(int=n)`, for a number that fits. -/
def ofNat (n : Nat) : UUID := ⟨n % 2 ^ 128, Nat.mod_lt n (by decide)⟩

instance : LinearOrder UUID :=
  LinearOrder.lift' UUID.int fun _ _ same => ext same

/-! ## Text -/

def hexDigit (n : Nat) : Char :=
  if n < 10 then Char.ofNat (48 + n) else Char.ofNat (87 + n)

def hexValue (c : Char) : Option Nat :=
  if 48 ≤ c.toNat ∧ c.toNat ≤ 57 then some (c.toNat - 48)
  else if 97 ≤ c.toNat ∧ c.toNat ≤ 102 then some (c.toNat - 87)
  else if 65 ≤ c.toNat ∧ c.toNat ≤ 70 then some (c.toNat - 55)
  else none

/-- `k` hexadecimal digits, most significant first. -/
def hex : Nat → Nat → List Char
  | 0, _ => []
  | k + 1, n => hex k (n / 16) ++ [hexDigit (n % 16)]

def unhex (digits : List Char) : Option Nat :=
  digits.foldlM (fun value c => (hexValue c).map fun digit => value * 16 + digit) 0

def chars (u : UUID) : List Char :=
  let digits := hex 32 u.int
  digits.take 8 ++ '-' :: ((digits.drop 8).take 4 ++ '-' :: ((digits.drop 12).take 4 ++
    '-' :: ((digits.drop 16).take 4 ++ '-' :: digits.drop 20)))

def str (u : UUID) : String := String.ofList u.chars

/-- The text without the pattern, from after the `skip` characters of a match. -/
def removeFrom (pattern : List Char) : Nat → List Char → List Char
  | _, [] => []
  | skip + 1, _ :: rest => removeFrom pattern skip rest
  | 0, c :: rest =>
    if pattern.isPrefixOf (c :: rest) then removeFrom pattern (pattern.length - 1) rest
    else c :: removeFrom pattern 0 rest

/-- `str.replace(pattern, '')`. -/
def removeAll (pattern text : List Char) : List Char := removeFrom pattern 0 text

def isBrace (c : Char) : Bool := c = '\x7b' || c = '\x7d'

/-- `UUID(hex)`: `none` stands for the `ValueError` of a badly formed text. -/
def parse (text : String) : Option UUID :=
  let unprefixed := removeAll "uuid:".toList (removeAll "urn:".toList text.toList)
  let stripped := ((unprefixed.dropWhile isBrace).reverse.dropWhile isBrace).reverse
  let digits := stripped.filter (· ≠ '-')
  if digits.length ≠ 32 then none
  else match unhex digits with
    | none => none
    | some value => if bound : value < 2 ^ 128 then some ⟨value, bound⟩ else none

theorem hexValue_hexDigit {n : Nat} (digit : n < 16) : hexValue (hexDigit n) = some n := by
  have all : ∀ d : Fin 16, hexValue (hexDigit d) = some d.val := by decide
  exact all ⟨n, digit⟩

/-- The characters `str` writes. -/
def Written (c : Char) : Prop := c = '-' ∨ ∃ n < 16, c = hexDigit n

theorem Written.plain {c : Char} (written : Written c) :
    isBrace c = false ∧ c ≠ 'u' ∧ c ≠ ':' := by
  have all : ∀ d : Fin 16, isBrace (hexDigit d) = false ∧ hexDigit d ≠ 'u' ∧ hexDigit d ≠ ':' := by
    decide
  rcases written with rfl | ⟨n, digit, rfl⟩
  · decide
  · exact all ⟨n, digit⟩

theorem hexDigit_ne_hyphen {n : Nat} (digit : n < 16) : hexDigit n ≠ '-' := by
  have all : ∀ d : Fin 16, hexDigit d ≠ '-' := by decide
  exact all ⟨n, digit⟩

@[simp] theorem length_hex (k n : Nat) : (hex k n).length = k := by
  induction k generalizing n with
  | zero => rfl
  | succ k ih => simp [hex, ih]

theorem mem_hex {k n : Nat} {c : Char} (member : c ∈ hex k n) : ∃ d < 16, c = hexDigit d := by
  induction k generalizing n with
  | zero => simp [hex] at member
  | succ k ih =>
    rcases List.mem_append.mp member with earlier | last
    · exact ih earlier
    · exact ⟨n % 16, Nat.mod_lt _ (by decide), List.mem_singleton.mp last⟩

theorem unhex_hex (k n : Nat) : unhex (hex k n) = some (n % 16 ^ k) := by
  induction k generalizing n with
  | zero => simp [hex, unhex, Nat.mod_one]
  | succ k ih =>
    have earlier := ih (n / 16)
    rw [unhex] at earlier
    rw [unhex, hex, List.foldlM_append, earlier]
    have split : n % (16 * 16 ^ k) = n % 16 + 16 * (n / 16 % 16 ^ k) := Nat.mod_mul
    simp [hexValue_hexDigit (Nat.mod_lt n (by decide : 0 < 16)), pow_succ']
    omega

theorem removeAll_absent {c : Char} {pattern text : List Char} (absent : c ∉ text) :
    removeAll (c :: pattern) text = text := by
  rw [removeAll]
  induction text with
  | nil => rfl
  | cons d text ih =>
    rw [List.mem_cons, not_or] at absent
    simp [removeFrom, absent.1, ih absent.2]

theorem dropWhile_absent {p : Char → Bool} {text : List Char} (absent : ∀ c ∈ text, p c = false) :
    text.dropWhile p = text := by
  cases text with
  | nil => rfl
  | cons c text => simp [absent c (by simp)]

theorem written_chars (u : UUID) {c : Char} (member : c ∈ u.chars) : Written c := by
  have digit : ∀ {l : List Char}, l.Sublist (hex 32 u.int) → c ∈ l → Written c :=
    fun sub held => .inr (mem_hex (sub.subset held))
  simp only [chars, List.mem_append, List.mem_cons] at member
  rcases member with held | rfl | held | rfl | held | rfl | held | rfl | held
  · exact digit (List.take_sublist _ _) held
  · exact .inl rfl
  · exact digit ((List.take_sublist _ _).trans (List.drop_sublist _ _)) held
  · exact .inl rfl
  · exact digit ((List.take_sublist _ _).trans (List.drop_sublist _ _)) held
  · exact .inl rfl
  · exact digit ((List.take_sublist _ _).trans (List.drop_sublist _ _)) held
  · exact .inl rfl
  · exact digit (List.drop_sublist _ _) held

theorem filter_chars (u : UUID) : u.chars.filter (· ≠ '-') = hex 32 u.int := by
  have digit : ∀ {l : List Char}, l.Sublist (hex 32 u.int) → l.filter (· ≠ '-') = l := by
    intro l sub
    refine List.filter_eq_self.mpr fun c member => ?_
    obtain ⟨n, small, rfl⟩ := mem_hex (sub.subset member)
    simpa using hexDigit_ne_hyphen small
  have hyphen : ∀ l : List Char, ('-' :: l).filter (· ≠ '-') = l.filter (· ≠ '-') := fun _ => rfl
  have join : ∀ (l : List Char) (i k : Nat), (l.drop i).take k ++ l.drop (i + k) = l.drop i := by
    intro l i k
    rw [← List.drop_drop, List.take_append_drop]
  simp only [chars, List.filter_append, hyphen]
  rw [digit (List.take_sublist _ _), digit ((List.take_sublist _ _).trans (List.drop_sublist _ _)),
    digit ((List.take_sublist _ _).trans (List.drop_sublist _ _)),
    digit ((List.take_sublist _ _).trans (List.drop_sublist _ _)), digit (List.drop_sublist _ _),
    join _ 16 4, join _ 12 4, join _ 8 4, List.take_append_drop]

/-- Reading back what `str` wrote gives the same identifier. -/
@[simp] theorem parse_str (u : UUID) : parse u.str = some u := by
  have noU : 'u' ∉ u.chars := fun member => (written_chars u member).plain.2.1 rfl
  have noBrace : ∀ c ∈ u.chars, isBrace c = false := fun c member => (written_chars u member).plain.1
  have noBraceReversed : ∀ c ∈ u.chars.reverse, isBrace c = false :=
    fun c member => noBrace c (List.mem_reverse.mp member)
  have urn : removeAll "urn:".toList u.chars = u.chars := removeAll_absent noU
  have uuid : removeAll "uuid:".toList u.chars = u.chars := removeAll_absent noU
  have bounded : u.int % 16 ^ 32 = u.int := Nat.mod_eq_of_lt (by simpa using u.bound)
  simp only [parse, str, String.toList_ofList, urn, uuid, dropWhile_absent noBrace,
    dropWhile_absent noBraceReversed, List.reverse_reverse, filter_chars, length_hex, ne_eq,
    not_true_eq_false, if_false, unhex_hex, bounded, u.bound, dif_pos]

theorem length_chars (u : UUID) : u.chars.length = 36 := by
  simp [chars]

theorem str_injective {u v : UUID} (same : u.str = v.str) : u = v := by
  have read : parse u.str = parse v.str := congrArg parse same
  simpa using read

theorem colon_not_mem_str (u : UUID) : ':' ∉ u.str.toList := by
  intro member
  rw [str, String.toList_ofList] at member
  exact (written_chars u member).plain.2.2 rfl

/-! ## Name-based identifiers -/

/-- The `k` octets of a number, most significant first. -/
def octets : Nat → Nat → List Nat
  | 0, _ => []
  | k + 1, n => octets k (n / 256) ++ [n % 256]

def ofOctets (l : List Nat) : Nat := l.foldl (fun value octet => value * 256 + octet) 0

namespace Sha1

def rotl (k w : Nat) : Nat := ((w <<< k) ||| (w >>> (32 - k))) % 2 ^ 32

structure Digest where
  a : Nat
  b : Nat
  c : Nat
  d : Nat
  e : Nat

def start : Digest := ⟨0x67452301, 0xEFCDAB89, 0x98BADCFE, 0x10325476, 0xC3D2E1F0⟩

/-- The choice, parity and majority functions with their constants, by round. -/
def mix (t b c d : Nat) : Nat × Nat :=
  if t < 20 then ((b &&& c) ||| ((b ^^^ 0xFFFFFFFF) &&& d), 0x5A827999)
  else if t < 40 then (b ^^^ c ^^^ d, 0x6ED9EBA1)
  else if t < 60 then ((b &&& c) ||| (b &&& d) ||| (c &&& d), 0x8F1BBCDC)
  else (b ^^^ c ^^^ d, 0xCA62C1D6)

/-- The rounds from `t` on; the window holds the sixteen words that are next. -/
def rounds : Nat → Nat → List Nat → Digest → Digest
  | 0, _, _, s => s
  | k + 1, t, window, s =>
    let w := window.getD 0 0
    let (f, constant) := mix t s.b s.c s.d
    let next := rotl 1 (window.getD 13 0 ^^^ window.getD 8 0 ^^^ window.getD 2 0 ^^^ w)
    rounds k (t + 1) (window.tail ++ [next])
      ⟨(rotl 5 s.a + f + s.e + constant + w) % 2 ^ 32, s.a, rotl 30 s.b, s.c, s.d⟩

def compress (s : Digest) (block : List Nat) : Digest :=
  let words := (List.range 16).map fun i => ofOctets ((block.drop (4 * i)).take 4)
  let r := rounds 80 0 words s
  ⟨(s.a + r.a) % 2 ^ 32, (s.b + r.b) % 2 ^ 32, (s.c + r.c) % 2 ^ 32, (s.d + r.d) % 2 ^ 32,
    (s.e + r.e) % 2 ^ 32⟩

def pad (message : List Nat) : List Nat :=
  message ++ 0x80 :: List.replicate ((119 - message.length % 64) % 64) 0 ++
    octets 8 (8 * message.length)

def digest (message : List Nat) : List Nat :=
  let padded := pad message
  let blocks := (List.range (padded.length / 64)).map fun i => (padded.drop (64 * i)).take 64
  let s := blocks.foldl compress start
  octets 4 s.a ++ octets 4 s.b ++ octets 4 s.c ++ octets 4 s.d ++ octets 4 s.e

end Sha1

/-- The variant bits and the version number replace their fields of `n`. -/
def withVersion (version n : Nat) : Nat :=
  let low := n % 2 ^ 62
  let time := n / 2 ^ 64 % 2 ^ 12
  let high := n / 2 ^ 80 % 2 ^ 48
  high * 2 ^ 80 + version % 16 * 2 ^ 76 + time * 2 ^ 64 + 2 ^ 63 + low

theorem withVersion_lt (version n : Nat) : withVersion version n < 2 ^ 128 := by
  simp only [withVersion]
  omega

/-- `uuid5(namespace, name)`. -/
def uuid5 (space : UUID) (name : String) : UUID :=
  let message := octets 16 space.int ++
    name.toList.flatMap fun c => (String.utf8EncodeChar c).map UInt8.toNat
  ⟨withVersion 5 (ofOctets ((Sha1.digest message).take 16)), withVersion_lt _ _⟩

example : (uuid5 ⟨0x6ba7b8109dad11d180b400c04fd430c8, by decide⟩ "python.org").str =
    "886313e1-3b8a-5372-9b90-0c9aee199e5d" := by decide +kernel

end UUID

end MiniHedge.Python
