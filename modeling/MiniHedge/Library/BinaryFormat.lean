import Mathlib.Data.List.Basic
import Mathlib.Data.UInt

/-! Binary formats.

A format writes some of the values of a type, and reads back what it has written,
whatever follows. Formats are put together from a few: numbers in groups of
seven bits, bytes behind their length, and two formats one after the other.
-/

set_option autoImplicit false

namespace MiniHedge.Library

abbrev Bytes := List UInt8

structure Format (α : Type) where
  write : α → Option Bytes
  read : Bytes → Option (α × Bytes)
  read_write : ∀ {a bytes}, write a = some bytes → ∀ rest, read (bytes ++ rest) = some (a, rest)

namespace Format

variable {α β : Type}

/-! ## Numbers -/

/-- Groups of seven bits, the lowest first; all but the last have the top bit set. -/
def writeVarint (n : Nat) : Bytes :=
  if n < 128 then [UInt8.ofNat n] else UInt8.ofNat (n % 128 + 128) :: writeVarint (n / 128)
  termination_by n

def readVarint : Bytes → Option (Nat × Bytes)
  | [] => none
  | byte :: rest =>
    if byte.toNat < 128 then some (byte.toNat, rest)
    else (readVarint rest).map fun (n, rest) => (byte.toNat - 128 + 128 * n, rest)

theorem readVarint_writeVarint (n : Nat) (rest : Bytes) :
    readVarint (writeVarint n ++ rest) = some (n, rest) := by
  induction n using Nat.strongRecOn with
  | ind n ih =>
    rw [writeVarint]
    by_cases last : n < 128
    · have own : (UInt8.ofNat n).toNat = n := by
        rw [UInt8.toNat_ofNat']
        omega
      rw [if_pos last, List.singleton_append, readVarint, own, if_pos last]
    · have own : (UInt8.ofNat (n % 128 + 128)).toNat = n % 128 + 128 := by
        rw [UInt8.toNat_ofNat']
        omega
      rw [if_neg last, List.cons_append, readVarint, own, if_neg (by omega), ih (n / 128) (by omega)]
      simp only [Option.map_some, Option.some.injEq, Prod.mk.injEq, and_true]
      omega

def varint : Format Nat where
  write n := some (writeVarint n)
  read := readVarint
  read_write written rest := by
    cases written
    exact readVarint_writeVarint _ rest

/-! ## Composition -/

/-- Values that are written as values of another type. -/
def via (format : Format β) (onto : α → Option β) (back : β → Option α)
    (law : ∀ {a b}, onto a = some b → back b = some a) : Format α where
  write a := (onto a).bind format.write
  read bytes := (format.read bytes).bind fun (b, rest) => (back b).map (·, rest)
  read_write written rest := by
    obtain ⟨b, same, written⟩ := Option.bind_eq_some_iff.mp written
    rw [format.read_write written, Option.bind_some]
    simp only [law same, Option.map_some]

def pair (first : Format α) (second : Format β) : Format (α × β) where
  write := fun (a, b) => (first.write a).bind fun front => (second.write b).map (front ++ ·)
  read bytes := (first.read bytes).bind fun (a, rest) =>
    (second.read rest).map fun (b, rest) => ((a, b), rest)
  read_write written rest := by
    obtain ⟨front, wrote, later⟩ := Option.bind_eq_some_iff.mp written
    obtain ⟨back, also, rfl⟩ := Option.map_eq_some_iff.mp later
    rw [List.append_assoc, first.read_write wrote, Option.bind_some]
    simp only [second.read_write also, Option.map_some]

def unit : Format Unit where
  write _ := some []
  read bytes := some ((), bytes)
  read_write written rest := by
    cases written
    rfl

/-- The format of no value. -/
def empty : Format α where
  write _ := none
  read _ := none
  read_write written := by cases written

/-- Nothing, or a value, behind a mark. -/
def orNull (format : Format α) : Format (Option α) where
  write
    | none => some [0]
    | some a => (format.write a).map (2 :: ·)
  read
    | 0 :: rest => some (none, rest)
    | 2 :: rest => (format.read rest).map fun (a, rest) => (some a, rest)
    | _ => none
  read_write {a bytes} written rest := by
    cases a with
    | none =>
      cases written
      rfl
    | some a =>
      obtain ⟨tail, wrote, rfl⟩ := Option.map_eq_some_iff.mp written
      simp only [List.cons_append, format.read_write wrote, Option.map_some]

/-! ## Integers, bytes and texts -/

/-- Even numbers for the naturals, odd ones for the negative integers. -/
def zigzag : Int → Nat
  | .ofNat n => 2 * n
  | .negSucc n => 2 * n + 1

def unzigzag (n : Nat) : Int := if n % 2 = 0 then .ofNat (n / 2) else .negSucc (n / 2)

theorem unzigzag_zigzag (i : Int) : unzigzag (zigzag i) = i := by
  cases i with
  | ofNat n =>
    rw [zigzag, unzigzag, if_pos (by omega)]
    congr 1
    omega
  | negSucc n =>
    rw [zigzag, unzigzag, if_neg (by omega)]
    congr 1
    omega

def int : Format Int :=
  varint.via (fun i => some (zigzag i)) (fun n => some (unzigzag n)) fun same => by
    cases same
    rw [unzigzag_zigzag]

def bytes : Format Bytes where
  write content := some (writeVarint (zigzag content.length) ++ content)
  read input := (int.read input).bind fun (length, rest) =>
    if 0 ≤ length ∧ length.toNat ≤ rest.length then
      some (rest.take length.toNat, rest.drop length.toNat)
    else none
  read_write {content _} written rest := by
    cases written
    have length : int.write content.length = some (writeVarint (zigzag content.length)) := rfl
    rw [List.append_assoc, int.read_write length, Option.bind_some]
    simp

def text : Format String :=
  bytes.via (fun s => some s.toUTF8.data.toList)
    (fun content => String.fromUTF8? ⟨content.toArray⟩) fun {s _} same => by
      cases same
      have whole : (⟨s.toUTF8.data.toList.toArray⟩ : ByteArray) = s.toUTF8 := rfl
      rw [whole, String.fromUTF8?, String.toUTF8_eq_toByteArray, dif_pos s.isValidUTF8]
      rfl

/-- One of some values, by its place among them. -/
def oneOf [DecidableEq α] (values : List α) : Format α :=
  int.via (fun a => (values.idxOf? a).map Int.ofNat) (fun i => values[i.toNat]?) fun same => by
    obtain ⟨i, found, rfl⟩ := Option.map_eq_some_iff.mp same
    obtain ⟨bound, here, -⟩ := List.idxOf?_eq_some_iff.mp found
    simpa [List.getElem?_eq_some_iff] using ⟨bound, here⟩

/-! ## Records -/

/-- The named values one after the other, in their order and without their names. -/
def record : List (String × Format α) → Format (List (String × α))
  | [] => unit.via (fun items => if items.isEmpty then some () else none) (fun _ => some [])
      fun {items _} same => by
        cases items with
        | nil => rfl
        | cons item rest => cases same
  | (name, format) :: fields => (format.pair (record fields)).via
      (fun
        | [] => none
        | (key, a) :: rest => if key = name then some (a, rest) else none)
      (fun (a, rest) => some ((name, a) :: rest)) fun {items _} same => by
        cases items with
        | nil => cases same
        | cons item rest =>
          by_cases own : item.1 = name
          · simp only [own, if_true, Option.some.injEq] at same
            subst same
            rw [← own]
          · simp [own] at same

end Format

end MiniHedge.Library
