import MiniHedge.Library.BinaryFormat
import MiniHedge.Shared.SchemaRegistry
import Mathlib.Data.Rat.Lemmas

/-! The binary encoding of Avro, as a codec for the schemas.

Integers are written in zigzag groups of seven bits, texts behind their length,
a symbol by its place, and a union behind the place of its branch. No number is
written as a double.
-/

set_option autoImplicit false

namespace MiniHedge.Shared

open MiniHedge.Python MiniHedge.Library

/-! ## Bytes as texts -/

def latin1 (bytes : Bytes) : String := String.ofList (bytes.map fun byte => Char.ofNat byte.toNat)

def unlatin1 (value : String) : Option Bytes :=
  if isBytes value then some (value.toList.map fun c => UInt8.ofNat c.toNat) else none

theorem toNat_ofNat_byte (byte : UInt8) : (Char.ofNat byte.toNat).toNat = byte.toNat := by
  have small := byte.toNat_lt
  rw [Char.ofNat, dif_pos (.inl (by omega))]
  rfl

theorem isBytes_latin1 (bytes : Bytes) : isBytes (latin1 bytes) = true := by
  rw [isBytes, latin1, String.toList_ofList, List.all_eq_true]
  intro c member
  obtain ⟨byte, -, rfl⟩ := List.mem_map.mp member
  rw [toNat_ofNat_byte, decide_eq_true_eq]
  exact byte.toNat_lt

theorem unlatin1_latin1 (bytes : Bytes) : unlatin1 (latin1 bytes) = some bytes := by
  rw [unlatin1, if_pos (isBytes_latin1 bytes), latin1, String.toList_ofList, List.map_map]
  congr 1
  conv_rhs => rw [← List.map_id bytes]
  apply List.map_congr_left
  intro byte _
  simp [toNat_ofNat_byte]

theorem latin1_unlatin1 {value : String} {bytes : Bytes} (same : unlatin1 value = some bytes) :
    latin1 bytes = value := by
  by_cases small : isBytes value = true
  · rw [unlatin1, if_pos small, Option.some.injEq] at same
    subst same
    rw [latin1, List.map_map, ← String.toList_inj, String.toList_ofList]
    conv_rhs => rw [← List.map_id value.toList]
    apply List.map_congr_left
    intro c member
    have bound : c.toNat < 256 := by simpa using List.all_eq_true.mp small c member
    have own : (UInt8.ofNat c.toNat).toNat = c.toNat := by
      rw [UInt8.toNat_ofNat']
      omega
    simp [own]
  · rw [unlatin1, if_neg small] at same
    cases same

/-! ## Values -/

def jsonText : Json → Option String
  | .text value => some value
  | _ => none

def jsonInt32 : Json → Option Int
  | .number value shown =>
    if value.den = 1 ∧ shown = toString value.num ∧ -2 ^ 31 ≤ value.num ∧ value.num < 2 ^ 31 then
      some value.num
    else none
  | _ => none

theorem ofInt_jsonInt32 {value : Json} {i : Int} (same : jsonInt32 value = some i) :
    Json.number i (toString i) = value := by
  cases value with
  | number value shown =>
    simp only [jsonInt32, Option.ite_none_right_eq_some, Option.some.injEq] at same
    obtain ⟨⟨whole, written, -⟩, rfl⟩ := same
    rw [Rat.coe_int_num_of_den_eq_one whole, ← written]
  | null | bool _ | text _ | list _ _ => cases same

theorem ofText_jsonText {value : Json} {s : String} (same : jsonText value = some s) :
    Json.text s = value := by
  cases value with
  | text value =>
    cases same
    rfl
  | null | bool _ | number _ _ | list _ _ => cases same

namespace AvroType

def textFormat (format : Format String) : Format Json :=
  format.via jsonText (fun s => some (.text s)) fun same => by rw [ofText_jsonText same]

def int32Format : Format Json :=
  Format.int.via jsonInt32 (fun i => some (.number i (toString i))) fun same => by
    rw [ofInt_jsonInt32 same]

/-- Null, or a value of another format. -/
def nullOr (format : Format Json) : Format Json :=
  format.orNull.via (fun value => some (if value = .null then none else some value))
    (fun value => some (value.getD .null)) fun {value _} same => by
      by_cases null : value = .null
      · simp only [null, if_true, Option.some.injEq] at same
        rw [← same, null]
        rfl
      · simp only [null, if_false, Option.some.injEq] at same
        rw [← same]
        rfl

def format : AvroType → Format Json
  | .string => textFormat .text
  | .bytes => textFormat (Format.bytes.via unlatin1 (fun bytes => some (latin1 bytes))
      fun same => by rw [latin1_unlatin1 same])
  | .int => int32Format
  | .double => .empty
  | .enum symbols => textFormat (.oneOf symbols)
  | .nullOrString => nullOr (textFormat .text)
  | .nullOrInt => nullOr int32Format

def writes (type : AvroType) (value : Json) : Bool := (type.format.write value).isSome

theorem accepts_writes (type : AvroType) (value : Json) :
    type.accepts writes value = type.writes value := by
  cases type with
  | string => cases value <;> rfl
  | bytes =>
    cases value with
    | text value =>
      cases small : isBytes value <;>
        simp [accepts, writes, format, textFormat, Format.via, jsonText, unlatin1, small,
          Format.bytes]
    | null | bool _ | number _ _ | list _ _ => rfl
  | int | double => cases value <;> rfl
  | enum symbols =>
    cases value with
    | text value =>
      by_cases known : value ∈ symbols
      · obtain ⟨i, found⟩ : ∃ i, symbols.idxOf? value = some i := by
          rw [← Option.isSome_iff_exists, List.isSome_idxOf?]
          simpa using known
        simp [accepts, writes, format, textFormat, Format.via, jsonText, Format.oneOf, found, known,
          Format.int, Format.varint]
      · have missing : symbols.idxOf? value = none := List.idxOf?_eq_none_iff.mpr known
        simp [accepts, writes, format, textFormat, Format.via, jsonText, Format.oneOf, missing,
          known]
    | null | bool _ | number _ _ | list _ _ => rfl
  | nullOrString => cases value <;> rfl
  | nullOrInt => cases value <;> rfl

end AvroType

/-! ## Records -/

def recordFormat (schema : AvroSchema) : Format Parameters :=
  .record (schema.map fun field => (field.name, field.type.format))

theorem write_written {schema : AvroSchema} {record : Parameters}
    (accepted : ∀ field ∈ schema,
      field.type.accepts AvroType.writes (RecordSchema.read record field) = true) :
    ∃ bytes, (recordFormat schema).write
      (schema.map fun field => (field.name, RecordSchema.read record field)) = some bytes := by
  induction schema with
  | nil => exact ⟨[], rfl⟩
  | cons field rest ih =>
    obtain ⟨own, others⟩ := List.forall_mem_cons.mp accepted
    obtain ⟨tail, wrote⟩ := ih others
    rw [AvroType.accepts_writes, AvroType.writes, Option.isSome_iff_exists] at own
    obtain ⟨front, first⟩ := own
    refine ⟨front ++ tail, ?_⟩
    rw [recordFormat] at wrote ⊢
    simp [Format.record, Format.via, Format.pair, first, wrote]

def binaryEncode (schema : AvroSchema) (record : Parameters) : Except Exc String :=
  match (RecordSchema.written (AvroType.accepts AvroType.writes) schema record).bind
      (recordFormat schema).write with
  | some bytes => .ok (latin1 bytes)
  | none => .error (.valueError "the record does not match the schema")

def binaryDecode (schema : AvroSchema) (raw : String) : Except Exc Parameters :=
  match (unlatin1 raw).bind (recordFormat schema).read with
  | some (record, []) => .ok record
  | _ => .error (.valueError "the bytes do not match the schema")

def binaryCodec : AvroCodec where
  encode := binaryEncode
  decode := binaryDecode
  exact := AvroType.writes
  exact_int i lower upper := by
    have small : jsonInt32 (.number i (toString i)) = some i := by
      rw [jsonInt32, if_pos ⟨Rat.den_intCast i, by rw [Rat.num_intCast], lower, upper⟩,
        Rat.num_intCast]
    simp only [AvroType.writes, AvroType.format, AvroType.int32Format, Format.via]
    rw [small]
    rfl
  encode_bytes encoded := by
    unfold binaryEncode at encoded
    split at encoded
    · cases encoded
      exact isBytes_latin1 _
    · cases encoded
  decode_written {schema record result} wrote := by
    obtain ⟨accepted, rfl⟩ := RecordSchema.written_eq_some.mp wrote
    obtain ⟨bytes, written⟩ := write_written accepted
    refine ⟨latin1 bytes, ?_, ?_⟩
    · rw [binaryEncode, wrote, Option.bind_some, written]
    · have back := (recordFormat schema).read_write written []
      rw [List.append_nil] at back
      rw [binaryDecode, unlatin1_latin1, Option.bind_some, back]
  decode_refused refused encoded := by
    rw [binaryEncode, refused] at encoded
    cases encoded

end MiniHedge.Shared
