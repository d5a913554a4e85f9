import MiniHedge.Library.Mapping

/-! Records written under a schema.

Of a record, what is written is one value for each field of the schema: the
record's own, or else the default. The field has to accept it. A record that
comes back with the same values is one that has all of the fields and no others.
-/

set_option autoImplicit false

namespace MiniHedge.Library

structure FieldSchema (τ ν : Type) where
  name : String
  type : τ
  default : ν
  deriving DecidableEq, Repr

abbrev RecordSchema (τ ν : Type) := List (FieldSchema τ ν)

/-- The two dictionaries hold the same values. -/
def SameItems {ν : Type} (first second : List (String × ν)) : Prop :=
  ∀ key, first.lookup key = second.lookup key

namespace RecordSchema

variable {τ ν : Type}

def names (schema : RecordSchema τ ν) : List String := schema.map (·.name)

/-- `record.get(name, default)`. -/
def read (record : List (String × ν)) (field : FieldSchema τ ν) : ν :=
  (record.lookup field.name).getD field.default

section Accepts

variable (accepts : τ → ν → Bool)

def written : RecordSchema τ ν → List (String × ν) → Option (List (String × ν))
  | [], _ => some []
  | field :: rest, record =>
    if accepts field.type (read record field) then
      (written rest record).map ((field.name, read record field) :: ·)
    else none

/-- The record has a value for every field, which the field accepts, and no others. -/
structure Fits (schema : RecordSchema τ ν) (record : List (String × ν)) : Prop where
  complete : ∀ field ∈ schema,
    ∃ value, record.lookup field.name = some value ∧ accepts field.type value = true
  known : ∀ key ∈ record.map (·.1), key ∈ schema.names

variable {accepts} {schema : RecordSchema τ ν} {record result : List (String × ν)}

theorem written_eq_some : written accepts schema record = some result ↔
    (∀ field ∈ schema, accepts field.type (read record field) = true) ∧
      result = schema.map fun field => (field.name, read record field) := by
  induction schema generalizing result with
  | nil => exact ⟨fun wrote => ⟨by simp, (Option.some.inj wrote).symm⟩, fun ⟨_, same⟩ => by rw [same]; rfl⟩
  | cons field rest ih =>
    by_cases accepted : accepts field.type (read record field) = true
    · rw [written, if_pos accepted, Option.map_eq_some_iff]
      simp only [ih, List.forall_mem_cons, accepted, true_and, List.map_cons]
      constructor
      · rintro ⟨tail, ⟨all, rfl⟩, rfl⟩
        exact ⟨all, rfl⟩
      · rintro ⟨all, rfl⟩
        exact ⟨_, ⟨all, rfl⟩, rfl⟩
    · rw [written, if_neg accepted]
      simp [accepted]

theorem lookup_eq_none_iff {d : List (String × ν)} {key : String} :
    d.lookup key = none ↔ key ∉ d.map (·.1) := by
  rw [List.lookup_eq_none_iff, List.mem_map, not_exists]
  refine forall_congr' fun item => ?_
  rw [bne_iff_ne, ne_comm, not_and]

theorem lookup_map_read (distinct : schema.names.Nodup) {field : FieldSchema τ ν}
    (member : field ∈ schema) :
    (schema.map fun f => (f.name, read record f)).lookup field.name =
      some (read record field) := by
  rw [← mem_iff_lookup]
  · exact List.mem_map.mpr ⟨field, member, rfl⟩
  · rwa [List.map_map]

theorem lookup_map_read_absent {key : String} (absent : key ∉ schema.names) :
    (schema.map fun f => (f.name, read record f)).lookup key = none := by
  rw [lookup_eq_none_iff, List.map_map]
  exact absent

/-- A record comes back unchanged only when it fits its schema. -/
theorem written_same_iff (distinct : schema.names.Nodup) :
    (∃ result, written accepts schema record = some result ∧ SameItems result record) ↔
      Fits accepts schema record := by
  constructor
  · rintro ⟨result, wrote, same⟩
    obtain ⟨all, rfl⟩ := written_eq_some.mp wrote
    refine ⟨fun field member => ⟨read record field, ?_, all field member⟩, fun key held => ?_⟩
    · rw [← same, lookup_map_read distinct member]
    · by_contra absent
      have missing := same key
      rw [lookup_map_read_absent absent, eq_comm, lookup_eq_none_iff] at missing
      exact missing held
  · intro fits
    have own (field : FieldSchema τ ν) (member : field ∈ schema) :
        record.lookup field.name = some (read record field) := by
      obtain ⟨value, found, -⟩ := fits.complete field member
      simp [read, found]
    refine ⟨_, written_eq_some.mpr ⟨fun field member => ?_, rfl⟩, fun key => ?_⟩
    · obtain ⟨value, found, accepted⟩ := fits.complete field member
      simpa [read, found] using accepted
    · by_cases inside : key ∈ schema.names
      · obtain ⟨field, member, rfl⟩ := List.mem_map.mp inside
        rw [lookup_map_read distinct member, own field member]
      · rw [lookup_map_read_absent inside, eq_comm, lookup_eq_none_iff]
        exact fun held => inside (fits.known key held)

/-- A record fits when its items are those of the schema, in the schema's order. -/
theorem Fits.of_forall₂ (distinct : schema.names.Nodup)
    (items : List.Forall₂ (fun field item =>
      field.name = item.1 ∧ accepts field.type item.2 = true) schema record) :
    Fits accepts schema record := by
  have keys : record.map (·.1) = schema.names := by
    clear distinct
    induction items with
    | nil => rfl
    | cons first rest ih =>
      rw [List.map_cons, ih, ← first.1]
      rfl
  refine ⟨fun field member => ?_, fun key held => keys ▸ held⟩
  obtain ⟨i, bound, here⟩ := List.mem_iff_getElem.mp member
  have within : i < record.length := items.length_eq ▸ bound
  obtain ⟨same, accepted⟩ := items.get bound within
  simp only [List.get_eq_getElem, here] at same accepted
  refine ⟨record[i].2, ?_, accepted⟩
  rw [← mem_iff_lookup (keys ▸ distinct), same]
  exact List.getElem_mem within

theorem Fits.has_key (fits : Fits accepts schema record) (key : String) :
    key ∈ record.map (·.1) ↔ key ∈ schema.names := by
  refine ⟨fits.known key, fun inside => ?_⟩
  obtain ⟨field, member, rfl⟩ := List.mem_map.mp inside
  obtain ⟨value, found, -⟩ := fits.complete field member
  by_contra absent
  rw [lookup_eq_none_iff.mpr absent] at found
  cases found

end Accepts

end RecordSchema

end MiniHedge.Library
