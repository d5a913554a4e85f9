import MiniHedge.Python.Json

/-! The change events of Debezium, and the topics that they come on.

An event carries the row before and after the change, and where the change is in
the log of the database. Of a value only what it is read as is kept: a tombstone
has none, and what is garbled is no JSON.
-/

set_option autoImplicit false

namespace MiniHedge.Audit

open MiniHedge.Python

/-! ## Topics and schemas -/

/-- `(.+)$`: one line, which a last line break may follow. -/
def line (text : List Char) : Option (List Char) :=
  let found := text.takeWhile (· ≠ '\n')
  if found ≠ [] ∧ (text = found ∨ text = found ++ ['\n']) then some found else none

/-- `_CDC_TOPIC_PATTERN`, with its schema and its table. -/
def cdcTopic (topic : String) : Option (String × String) :=
  match topic.toList with
  | 'c' :: 'd' :: 'c' :: '.' :: rest =>
    let schema := rest.takeWhile (· ≠ '.')
    match rest.dropWhile (· ≠ '.') with
    | '.' :: table =>
      if schema = [] then none
      else (line table).map fun table => (String.ofList schema, String.ofList table)
    | _ => none
  | _ => none

/-- `text.replace(a, b)`, of one character. -/
def replace (a b : Char) (text : List Char) : List Char := text.map fun c => if c = a then b else c

/-- `_schema_to_fund_slug`. -/
def schemaToFundSlug (schema : String) : Option String :=
  match schema.toList with
  | 'f' :: 'u' :: 'n' :: 'd' :: '_' :: rest =>
    (line rest).map fun found => String.ofList (replace '_' '-' found)
  | _ => none

/-- What `fund_schema_name` accepts. -/
def ValidSlug (slug : String) : Prop :=
  slug.toList ≠ [] ∧ ∀ c ∈ slug.toList, c.isLower ∨ c.isDigit ∨ c = '-'

instance (slug : String) : Decidable (ValidSlug slug) :=
  decidable_of_iff (slug.toList ≠ [] ∧
    slug.toList.all fun c => c.isLower || c.isDigit || c = '-') (by simp [ValidSlug, or_assoc])

def fundSchemaName (slug : String) : String :=
  "fund_" ++ String.ofList (replace '-' '_' slug.toList)

/-- Debezium's topic of a table. -/
def topicOf (schema table : String) : String := "cdc." ++ schema ++ "." ++ table

theorem takeWhile_free {c : Char} {text : List Char} (absent : c ∉ text) (rest : List Char) :
    (text ++ rest).takeWhile (· ≠ c) = text ++ rest.takeWhile (· ≠ c) ∧
      (text ++ rest).dropWhile (· ≠ c) = rest.dropWhile (· ≠ c) := by
  have free : ∀ d ∈ text, decide (d ≠ c) = true := fun d member => by
    have other : d ≠ c := fun same => absent (same ▸ member)
    simpa using other
  exact ⟨List.takeWhile_append_of_pos free, List.dropWhile_append_of_pos free⟩

theorem line_of {text : List Char} (nonempty : text ≠ []) (absent : '\n' ∉ text) :
    line text = some text := by
  have whole := (takeWhile_free absent []).1
  rw [List.append_nil, List.takeWhile_nil, List.append_nil] at whole
  rw [line]
  simp only [whole, true_or, and_true, if_pos nonempty]

theorem cdcTopic_topicOf {schema table : String} (schemaNonempty : schema.toList ≠ [])
    (undotted : '.' ∉ schema.toList) (tableNonempty : table.toList ≠ [])
    (unbroken : '\n' ∉ table.toList) : cdcTopic (topicOf schema table) = some (schema, table) := by
  have spelled : (topicOf schema table).toList =
      'c' :: 'd' :: 'c' :: '.' :: (schema.toList ++ '.' :: table.toList) := by
    simp [topicOf]
  obtain ⟨front, back⟩ := takeWhile_free undotted ('.' :: table.toList)
  have first : ('.' :: table.toList).takeWhile (· ≠ '.') = [] := by simp
  have rest : ('.' :: table.toList).dropWhile (· ≠ '.') = '.' :: table.toList := by simp
  rw [first, List.append_nil] at front
  rw [rest] at back
  rw [cdcTopic, spelled]
  simp only [front, back, if_neg schemaNonempty, line_of tableNonempty unbroken, Option.map_some,
    String.ofList_toList]

section Slugs

variable {slug : String}

theorem ValidSlug.absent (valid : ValidSlug slug) {c : Char}
    (other : ¬ (c.isLower ∨ c.isDigit ∨ c = '-')) : c ∉ slug.toList :=
  fun member => other (valid.2 c member)

theorem mem_replace {a b c : Char} {text : List Char} (member : c ∈ replace a b text) :
    c ∈ text ∨ c = b := by
  obtain ⟨d, inside, rfl⟩ := List.mem_map.mp member
  split
  · exact .inr rfl
  · exact .inl inside

theorem replace_replace {a b : Char} {text : List Char} (absent : b ∉ text) :
    replace b a (replace a b text) = text := by
  rw [replace, replace, List.map_map]
  conv_rhs => rw [← List.map_id text]
  refine List.map_congr_left fun c member => ?_
  have other : c ≠ b := fun same => absent (same ▸ member)
  by_cases same : c = a
  · simp [same]
  · simp [same, other]

theorem toList_fundSchemaName (slug : String) :
    (fundSchemaName slug).toList =
      'f' :: 'u' :: 'n' :: 'd' :: '_' :: replace '-' '_' slug.toList := by
  simp [fundSchemaName]

theorem schemaToFundSlug_fundSchemaName (valid : ValidSlug slug) :
    schemaToFundSlug (fundSchemaName slug) = some slug := by
  have nonempty : replace '-' '_' slug.toList ≠ [] := by simpa [replace] using valid.1
  have unbroken : '\n' ∉ replace '-' '_' slug.toList := fun member =>
    (mem_replace member).elim (valid.absent (by decide)) (by decide)
  rw [schemaToFundSlug, toList_fundSchemaName]
  simp [line_of nonempty unbroken, replace_replace (valid.absent (c := '_') (by decide))]

/-- The topic of a fund's table is read as that table of that fund. -/
theorem cdcTopic_fund (valid : ValidSlug slug) {table : String} (nonempty : table.toList ≠ [])
    (unbroken : '\n' ∉ table.toList) :
    cdcTopic (topicOf (fundSchemaName slug) table) = some (fundSchemaName slug, table) := by
  refine cdcTopic_topicOf ?_ ?_ nonempty unbroken
  · simp [toList_fundSchemaName]
  · rw [toList_fundSchemaName]
    have undotted : '.' ∉ replace '-' '_' slug.toList := fun member =>
      (mem_replace member).elim (valid.absent (by decide)) (by decide)
    simpa using undotted

end Slugs

/-! ## Messages -/

structure Source where
  schema : Option String := none
  table : Option String := none
  lsn : Option Nat := none
  deriving DecidableEq, Repr

structure ChangeEvent where
  op : Option String
  before : Option Parameters := none
  after : Option Parameters := none
  /-- Nothing is named where there is no source. -/
  source : Source := {}
  deriving DecidableEq, Repr

inductive ChangeValue where
  | tombstone
  | garbled
  | event (event : ChangeEvent)
  deriving DecidableEq, Repr

structure CdcMessage where
  topic : String
  value : ChangeValue
  deriving DecidableEq, Repr

end MiniHedge.Audit
