import JvmSymbols.Proofs.Settings.Unknown
import JvmSymbols.Proofs.Settings.Fields

/-! A document without the keys that no section knows. The settings are read from it as from the whole document,
with the same error where there is one, and what it leaves out has its default. -/
namespace JvmSymbols

open Toml (Value)

namespace Schema

/-- The part of a section that its fields read. An array has no keys to leave out. -/
def recognised (fields : List String) : Value → Value
  | .table entries => .table (known fields entries)
  | v => v

variable {fields : List String} {v : Value}

theorem known_known (entries : List (String × Value)) :
    known fields (known fields entries) = known fields entries := by
  rw [known, known, List.filter_filter]
  simp only [Bool.and_self]

@[simp] theorem recognised_eq_datetime : recognised fields v = .datetime ↔ v = .datetime := by
  cases v <;> simp [recognised]

theorem mem_fields_of_recognised {entries : List (String × Value)} (h : recognised fields v = .table entries)
    {key : String} {x : Value} (hmem : (key, x) ∈ entries) : key ∈ fields := by
  cases v with
  | table all =>
    obtain rfl : known fields all = entries := by simpa [recognised] using h
    simpa using (List.mem_filter.1 hmem).2
  | array elements => cases h
  | datetime => cases h
  | string s => cases h
  | integer n => cases h
  | float x => cases h
  | boolean b => cases h

theorem settle_recognised {σ : Type} (schema : Schema σ) (v : Value) :
    schema.settle (recognised schema.fields v) = schema.settle v := by
  cases v with
  | table entries => exact congrArg (schema.setAll schema.unset) (known_known entries)
  | array elements => rfl
  | datetime => rfl
  | string s => rfl
  | integer n => rfl
  | float x => rfl
  | boolean b => rfl

end Schema

namespace Settings

variable {doc : List (String × Value)} {name : String} {fields : List String}

/-- The document without the keys that the sections and their fields leave out. -/
def recognised (doc : List (String × Value)) : List (String × Value) :=
  doc.filterMap fun e => (fieldsOf? e.1).map fun fields => (e.1, Schema.recognised fields e.2)

theorem mem_recognised_iff {v : Value} :
    (name, v) ∈ recognised doc ↔
      ∃ fields w, fieldsOf? name = some fields ∧ (name, w) ∈ doc ∧ Schema.recognised fields w = v := by
  simp only [recognised, List.mem_filterMap, Option.map_eq_some_iff, Prod.exists, Prod.mk.injEq]
  constructor
  · rintro ⟨_, w, hmem, fields, hfields, rfl, hw⟩
    exact ⟨fields, w, hfields, hmem, hw⟩
  · rintro ⟨fields, w, hfields, hmem, hw⟩
    exact ⟨name, w, hmem, fields, hfields, rfl, hw⟩

theorem not_unrecognised_recognised (path : List String) : ¬ Unrecognised (recognised doc) path := by
  rintro (⟨hmem, hkey⟩ | ⟨hsection, hfields, hmem, hkey⟩)
  · obtain ⟨fields, _, hfields, _, _⟩ := mem_recognised_iff.1 hmem
    rw [hkey] at hfields
    cases hfields
  · obtain ⟨fields, _, hfields', _, hw⟩ := mem_recognised_iff.1 hsection
    rw [hfields] at hfields'
    cases hfields'
    exact hkey (Schema.mem_fields_of_recognised hw hmem)

theorem dated_recognised_iff : Dated (recognised doc) name ↔ Dated doc name := by
  simp only [Dated, mem_recognised_iff, Schema.recognised_eq_datetime]
  constructor
  · rintro ⟨hname, _, _, _, hmem, rfl⟩
    exact ⟨hname, hmem⟩
  · rintro ⟨hname, hmem⟩
    obtain ⟨fields, hfields⟩ := Option.isSome_iff_exists.1 hname
    exact ⟨hname, fields, _, hfields, hmem, rfl⟩

theorem setSection_recognised (s : Settings) (v : Value) (h : fieldsOf? name = some fields) :
    s.setSection name (Schema.recognised fields v) = s.setSection name v := by
  rcases fieldsOf?_eq_some_iff.1 h with ⟨rfl, rfl⟩ | ⟨rfl, rfl⟩
  · exact congrArg (Except.map _) (LogSettings.schema.settle_recognised v)
  · exact congrArg (Except.map _) (MappingSettings.schema.settle_recognised v)

theorem setSection_of_fieldsOf?_eq_none (s : Settings) (v : Value) (h : fieldsOf? name = none) :
    s.setSection name v = .ok s := by
  have hlogging : name ≠ "logging" := by
    rintro rfl
    cases h
  have hmappings : name ≠ "mappings" := by
    rintro rfl
    cases h
  rw [setSection, if_neg hlogging, if_neg hmappings]

theorem setSections_recognised (s : Settings) (doc : List (String × Value)) :
    s.setSections (recognised doc) = s.setSections doc := by
  -- An entry that is left out would not have changed the settings so far, or failed.
  induction doc generalizing s with
  | nil => rfl
  | cons entry rest ih =>
    obtain ⟨name, v⟩ := entry
    rw [setSections_cons]
    cases hname : fieldsOf? name with
    | none =>
      have hskip : recognised ((name, v) :: rest) = recognised rest := by simp [recognised, hname]
      rw [hskip, setSection_of_fieldsOf?_eq_none s v hname]
      exact ih s
    | some fields =>
      have hkeep : recognised ((name, v) :: rest) = (name, Schema.recognised fields v) :: recognised rest := by
        simp [recognised, hname]
      rw [hkeep, setSections_cons, setSection_recognised s v hname]
      exact bind_congr ih

theorem ofEntries_recognised (doc : List (String × Value)) :
    (ofEntries (recognised doc)).map Prod.fst = (ofEntries doc).map Prod.fst := by
  rw [ofEntries_eq, ofEntries_eq, setSections_recognised]
  cases setSections {} doc <;> rfl

theorem given?_eq_none_of_notMem (h : ∀ v, (name, v) ∉ doc) (key : String) : given? doc name key = none := by
  have hnone : doc.reverse.lookup name = none := by
    rw [List.lookup_eq_none_iff]
    rintro ⟨k, v⟩ hmem
    simp only [bne_iff_ne, ne_eq]
    rintro rfl
    exact h v (List.mem_reverse.1 hmem)
  rw [given?, hnone]
  cases fieldsOf? name <;> rfl

section Defaults

variable {s : Settings} (hset : setSections {} doc = .ok s)
include hset

theorem logging_eq_default (h : ∀ key, given? doc "logging" key = none) : s.logging = {} := by
  have hname : fieldsOf? "logging" = some LogSettings.schema.fields := rfl
  refine LogSettings.eq_of_field_eq fun key hkey => ?_
  have hfield := field_eq_given? hname hkey hset
  rwa [h, Option.none_or] at hfield

theorem mappings_eq_default (h : ∀ key, given? doc "mappings" key = none) : s.mappings = {} := by
  have hname : fieldsOf? "mappings" = some MappingSettings.schema.fields := rfl
  refine MappingSettings.eq_of_field_eq fun key hkey => ?_
  have hfield := field_eq_given? hname hkey hset
  rwa [h, Option.none_or] at hfield

end Defaults

theorem given?_of_lookup_array (hname : fieldsOf? name = some fields) {elements : List Value}
    (harray : doc.reverse.lookup name = some (.array elements)) {key : String} (hkey : key ∈ fields) :
    given? doc name key = elements[fields.idxOf key]? := by
  have hfields : fields.Nodup := by
    rcases fieldsOf?_eq_some_iff.1 hname with ⟨_, rfl⟩ | ⟨_, rfl⟩ <;> decide
  rw [given?, hname, harray]
  exact Schema.given?_array hfields hkey elements

/-- Without the keys that the sections and their fields leave out, a document is accepted with the same settings or
rejected with the same error, and no such key is left. The entries that are left keep their order: a text in which
cutting a key moves a section spells another document than this. Only sections that are given as dates or times are
still reported. Each field has the value that the rest of the document gives it, and else its default: this holds
for all fields of a section that is not there, and for those that an array is too short for. -/
theorem recognised_suffices (doc : List (String × Value)) :
    (ofEntries (recognised doc)).map Prod.fst = (ofEntries doc).map Prod.fst ∧
    (∀ text text', Toml.parse text = some doc → Toml.parse text' = some (recognised doc) →
      (parse text').map Prod.fst = (parse text).map Prod.fst) ∧
    (∀ path, ¬ Unrecognised (recognised doc) path) ∧
    (∀ s unknown, ofEntries (recognised doc) = .ok (s, unknown) →
      (∀ text, text ∈ unknown ↔ ∃ name, Dated doc name ∧ text = dotted [name, Schema.datetimeKey]) ∧
      (unknown = [] ↔ ∀ name, ¬ Dated doc name) ∧
      (∀ name fields, fieldsOf? name = some fields → ∀ key ∈ fields,
        s.field name key = (given? (recognised doc) name key).or (({} : Settings).field name key)) ∧
      ((∀ key, given? (recognised doc) "logging" key = none) → s.logging = {}) ∧
      ((∀ key, given? (recognised doc) "mappings" key = none) → s.mappings = {})) ∧
    (∀ name, (∀ v, (name, v) ∉ recognised doc) → ∀ key, given? (recognised doc) name key = none) ∧
    (∀ name fields elements, fieldsOf? name = some fields →
      (recognised doc).reverse.lookup name = some (.array elements) →
      ∀ key ∈ fields, given? (recognised doc) name key = elements[fields.idxOf key]?) := by
  refine ⟨ofEntries_recognised doc, fun text text' htext htext' => ?_, not_unrecognised_recognised,
    fun s unknown h => ?_, fun name => given?_eq_none_of_notMem,
    fun name fields elements hname harray key hkey => given?_of_lookup_array hname harray hkey⟩
  · simp only [parse, htext, htext', ofEntries_recognised]
  · obtain ⟨hset, _⟩ := eq_of_ofEntries h
    refine ⟨fun text => ?_, ?_, fun name fields hname key hkey => field_eq_given? hname hkey hset,
      logging_eq_default hset, mappings_eq_default hset⟩
    · simp only [mem_unknown_iff h, not_unrecognised_recognised, dated_recognised_iff, false_and,
        exists_false, false_or]
    · simp only [unknown_eq_nil_iff h, not_unrecognised_recognised, dated_recognised_iff, not_false_eq_true,
        implies_true, true_and]

theorem recognised_suffices_short_array :
    let doc : List (String × Value) := [("z", .integer 1), ("mappings", .array [.string "m"])]
    (parse "").map Prod.fst = (parse "z = 1\n").map Prod.fst ∧
    ∃ s, ofEntries (recognised doc) = .ok (s, []) ∧ (ofEntries doc).map Prod.fst = .ok s ∧ s.logging = {} ∧
      s.field "mappings" "path" = some (.string "m") ∧
      s.field "mappings" "validate_descriptors" = some (.boolean false) := by
  intro doc
  constructor
  · have hkeys : (Toml.parse "z = 1\n").map (List.map Prod.fst) = some ["z"] := by decide +kernel
    have hempty : (Toml.parse "").map (List.map Prod.fst) = some [] := by decide +kernel
    obtain ⟨doc, hdoc, hkey⟩ := Option.map_eq_some_iff.1 hkeys
    obtain ⟨rest, hrest, hnone⟩ := Option.map_eq_some_iff.1 hempty
    obtain ⟨⟨_, v⟩, rfl, rfl⟩ := List.map_eq_singleton_iff.1 hkey
    obtain rfl : rest = [] := List.map_eq_nil_iff.1 hnone
    obtain ⟨_, htexts, _⟩ := recognised_suffices [("z", v)]
    exact htexts _ _ hdoc hrest
  · have hread : (ofEntries (recognised doc)).map Prod.snd = .ok [] := by decide +kernel
    obtain ⟨⟨s, _⟩, hs, rfl⟩ := Except.map_eq_ok_iff.1 hread
    obtain ⟨hsame, _, _, hrest, habsent, harray⟩ := recognised_suffices doc
    obtain ⟨_, _, hfield, hlogging, _⟩ := hrest s [] hs
    have hnone (v : Value) : ("logging", v) ∉ recognised doc := by
      rw [mem_recognised_iff]
      rintro ⟨_, _, _, hmem, _⟩
      simp [doc] at hmem
    have hgiven := harray "mappings" MappingSettings.schema.fields [.string "m"] rfl rfl
    have hpath := hfield "mappings" MappingSettings.schema.fields rfl "path" (by decide)
    have hvalidate := hfield "mappings" MappingSettings.schema.fields rfl "validate_descriptors" (by decide)
    rw [hgiven _ (by decide)] at hpath hvalidate
    refine ⟨s, hs, ?_, hlogging (habsent "logging" hnone), hpath, hvalidate⟩
    rw [← hsame, hs]
    rfl

/-- A section that is given as a date is reported even where no unknown key is left. -/
theorem recognised_suffices_dated :
    ¬ ∀ text doc s unknown, Toml.parse text = some doc → ofEntries (recognised doc) = .ok (s, unknown) →
      unknown = [] := by
  intro hclean
  have hread : (Toml.parse "logging = 1979-05-27\n").map (fun doc =>
      (ofEntries (recognised doc)).map Prod.snd) =
        some (.ok ["logging.$__toml_private_datetime"]) := by decide +kernel
  obtain ⟨doc, hdoc, hunknown⟩ := Option.map_eq_some_iff.1 hread
  obtain ⟨⟨s, _⟩, hs, rfl⟩ := Except.map_eq_ok_iff.1 hunknown
  exact absurd (hclean _ doc s _ hdoc hs) (by decide)

end Settings
end JvmSymbols
