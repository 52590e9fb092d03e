import JvmSymbols.Proofs.Settings.Reading

/-! The keys of a document that no section knows. Each of them is reported as its path, of which leading dots are
lost; a section that is given as a date or a time is reported with a key that the document does not have. -/
namespace JvmSymbols

open Toml (Value)

namespace Schema

variable {fields : List String} {key : String} {v : Value}

theorem mem_strays_iff {entries : List (String × Value)} :
    key ∈ strays fields entries ↔ (∃ x, (key, x) ∈ entries) ∧ key ∉ fields := by
  simp [strays]

theorem strays_zip (elements : List Value) : strays fields (fields.zip elements) = [] := by
  rw [strays, List.filter_eq_nil_iff]
  intro key hkey
  obtain ⟨entry, hentry, rfl⟩ := List.mem_map.1 hkey
  simpa using (List.of_mem_zip hentry).1

/-- The keys of a section that are none of its fields are those of a table, and the one key of a date or time. -/
theorem mem_strays_section_iff (hfields : datetimeKey ∉ fields) :
    key ∈ strays fields ((sectionEntries? fields v).getD []) ↔
      (∃ entries x, v = .table entries ∧ (key, x) ∈ entries ∧ key ∉ fields) ∨
        (v = .datetime ∧ key = datetimeKey) := by
  cases v with
  | table entries => simp [sectionEntries?, mem_strays_iff]
  | array elements => simp [sectionEntries?, strays_zip]
  | datetime => simpa [sectionEntries?, mem_strays_iff] using fun h => h ▸ hfields
  | string s => simp [sectionEntries?, strays]
  | integer n => simp [sectionEntries?, strays]
  | float x => simp [sectionEntries?, strays]
  | boolean b => simp [sectionEntries?, strays]

end Schema

namespace Settings

variable {doc : List (String × Value)} {name text : String} {fields : List String} {v : Value}

/-- The path leads to a key of the document that the sections and their fields leave out. -/
inductive Unrecognised (doc : List (String × Value)) : List String → Prop
  | atTop {key : String} {v : Value} (hmem : (key, v) ∈ doc) (hkey : fieldsOf? key = none) :
    Unrecognised doc [key]
  | inSection {name key : String} {fields : List String} {entries : List (String × Value)} {v : Value}
    (hsection : (name, .table entries) ∈ doc) (hfields : fieldsOf? name = some fields)
    (hmem : (key, v) ∈ entries) (hkey : key ∉ fields) : Unrecognised doc [name, key]

def Dated (doc : List (String × Value)) (name : String) : Prop :=
  (fieldsOf? name).isSome ∧ (name, .datetime) ∈ doc

def dotted (path : List String) : String := ".".intercalate path

theorem datetimeKey_notMem (h : fieldsOf? name = some fields) : Schema.datetimeKey ∉ fields := by
  rcases fieldsOf?_eq_some_iff.1 h with ⟨_, rfl⟩ | ⟨_, rfl⟩ <;> decide

theorem topKey_eq_self (h : text.toList.head? ≠ some '.') : topKey text = text := by
  rw [topKey, ← String.toList_inj, String.toList_ofList]
  cases hchars : text.toList with
  | nil => rfl
  | cons c cs =>
    have hc : c ≠ '.' := by simpa [hchars] using h
    exact List.dropWhile_cons_of_neg (by simpa using hc)

@[simp] theorem dotted_singleton (key : String) : dotted [key] = key := String.intercalate_singleton

@[simp] theorem dotted_pair (name key : String) : dotted [name, key] = name ++ "." ++ key := by
  rw [dotted, String.intercalate_cons_cons, String.intercalate_singleton]

theorem topKey_dotted_pair (h : fieldsOf? name = some fields) (key : String) :
    topKey (dotted [name, key]) = dotted [name, key] := by
  refine topKey_eq_self ?_
  rcases fieldsOf?_eq_some_iff.1 h with ⟨rfl, _⟩ | ⟨rfl, _⟩ <;> simp

theorem mem_reported_iff :
    text ∈ reported name v ↔
      (fieldsOf? name = none ∧ text = topKey name) ∨
      (∃ fields entries key x, fieldsOf? name = some fields ∧ v = .table entries ∧ (key, x) ∈ entries ∧
        key ∉ fields ∧ text = dotted [name, key]) ∨
      ((fieldsOf? name).isSome ∧ v = .datetime ∧ text = dotted [name, Schema.datetimeKey]) := by
  rw [reported]
  cases hname : fieldsOf? name with
  | none => simp
  | some fields =>
    simp only [List.mem_map, Schema.mem_strays_section_iff (datetimeKey_notMem hname), dotted_pair]
    constructor
    · rintro ⟨key, ⟨entries, x, rfl, hmem, hkey⟩ | ⟨rfl, rfl⟩, rfl⟩
      · exact .inr (.inl ⟨fields, entries, key, x, rfl, rfl, hmem, hkey, rfl⟩)
      · exact .inr (.inr ⟨rfl, rfl, rfl⟩)
    · rintro (⟨hnone, _⟩ | ⟨_, entries, key, x, hfields, rfl, hmem, hkey, rfl⟩ | ⟨_, rfl, rfl⟩)
      · cases hnone
      · cases hfields
        exact ⟨key, .inl ⟨entries, x, rfl, hmem, hkey⟩, rfl⟩
      · exact ⟨Schema.datetimeKey, .inr ⟨rfl, rfl⟩, rfl⟩

theorem mem_flatMap_reported_iff :
    (text ∈ doc.flatMap fun e => reported e.1 e.2) ↔
      (∃ path, Unrecognised doc path ∧ text = topKey (dotted path)) ∨
        ∃ name, Dated doc name ∧ text = dotted [name, Schema.datetimeKey] := by
  simp only [List.mem_flatMap, Prod.exists, mem_reported_iff]
  constructor
  · rintro ⟨name, v, hmem, ⟨hname, rfl⟩ | ⟨fields, entries, key, x, hname, rfl, hentry, hkey, rfl⟩ |
      ⟨hname, rfl, rfl⟩⟩
    · exact .inl ⟨[name], .atTop hmem hname, by simp⟩
    · exact .inl ⟨[name, key], .inSection hmem hname hentry hkey, (topKey_dotted_pair hname key).symm⟩
    · exact .inr ⟨name, ⟨hname, hmem⟩, rfl⟩
  · rintro (⟨_, ⟨hmem, hname⟩ | ⟨hmem, hname, hentry, hkey⟩, rfl⟩ | ⟨name, ⟨hname, hmem⟩, rfl⟩)
    · exact ⟨_, _, hmem, .inl ⟨hname, by simp⟩⟩
    · exact ⟨_, _, hmem, .inr (.inl ⟨_, _, _, _, hname, rfl, hentry, hkey, topKey_dotted_pair hname _⟩)⟩
    · exact ⟨name, _, hmem, .inr (.inr ⟨hname, rfl, rfl⟩)⟩

section Report

variable {s : Settings} {unknown : List String} (h : ofEntries doc = .ok (s, unknown))
include h

theorem eq_of_ofEntries :
    setSections {} doc = .ok s ∧ unknown =
      ((doc.flatMap fun e => reported e.1 e.2).mergeSort fun a b => (compare a b).isLE).eraseReps := by
  rw [ofEntries_eq] at h
  cases hset : setSections {} doc with
  | error e =>
    rw [hset] at h
    cases h
  | ok t =>
    rw [hset] at h
    cases h
    exact ⟨rfl, rfl⟩

theorem pairwise_unknown : unknown.Pairwise (· < ·) := by
  rw [(eq_of_ofEntries h).2]
  exact (pairwise_eraseReps_mergeSort _).imp fun hlt => compareOfLessAndEq_eq_lt.1 hlt

theorem mem_unknown_iff :
    text ∈ unknown ↔ (∃ path, Unrecognised doc path ∧ text = topKey (dotted path)) ∨
      ∃ name, Dated doc name ∧ text = dotted [name, Schema.datetimeKey] := by
  rw [(eq_of_ofEntries h).2, mem_eraseReps_mergeSort, mem_flatMap_reported_iff]

theorem unknown_eq_nil_iff :
    unknown = [] ↔ (∀ path, ¬ Unrecognised doc path) ∧ ∀ name, ¬ Dated doc name := by
  simp only [List.eq_nil_iff_forall_not_mem, mem_unknown_iff h, not_or, not_exists, not_and]
  constructor
  · intro hnone
    exact ⟨fun path hpath => (hnone _).1 path hpath rfl, fun name hname => (hnone _).2 name hname rfl⟩
  · rintro ⟨hpaths, hnames⟩ text
    exact ⟨fun path hpath => absurd hpath (hpaths path), fun name hname => absurd hname (hnames name)⟩

end Report

/-- The unknown keys that a document is accepted with increase, and they are the paths of the keys that the
sections and their fields leave out, less the dots in front. Besides, each section that is given as a date or a
time is reported with the key that stands for that. Without such a section, and without a dot in front of an
unknown key at the top, they are the paths themselves. There are none exactly if there is nothing to report. -/
theorem unknown_reported {s : Settings} {unknown : List String} (h : ofEntries doc = .ok (s, unknown)) :
    (∀ text, Toml.parse text = some doc → parse text = .ok (s, unknown)) ∧
    unknown.Pairwise (· < ·) ∧
    (∀ text, text ∈ unknown ↔ (∃ path, Unrecognised doc path ∧ text = topKey (dotted path)) ∨
      ∃ name, Dated doc name ∧ text = dotted [name, Schema.datetimeKey]) ∧
    ((∀ key, Unrecognised doc [key] → key.toList.head? ≠ some '.') → (∀ name, ¬ Dated doc name) →
      ∀ text, text ∈ unknown ↔ ∃ path, Unrecognised doc path ∧ text = dotted path) ∧
    (unknown = [] ↔ (∀ path, ¬ Unrecognised doc path) ∧ ∀ name, ¬ Dated doc name) := by
  refine ⟨fun text htext => ?_, pairwise_unknown h, fun text => mem_unknown_iff h,
    fun hdots hdates text => ?_, unknown_eq_nil_iff h⟩
  · simp only [parse, htext, h]
  · have hshown {path : List String} (hpath : Unrecognised doc path) :
        topKey (dotted path) = dotted path := by
      cases hpath with
      | @atTop key v hmem hkey =>
        rw [dotted_singleton]
        exact topKey_eq_self (hdots key (.atTop hmem hkey))
      | inSection _ hfields _ _ => exact topKey_dotted_pair hfields _
    rw [mem_unknown_iff h]
    constructor
    · rintro (⟨path, hpath, rfl⟩ | ⟨name, hname, _⟩)
      · exact ⟨path, hpath, hshown hpath⟩
      · exact absurd hname (hdates name)
    · rintro ⟨path, hpath, rfl⟩
      exact .inl ⟨path, hpath, (hshown hpath).symm⟩

/-- Inside a section the empty key and a dot in front are shown as they are, and of an unknown table only the key. -/
theorem unknown_reported_quoted :
    let doc : List (String × Value) :=
      [("logging", .table [("level", .string "debug"), ("", .integer 1), (".x", .array [])]),
        ("z.", .table [("path", .integer 1)]), ("mappings", .array [.string "a", .boolean true])]
    ∃ s, ofEntries doc = .ok (s, ["logging.", "logging..x", "z."]) ∧
      (∀ key, Unrecognised doc [key] → key.toList.head? ≠ some '.') ∧ (∀ name, ¬ Dated doc name) ∧
      ∀ text, text ∈ ["logging.", "logging..x", "z."] ↔
        ∃ path, Unrecognised doc path ∧ text = dotted path := by
  intro doc
  have hreported : (doc.flatMap fun e => reported e.1 e.2) = ["logging.", "logging..x", "z."] := by
    decide +kernel
  have hsorted : ["logging.", "logging..x", "z."].Pairwise fun a b => (compare a b).isLE = true := by decide
  have hread : (ofEntries doc).map Prod.snd = .ok ["logging.", "logging..x", "z."] := by
    rw [ofEntries_eq, hreported, List.mergeSort_of_pairwise hsorted]
    decide +kernel
  obtain ⟨⟨s, _⟩, hs, rfl⟩ := Except.map_eq_ok_iff.1 hread
  have hdots (key : String) (hkey : Unrecognised doc [key]) : key.toList.head? ≠ some '.' := by
    cases hkey with
    | atTop hmem hnone =>
      simp only [doc, List.mem_cons, Prod.mk.injEq, List.not_mem_nil, or_false] at hmem
      rcases hmem with ⟨rfl, _⟩ | ⟨rfl, _⟩ | ⟨rfl, _⟩ <;> decide
  have hdates (name : String) : ¬ Dated doc name := by
    rintro ⟨_, hmem⟩
    simp [doc] at hmem
  obtain ⟨_, _, _, hpaths, _⟩ := unknown_reported hs
  exact ⟨s, hs, hdots, hdates, hpaths hdots hdates⟩

/-- A dot in front of a key at the top is lost, so that a key is reported that is not in the document. -/
theorem unknown_reported_without_dot :
    ¬ ∀ text doc s unknown, Toml.parse text = some doc → parse text = .ok (s, unknown) →
      ∀ key, key ∈ unknown ↔ ∃ path, Unrecognised doc path ∧ key = dotted path := by
  intro hpaths
  have hkeys : (Toml.parse "\".a\" = 1\n").map (List.map Prod.fst) = some [".a"] := by decide +kernel
  have hread : (parse "\".a\" = 1\n").map Prod.snd = .ok ["a"] := by decide +kernel
  obtain ⟨doc, hdoc, hkey⟩ := Option.map_eq_some_iff.1 hkeys
  obtain ⟨⟨_, v⟩, hentry, rfl⟩ := List.mem_map.1 (hkey ▸ List.mem_singleton_self ".a")
  obtain ⟨⟨s, _⟩, hs, rfl⟩ := Except.map_eq_ok_iff.1 hread
  have hpath : Unrecognised doc [".a"] := .atTop hentry (by decide)
  have hmem := (hpaths _ doc s ["a"] hdoc hs ".a").2 ⟨[".a"], hpath, by simp⟩
  exact absurd hmem (by decide)

end Settings
end JvmSymbols
