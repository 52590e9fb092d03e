import JvmSymbols.Proofs.Settings.Reading

/-! The fields of settings, seen as values of a document. A field that a document sets shows the value that was
given last, and all others show what they were before. -/
namespace JvmSymbols

open Toml (Value)

namespace Toml.Value

variable {v : Value}

theorem asString_eq_ok_iff {s : String} : v.asString = .ok s ↔ v = .string s := by
  cases v <;> simp [asString]

theorem asPath_eq_ok_iff {s : String} : v.asPath = .ok s ↔ v = .string s := by
  cases v <;> simp [asPath]

theorem asBoolean_eq_ok_iff {b : Bool} : v.asBoolean = .ok b ↔ v = .boolean b := by
  cases v <;> simp [asBoolean]

theorem asCount_eq_ok_iff {n : Nat} : v.asCount = .ok n ↔ v = .integer n := by
  cases v with
  | integer i =>
    rw [asCount, integer.injEq]
    split
    · rw [Except.ok.injEq]
      omega
    · simp only [reduceCtorEq, false_iff]
      omega
  | string s => simp [asCount]
  | float x => simp [asCount]
  | boolean b => simp [asCount]
  | datetime => simp [asCount]
  | array elements => simp [asCount]
  | table entries => simp [asCount]

end Toml.Value

namespace Schema

variable {σ : Type} (schema : Schema σ) (field : σ → String → Option Value)

/-- Setting a field shows in that field and in no other. -/
def Shows : Prop :=
  ∀ ⦃s s' : σ⦄ ⦃key : String⦄ ⦃v : Value⦄, key ∈ schema.fields → schema.set s key v = .ok s' →
    ∀ other, field s' other = if other = key then some v else field s other

/-- The value that a section gives a field, the last one if there are several. -/
def given? (fields : List String) (key : String) (v : Value) : Option Value :=
  (sectionEntries? fields v).bind fun entries => entries.reverse.lookup key

theorem lookup_filter {fields : List String} {key : String} (hkey : key ∈ fields)
    (entries : List (String × Value)) :
    (entries.filter fun e => e.1 ∈ fields).lookup key = entries.lookup key := by
  induction entries with
  | nil => rfl
  | cons entry rest ih =>
    obtain ⟨k, v⟩ := entry
    by_cases hk : k ∈ fields
    · rw [List.filter_cons_of_pos (by simpa using hk), List.lookup_cons, List.lookup_cons, ih]
    · have hne : (key == k) = false := by
        rw [beq_eq_false_iff_ne]
        rintro rfl
        exact hk hkey
      rw [List.filter_cons_of_neg (by simpa using hk), List.lookup_cons, ih, hne]

/-- An array gives each field the element in its place. -/
theorem given?_array {fields : List String} {key : String} (hfields : fields.Nodup) (hkey : key ∈ fields)
    (elements : List Value) : given? fields key (.array elements) = elements[fields.idxOf key]? := by
  rw [given?, sectionEntries?, Option.bind_some]
  induction fields generalizing elements with
  | nil => simp at hkey
  | cons f rest ih =>
    rw [List.nodup_cons] at hfields
    cases elements with
    | nil => simp
    | cons v vs =>
      rw [List.zip_cons_cons, List.reverse_cons, List.lookup_append, List.lookup_cons]
      by_cases hk : key = f
      · subst hk
        have hnone : (rest.zip vs).reverse.lookup key = none := by
          rw [List.lookup_eq_none_iff]
          intro entry hentry
          have hmem := (List.of_mem_zip (List.mem_reverse.1 hentry)).1
          rw [bne_iff_ne]
          rintro rfl
          exact hfields.1 hmem
        simp [hnone]
      · have hrest : key ∈ rest := (List.mem_cons.1 hkey).resolve_left hk
        simp [beq_eq_false_iff_ne.2 hk, List.idxOf_cons, beq_eq_false_iff_ne.2 (Ne.symm hk), ih hfields.2 hrest]

theorem field_eq_of_map {field : σ → String → Option Value} {α : Type} {as : Value → Except SettingsError α}
    {kind : α → Value} {update : α → σ} {s s' : σ} {key : String} {v : Value}
    (has : ∀ {x}, as v = .ok x → v = kind x) (hset : (as v).map update = .ok s')
    (hshows : ∀ x other, field (update x) other = if other = key then some (kind x) else field s other)
    (other : String) : field s' other = if other = key then some v else field s other := by
  obtain ⟨x, hx, rfl⟩ := Except.map_eq_ok_iff.1 hset
  rw [has hx]
  exact hshows x other

namespace Shows

variable {schema field} (h : schema.Shows field)
include h

theorem setAll {s s' : σ} {entries : List (String × Value)}
    (hknown : ∀ e ∈ entries, e.1 ∈ schema.fields) (hset : schema.setAll s entries = .ok s')
    (key : String) : field s' key = (entries.reverse.lookup key).or (field s key) := by
  induction entries generalizing s with
  | nil =>
    cases hset
    rfl
  | cons entry rest ih =>
    obtain ⟨k, v⟩ := entry
    rw [List.forall_mem_cons] at hknown
    rw [Schema.setAll, List.foldlM_cons] at hset
    cases hone : schema.set s k v with
    | error e =>
      rw [hone] at hset
      cases hset
    | ok t =>
      rw [hone] at hset
      have hlast : ([(k, v)].lookup key).or (field s key) = field t key := by
        rw [h hknown.1 hone, List.lookup_cons]
        by_cases hk : key = k
        · simp [hk]
        · simp [hk, beq_eq_false_iff_ne.2 hk]
      rw [List.reverse_cons, List.lookup_append, Option.or_assoc, hlast]
      exact ih hknown.2 hset

/-- A field of a section shows what the section gives it, and else what fields are that are left out. -/
theorem settle {s : σ} {v : Value} {key : String} (hkey : key ∈ schema.fields)
    (hsettle : schema.settle v = .ok s) :
    field s key = (given? schema.fields key v).or (field schema.unset key) := by
  rw [Schema.settle] at hsettle
  cases hentries : sectionEntries? schema.fields v with
  | none =>
    rw [hentries] at hsettle
    cases hsettle
  | some entries =>
    rw [hentries] at hsettle
    have hknown : ∀ e ∈ known schema.fields entries, e.1 ∈ schema.fields := fun e he => by
      simpa using (List.mem_filter.1 he).2
    rw [h.setAll hknown hsettle key, known, ← List.filter_reverse, lookup_filter hkey, given?, hentries]
    rfl

end Shows

end Schema

namespace LogSettings

/-- The value that gives a field what it is, if there is one. -/
def field (s : LogSettings) (key : String) : Option Value :=
  if key = "level" then some (.string s.level)
  else if key = "json" then some (.boolean s.json)
  else if key = "stderr" then some (.boolean s.stderr)
  else if key = "file" then s.file.map .string
  else if key = "buffer_lines" then some (.integer s.bufferLines)
  else none

/-- What a section leaves out and what a document leaves out have the same defaults. -/
theorem unset_schema : schema.unset = {} := rfl

theorem shows_schema : schema.Shows field := by
  intro s s' key v hkey hset other
  simp only [schema, List.mem_cons, List.not_mem_nil, or_false] at hkey
  -- In each case the value is of the kind of the field, and a field that is looked at is this one or another.
  rcases hkey with rfl | rfl | rfl | rfl | rfl
  · refine Schema.field_eq_of_map Value.asString_eq_ok_iff.1 hset (fun x other => ?_) other
    by_cases hother : other = "level" <;> simp [field, hother]
  · refine Schema.field_eq_of_map Value.asBoolean_eq_ok_iff.1 hset (fun x other => ?_) other
    by_cases hother : other = "json" <;> simp [field, hother]
  · refine Schema.field_eq_of_map Value.asBoolean_eq_ok_iff.1 hset (fun x other => ?_) other
    by_cases hother : other = "stderr" <;> simp [field, hother]
  · refine Schema.field_eq_of_map Value.asPath_eq_ok_iff.1 hset (fun x other => ?_) other
    by_cases hother : other = "file" <;> simp [field, hother]
  · refine Schema.field_eq_of_map Value.asCount_eq_ok_iff.1 hset (fun x other => ?_) other
    by_cases hother : other = "buffer_lines" <;> simp [field, hother]

theorem eq_of_field_eq {s t : LogSettings} (h : ∀ key ∈ schema.fields, s.field key = t.field key) :
    s = t := by
  simp only [schema, field] at h
  obtain ⟨hlevel, hjson, hstderr, hfile, hlines⟩ :
    s.level = t.level ∧ s.json = t.json ∧ s.stderr = t.stderr ∧
      s.file.map Value.string = t.file.map Value.string ∧ (s.bufferLines : Int) = t.bufferLines := by
    simpa using h
  have hsame : s.file = t.file := (Option.map_inj_right fun _ _ => Value.string.inj).1 hfile
  cases s
  cases t
  rw [mk.injEq]
  exact ⟨hlevel, hjson, hstderr, hsame, Int.ofNat.inj hlines⟩

end LogSettings

namespace MappingSettings

def field (s : MappingSettings) (key : String) : Option Value :=
  if key = "path" then s.path.map .string
  else if key = "validate_descriptors" then some (.boolean s.validateDescriptors)
  else none

theorem unset_schema : schema.unset = {} := rfl

theorem shows_schema : schema.Shows field := by
  intro s s' key v hkey hset other
  simp only [schema, List.mem_cons, List.not_mem_nil, or_false] at hkey
  rcases hkey with rfl | rfl
  · refine Schema.field_eq_of_map Value.asPath_eq_ok_iff.1 hset (fun x other => ?_) other
    by_cases hother : other = "path" <;> simp [field, hother]
  · refine Schema.field_eq_of_map Value.asBoolean_eq_ok_iff.1 hset (fun x other => ?_) other
    by_cases hother : other = "validate_descriptors" <;> simp [field, hother]

theorem eq_of_field_eq {s t : MappingSettings} (h : ∀ key ∈ schema.fields, s.field key = t.field key) :
    s = t := by
  simp only [schema, field] at h
  obtain ⟨hpath, hvalidate⟩ :
    s.path.map Value.string = t.path.map Value.string ∧ s.validateDescriptors = t.validateDescriptors := by
    simpa using h
  have hsame : s.path = t.path := (Option.map_inj_right fun _ _ => Value.string.inj).1 hpath
  cases s
  cases t
  rw [mk.injEq]
  exact ⟨hsame, hvalidate⟩

end MappingSettings

namespace Settings

def field (s : Settings) (name key : String) : Option Value :=
  if name = "logging" then s.logging.field key
  else if name = "mappings" then s.mappings.field key
  else none

def given? (doc : List (String × Value)) (name key : String) : Option Value :=
  (fieldsOf? name).bind fun fields => (doc.reverse.lookup name).bind (Schema.given? fields key)

theorem field_setSection_of_ne {s s' : Settings} {name k : String} {v : Value} (hk : name ≠ k)
    (hset : s.setSection k v = .ok s') (key : String) : s'.field name key = s.field name key := by
  rw [setSection] at hset
  by_cases hlogging : k = "logging"
  · rw [if_pos hlogging] at hset
    obtain ⟨logging, _, rfl⟩ := Except.map_eq_ok_iff.1 hset
    rw [hlogging] at hk
    simp [field, hk]
  · by_cases hmappings : k = "mappings"
    · rw [if_neg hlogging, if_pos hmappings] at hset
      obtain ⟨mappings, _, rfl⟩ := Except.map_eq_ok_iff.1 hset
      rw [hmappings] at hk
      simp [field, hk]
    · rw [if_neg hlogging, if_neg hmappings] at hset
      cases hset
      rfl

section Field

variable {s s' : Settings} {name key : String} {fields : List String}
  (hname : fieldsOf? name = some fields) (hkey : key ∈ fields)
include hname hkey

theorem field_setSection {k : String} {v : Value} (hset : s.setSection k v = .ok s') :
    s'.field name key =
      if name = k then (Schema.given? fields key v).or (({} : Settings).field name key)
      else s.field name key := by
  by_cases hk : name = k
  · subst hk
    rw [if_pos rfl]
    rcases fieldsOf?_eq_some_iff.1 hname with ⟨rfl, rfl⟩ | ⟨rfl, rfl⟩
    · obtain ⟨logging, hsettle, rfl⟩ := Except.map_eq_ok_iff.1 hset
      have hfield := LogSettings.shows_schema.settle hkey hsettle
      rw [LogSettings.unset_schema] at hfield
      exact hfield
    · obtain ⟨mappings, hsettle, rfl⟩ := Except.map_eq_ok_iff.1 hset
      have hfield := MappingSettings.shows_schema.settle hkey hsettle
      rw [MappingSettings.unset_schema] at hfield
      exact hfield
  · rw [if_neg hk]
    exact field_setSection_of_ne hk hset key

theorem field_setSections {doc : List (String × Value)} (hset : s.setSections doc = .ok s') :
    s'.field name key =
      match doc.reverse.lookup name with
      | some v => (Schema.given? fields key v).or (({} : Settings).field name key)
      | none => s.field name key := by
  induction doc generalizing s with
  | nil =>
    cases hset
    rfl
  | cons entry rest ih =>
    obtain ⟨k, v⟩ := entry
    rw [setSections_cons] at hset
    cases hone : s.setSection k v with
    | error e =>
      rw [hone] at hset
      cases hset
    | ok t =>
      rw [hone] at hset
      rw [ih hset, List.reverse_cons, List.lookup_append, List.lookup_cons]
      cases rest.reverse.lookup name with
      | some v' => rfl
      | none =>
        simp only [field_setSection hname hkey hone, Option.none_or]
        by_cases hk : name = k
        · simp [hk]
        · simp [hk, beq_eq_false_iff_ne.2 hk]

/-- A field has the value that the document gives it, and else its default. -/
theorem field_eq_given? {doc : List (String × Value)} (hset : setSections {} doc = .ok s') :
    s'.field name key = (given? doc name key).or (({} : Settings).field name key) := by
  rw [field_setSections hname hkey hset, given?, hname]
  cases doc.reverse.lookup name <;> simp

end Field

end Settings

end JvmSymbols
