import JvmSymbols.Settings.Decode
import JvmSymbols.Proofs.Except
import JvmSymbols.Proofs.Sorting

/-! What reading settings comes to. The entries with known keys are set in their order, and all other keys are
listed; neither has a say in the other. -/
namespace JvmSymbols

open Toml (Value)

namespace Schema

/-- The entries that a value makes as a section with the given fields. -/
def sectionEntries? (fields : List String) : Value → Option (List (String × Value))
  | .table entries => some entries
  | .array elements => some (fields.zip elements)
  | .datetime => some [(datetimeKey, .datetime)]
  | _ => none

def known (fields : List String) (entries : List (String × Value)) : List (String × Value) :=
  entries.filter fun e => e.1 ∈ fields

/-- The keys of entries that set none of the fields. -/
def strays (fields : List String) (entries : List (String × Value)) : List String :=
  (entries.map Prod.fst).filter fun key => key ∉ fields

variable {σ : Type} (schema : Schema σ)

def setAll (s : σ) (entries : List (String × Value)) : Except SettingsError σ :=
  entries.foldlM (fun s e => schema.set s e.1 e.2) s

def settle (v : Value) : Except SettingsError σ :=
  match sectionEntries? schema.fields v with
  | some entries => schema.setAll schema.unset (known schema.fields entries)
  | none => .error (.invalidType v.describe schema.title)

theorem readEntries_eq (s : σ) (entries : List (String × Value)) :
    schema.readEntries s entries =
      (schema.setAll s (known schema.fields entries)).map fun s => (s, strays schema.fields entries) := by
  induction entries generalizing s with
  | nil => rfl
  | cons entry rest ih =>
    obtain ⟨key, v⟩ := entry
    rw [readEntries]
    by_cases hkey : key ∈ schema.fields
    · have hknown : known schema.fields ((key, v) :: rest) = (key, v) :: known schema.fields rest :=
        List.filter_cons_of_pos (by simpa using hkey)
      have hstrays : strays schema.fields ((key, v) :: rest) = strays schema.fields rest :=
        List.filter_cons_of_neg (by simpa using hkey)
      rw [if_pos hkey, hknown, hstrays, setAll, List.foldlM_cons]
      cases schema.set s key v with
      | error e => rfl
      | ok s' => exact ih s'
    · have hknown : known schema.fields ((key, v) :: rest) = known schema.fields rest :=
        List.filter_cons_of_neg (by simpa using hkey)
      have hstrays : strays schema.fields ((key, v) :: rest) = key :: strays schema.fields rest :=
        List.filter_cons_of_pos (by simpa using hkey)
      rw [if_neg hkey, hknown, hstrays, ih]
      cases schema.setAll s (known schema.fields rest) <;> rfl

theorem readSection_eq (v : Value) :
    schema.readSection v = (schema.settle v).map fun s =>
      (s, strays schema.fields ((sectionEntries? schema.fields v).getD [])) := by
  cases v with
  | table entries => exact schema.readEntries_eq _ entries
  | array elements => exact schema.readEntries_eq _ (schema.fields.zip elements)
  | datetime => exact schema.readEntries_eq _ [(datetimeKey, .datetime)]
  | string s => rfl
  | integer n => rfl
  | float x => rfl
  | boolean b => rfl

end Schema

namespace Settings

def fieldsOf? (name : String) : Option (List String) :=
  if name = "logging" then some LogSettings.schema.fields
  else if name = "mappings" then some MappingSettings.schema.fields
  else none

theorem fieldsOf?_eq_some_iff {name : String} {fields : List String} :
    fieldsOf? name = some fields ↔ (name = "logging" ∧ fields = LogSettings.schema.fields) ∨
      (name = "mappings" ∧ fields = MappingSettings.schema.fields) := by
  rw [fieldsOf?]
  by_cases hlogging : name = "logging"
  · simp [hlogging, eq_comm]
  · by_cases hmappings : name = "mappings" <;> simp [hlogging, hmappings, eq_comm]

def setSection (s : Settings) (name : String) (v : Value) : Except SettingsError Settings :=
  if name = "logging" then (LogSettings.schema.settle v).map fun logging => { s with logging }
  else if name = "mappings" then (MappingSettings.schema.settle v).map fun mappings => { s with mappings }
  else .ok s

def setSections (s : Settings) (doc : List (String × Value)) : Except SettingsError Settings :=
  doc.foldlM (fun s e => s.setSection e.1 e.2) s

/-- The unknown keys of an entry of a document, as they are reported. -/
def reported (name : String) (v : Value) : List String :=
  match fieldsOf? name with
  | some fields =>
    (Schema.strays fields ((Schema.sectionEntries? fields v).getD [])).map (name ++ "." ++ ·)
  | none => [topKey name]

theorem setSections_cons (s : Settings) (name : String) (v : Value) (rest : List (String × Value)) :
    s.setSections ((name, v) :: rest) = s.setSection name v >>= fun s => s.setSections rest :=
  List.foldlM_cons

theorem readEntries_cons (s : Settings) (name : String) (v : Value) (rest : List (String × Value)) :
    readEntries s ((name, v) :: rest) = do
      let s ← s.setSection name v
      let (s, more) ← readEntries s rest
      return (s, reported name v ++ more) := by
  have hlogging (key : String) : "logging." ++ key = "logging" ++ "." ++ key := rfl
  have hmappings (key : String) : "mappings." ++ key = "mappings" ++ "." ++ key := rfl
  rw [readEntries, setSection, reported, fieldsOf?]
  by_cases hname : name = "logging"
  · simp only [hname, if_true, Schema.readSection_eq, hlogging]
    cases LogSettings.schema.settle v <;> rfl
  · by_cases hname' : name = "mappings"
    · simp only [hname', if_true, Schema.readSection_eq, hmappings]
      cases MappingSettings.schema.settle v <;> rfl
    · simp only [hname, hname', if_false]
      rfl

theorem readEntries_eq (s : Settings) (doc : List (String × Value)) :
    readEntries s doc =
      (s.setSections doc).map fun s => (s, doc.flatMap fun e => reported e.1 e.2) := by
  induction doc generalizing s with
  | nil => rfl
  | cons entry rest ih =>
    obtain ⟨name, v⟩ := entry
    rw [readEntries_cons, setSections_cons]
    cases s.setSection name v with
    | error e => rfl
    | ok s' =>
      simp only [bind, Except.bind, ih]
      cases s'.setSections rest <;> rfl

/-- What is read are the settings of the sections and the unknown keys, in order and each once. -/
theorem ofEntries_eq (doc : List (String × Value)) :
    ofEntries doc = (setSections {} doc).map fun s =>
      (s, ((doc.flatMap fun e => reported e.1 e.2).mergeSort fun a b => (compare a b).isLE).eraseReps) := by
  rw [ofEntries, readEntries_eq]
  cases setSections {} doc <;> rfl

end Settings

end JvmSymbols
