import JvmSymbols.Text.Quoted
import JvmSymbols.Files.Path
import JvmSymbols.Toml.Document
import JvmSymbols.Settings.Basic

/-! Settings out of a TOML document. A section is a table, or an array that lists the values of its
fields in order. A key that no section knows is reported and otherwise ignored; a value of the wrong
kind is an error, and the first one in the document is the one reported. -/
namespace JvmSymbols

inductive SettingsError
  | unreadable (path : String) (cause : FileFailure)
  | notToml
  | invalidType (found expected : String)
  | invalidValue (found expected : String)
  deriving DecidableEq, Repr

namespace SettingsError

def message : SettingsError → String
  | unreadable path cause => "failed to read config file " ++ path ++ ": " ++ cause.message
  | notToml => "failed to parse toml config: not a TOML document"
  | invalidType found expected =>
    "failed to parse toml config: invalid type: " ++ found ++ ", expected " ++ expected
  | invalidValue found expected =>
    "failed to parse toml config: invalid value: " ++ found ++ ", expected " ++ expected

end SettingsError

namespace Toml
namespace Value

def describe : Value → String
  | string s => "string " ++ Text.quote s
  | integer n => "integer \x60" ++ toString n ++ "\x60"
  | float x => "floating point \x60" ++ x.text ++ "\x60"
  | boolean b => "boolean \x60" ++ (if b then "true" else "false") ++ "\x60"
  | array _ => "sequence"
  | datetime | table _ => "map"

def asString : Value → Except SettingsError String
  | string s => .ok s
  | v => .error (.invalidType v.describe "a string")

def asPath : Value → Except SettingsError String
  | string s => .ok s
  | v => .error (.invalidType v.describe "path string")

def asBoolean : Value → Except SettingsError Bool
  | boolean b => .ok b
  | v => .error (.invalidType v.describe "a boolean")

def asCount : Value → Except SettingsError Nat
  | integer n =>
    if 0 ≤ n then .ok n.toNat else .error (.invalidValue (integer n).describe "usize")
  | v => .error (.invalidType v.describe "usize")

end Value
end Toml

open Toml (Value)

/-- How a section is read: its title in messages, its fields in order, how each is set, and what the
fields are that the section leaves out. -/
structure Schema (σ : Type) where
  title : String
  fields : List String
  set : σ → String → Value → Except SettingsError σ
  unset : σ

namespace Schema

variable {σ : Type}

def readEntries (schema : Schema σ) (s : σ) :
    List (String × Value) → Except SettingsError (σ × List String)
  | [] => .ok (s, [])
  | (key, v) :: rest =>
    if key ∈ schema.fields then do
      let s ← schema.set s key v
      schema.readEntries s rest
    else do
      let (s, unknown) ← schema.readEntries s rest
      return (s, key :: unknown)

/-- The one key of a date or time where a table is wanted. -/
def datetimeKey : String := "$__toml_private_datetime"

def readSection (schema : Schema σ) : Value → Except SettingsError (σ × List String)
  | .table entries => schema.readEntries schema.unset entries
  | .array elements => schema.readEntries schema.unset (schema.fields.zip elements)
  | .datetime => schema.readEntries schema.unset [(datetimeKey, .datetime)]
  | v => .error (.invalidType v.describe schema.title)

end Schema

namespace LogSettings

def schema : Schema LogSettings where
  title := "struct LoggingConfig"
  fields := ["level", "json", "stderr", "file", "buffer_lines"]
  set s key v :=
    if key = "level" then v.asString.map fun x => { s with level := x }
    else if key = "json" then v.asBoolean.map fun x => { s with json := x }
    else if key = "stderr" then v.asBoolean.map fun x => { s with stderr := x }
    else if key = "file" then v.asPath.map fun x => { s with file := some x }
    else v.asCount.map fun x => { s with bufferLines := x }
  unset := { level := "info", json := false, stderr := true, file := none, bufferLines := 1000 }

end LogSettings

namespace MappingSettings

def schema : Schema MappingSettings where
  title := "struct MappingsConfig"
  fields := ["path", "validate_descriptors"]
  set s key v :=
    if key = "path" then v.asPath.map fun x => { s with path := some x }
    else v.asBoolean.map fun x => { s with validateDescriptors := x }
  unset := { path := none, validateDescriptors := false }

end MappingSettings

namespace Settings

/-- A key at the top of a document as reports show it, without dots in front. -/
def topKey (key : String) : String := String.ofList (key.toList.dropWhile (· = '.'))

def readEntries (s : Settings) :
    List (String × Value) → Except SettingsError (Settings × List String)
  | [] => .ok (s, [])
  | (key, v) :: rest =>
    if key = "logging" then do
      let (logging, unknown) ← LogSettings.schema.readSection v
      let (s, more) ← readEntries { s with logging } rest
      return (s, unknown.map ("logging." ++ ·) ++ more)
    else if key = "mappings" then do
      let (mappings, unknown) ← MappingSettings.schema.readSection v
      let (s, more) ← readEntries { s with mappings } rest
      return (s, unknown.map ("mappings." ++ ·) ++ more)
    else do
      let (s, more) ← readEntries s rest
      return (s, topKey key :: more)

/-- Settings from the entries of a document, and the unknown keys, sorted and each once. -/
def ofEntries (entries : List (String × Value)) :
    Except SettingsError (Settings × List String) := do
  let (s, unknown) ← readEntries {} entries
  return (s, (unknown.mergeSort (fun a b => (compare a b).isLE)).eraseReps)

def parse (text : String) : Except SettingsError (Settings × List String) :=
  match Toml.parse text with
  | none => .error .notToml
  | some entries => ofEntries entries

end Settings
end JvmSymbols
