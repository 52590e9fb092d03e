import JvmSymbols.Text.Lines
import JvmSymbols.Files.Path
import JvmSymbols.Mapping.Record
import JvmSymbols.Mapping.Dictionary

/-! Reading a mapping file into a dictionary. Lines are read in order and the first one at fault
decides: no dictionary comes with an error. -/
namespace JvmSymbols

inductive MappingError
  | unopenable (path : String) (cause : FileFailure)
  | unreadable (line : Nat) (cause : FileFailure)
  | malformed (line : Nat) (flaw : Flaw)
  | duplicate (line : Nat) (table : Table) (clash : Clash) (record : Record)
  deriving DecidableEq, Repr

namespace MappingError

def message : MappingError → String
  | unopenable path cause => "failed to open mapping file " ++ path ++ ": " ++ cause.message
  | unreadable line cause => "failed to read mapping line " ++ line.repr ++ ": " ++ cause.message
  | malformed line flaw => "malformed mapping line " ++ line.repr ++ ": " ++ flaw.message
  | duplicate line table clash record =>
    let side := match clash with
      | .key => "name"
      | .value => "mapped name"
    "line " ++ line.repr ++ ": duplicate " ++ table.noun ++ " mapping " ++ record.display
      ++ " (repeated " ++ side ++ ")"

end MappingError

namespace Dictionary

def add (d : Dictionary) : Record → Except (Table × Clash) Dictionary
  | .ofClass human mapped =>
    match d.classes.insert human mapped with
    | .ok t => .ok { d with classes := t }
    | .error clash => .error (.classes, clash)
  | .ofField human mapped =>
    match d.fields.insert human mapped with
    | .ok t => .ok { d with fields := t }
    | .error clash => .error (.fields, clash)
  | .ofMethod human mapped =>
    match d.methods.insert human mapped with
    | .ok t => .ok { d with methods := t }
    | .error clash => .error (.methods, clash)
  | .other _ => .ok d

def readLine (strict : Bool) (n : Nat) (bytes : List UInt8) : Except MappingError Record :=
  match Text.decode bytes with
  | none => .error (.unreadable n .notUtf8)
  | some text =>
    match Record.ofWords strict (Text.words text.toList) with
    | .error flaw => .error (.malformed n flaw)
    | .ok record => .ok record

def addLine (strict : Bool) (d : Dictionary) (n : Nat) (bytes : List UInt8) :
    Except MappingError (Dictionary × Record) :=
  match readLine strict n bytes with
  | .error e => .error e
  | .ok record =>
    match d.add record with
    | .error (table, clash) => .error (.duplicate n table clash record)
    | .ok d => .ok (d, record)

/-- The outcome of reading, and the numbers and tags of the records it passed over on its way. -/
structure Reading where
  outcome : Except MappingError Dictionary
  passedOver : List (Nat × String)

/-- Reads lines into `d`, the first of them having number `n`. -/
def readLines (strict : Bool) (d : Dictionary) (n : Nat) : List (List UInt8) → Reading
  | [] => ⟨.ok d, []⟩
  | bytes :: rest =>
    match addLine strict d n bytes with
    | .error e => ⟨.error e, []⟩
    | .ok (d, .other tag) =>
      let r := readLines strict d (n + 1) rest
      { r with passedOver := (n, tag) :: r.passedOver }
    | .ok (d, _) => readLines strict d (n + 1) rest

def read (strict : Bool) (bytes : List UInt8) : Reading :=
  readLines strict empty 1 (Text.byteLines bytes)

def parse (strict : Bool) (bytes : List UInt8) : Except MappingError Dictionary :=
  (read strict bytes).outcome

end Dictionary
end JvmSymbols
