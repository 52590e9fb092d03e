import JvmSymbols.Toml.Token

/-! TOML 1.0 documents: a list of statements, and the table that these build. -/
namespace JvmSymbols
namespace Toml

inductive Statement
  | entry (key : List String) (v : Value)
  | table (path : List String)
  | element (path : List String)
  deriving Repr

/-- Reads values up to the closing bracket. A comma may follow the last one. -/
def readElements (readValue : Reader Value) : Nat → Reader (List Value)
  | 0, _ => none
  | n + 1, cs =>
    match skipLayout cs.length cs with
    | ']' :: rest => some ([], rest)
    | cs => do
      let (v, rest) ← readValue cs
      match skipLayout rest.length rest with
      | ',' :: rest =>
        let (vs, rest) ← readElements readValue n rest
        return (v :: vs, rest)
      | ']' :: rest => return ([v], rest)
      | _ => none

def readEntry (readValue : Reader Value) (cs : List Char) :
    Option ((List String × Value) × List Char) := do
  let (key, rest) ← readKey cs
  let (v, rest) ← readValue (skipSpaces (← expect '=' rest))
  return ((key, v), skipSpaces rest)

/-- Reads entries up to the closing brace. No comma may follow the last one. -/
def readEntries (readValue : Reader Value) : Nat → Reader (List (List String × Value))
  | 0, _ => none
  | n + 1, cs => do
    let (entry, rest) ← readEntry readValue cs
    match rest with
    | ',' :: rest =>
      let (entries, rest) ← readEntries readValue n rest
      return (entry :: entries, rest)
    | '\x7d' :: rest => return ([entry], rest)
    | _ => none

/-- Reads a value in which arrays and inline tables nest at most `depth` deep. -/
def readValue : Nat → Reader Value
  | 0 => fun cs =>
    match cs with
    | '"' :: _ | '\'' :: _ => (readString cs).map fun (s, rest) => (.string s, rest)
    | cs => readScalar cs
  | depth + 1 => fun cs =>
    match cs with
    | '"' :: _ | '\'' :: _ => (readString cs).map fun (s, rest) => (.string s, rest)
    | '[' :: rest =>
      (readElements (readValue depth) cs.length rest).map fun (vs, rest) => (.array vs, rest)
    | '\x7b' :: rest =>
      match skipSpaces rest with
      | '\x7d' :: rest => some (.table [], rest)
      | rest => do
        let (entries, rest) ← readEntries (readValue depth) cs.length rest
        let v ← inlineTable entries
        return (v, rest)
    | cs => readScalar cs

def readStatement (cs : List Char) : Option (Statement × List Char) :=
  match cs with
  | '[' :: '[' :: rest => do
    let (path, rest) ← readKey rest
    let rest ← endLine? (← expect ']' (← expect ']' rest))
    return (.element path, rest)
  | '[' :: rest => do
    let (path, rest) ← readKey rest
    let rest ← endLine? (← expect ']' rest)
    return (.table path, rest)
  | cs => do
    let ((key, v), rest) ← readEntry (readValue nestingLimit) cs
    let rest ← endLine? rest
    return (.entry key v, rest)

def readStatements : Nat → List Char → Option (List Statement)
  | 0, _ => none
  | n + 1, cs =>
    match skipLayout cs.length cs with
    | [] => some []
    | '#' :: rest => if (rest.dropWhile isPlain).isEmpty then some [] else none
    | cs => do
      let (s, rest) ← readStatement cs
      let ss ← readStatements n rest
      return s :: ss

def statements (text : String) : Option (List Statement) :=
  let cs := match text.toList with
    | '\ufeff' :: rest => rest
    | cs => cs
  readStatements (cs.length + 1) cs

namespace Draft

def apply (d : Draft) : Statement → Option Draft
  | .entry key v => d.addEntry key v
  | .table path => d.openTable path
  | .element path => d.openElement path

end Draft

def parse (text : String) : Option (List (String × Value)) := do
  let ss ← statements text
  let d ← ss.foldlM Draft.apply Draft.empty
  return entriesOf (← d.close)

end Toml
end JvmSymbols
