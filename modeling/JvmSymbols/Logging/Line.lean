import JvmSymbols.Text.Quoted
import JvmSymbols.Logging.Event

/-! Events as lines of a log, either plain or as JSON objects. Lines carry no time. -/
namespace JvmSymbols

namespace Level

def tag (l : Level) : String := l.name.toUpper

end Level

namespace Event

def plainValue : FieldValue → String
  | .text s => s
  | .quoted s => Text.quote s
  | .count n => n.repr

def plainLine (e : Event) : String :=
  String.ofList (List.replicate (5 - e.level.tag.length) ' ') ++ e.level.tag ++ " " ++ e.target
    ++ ": " ++ e.message
    ++ String.join (e.fields.map fun (name, value) => " " ++ name ++ "=" ++ plainValue value)

def jsonEscape (c : Char) : List Char :=
  match c with
  | '"' => ['\\', '"']
  | '\\' => ['\\', '\\']
  | '\x08' => ['\\', 'b']
  | '\x0c' => ['\\', 'f']
  | '\n' => ['\\', 'n']
  | '\r' => ['\\', 'r']
  | '\t' => ['\\', 't']
  | c =>
    if c.toNat < 0x20 then
      ['\\', 'u', '0', '0', Nat.digitChar (c.toNat / 16), Nat.digitChar (c.toNat % 16)]
    else [c]

def jsonString (s : String) : String := String.ofList ('"' :: s.toList.flatMap jsonEscape ++ ['"'])

def jsonValue : FieldValue → String
  | .text s | .quoted s => jsonString s
  | .count n => n.repr

def jsonObject (entries : List (String × String)) : String :=
  "\x7b" ++ ",".intercalate (entries.map fun (name, value) => jsonString name ++ ":" ++ value) ++ "\x7d"

/-- One object with the level, the fields, of which the message is one, and the target. -/
def jsonLine (e : Event) : String :=
  let fields := ("message", jsonString e.message) :: e.fields.map fun (name, value) =>
    (name, jsonValue value)
  jsonObject [("level", jsonString e.level.tag), ("fields", jsonObject fields),
    ("target", jsonString e.target)]

end Event
end JvmSymbols
