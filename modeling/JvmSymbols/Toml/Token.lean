import JvmSymbols.Number.Numeral
import JvmSymbols.Number.Binary64
import JvmSymbols.Toml.Value

/-! The small parts of TOML 1.0: layout, keys, strings, numbers, dates and times. Each reader takes
what it needs from the front of a text and returns it with the rest. -/
namespace JvmSymbols
namespace Toml

abbrev Reader (α : Type) := List Char → Option (α × List Char)

def isSpace (c : Char) : Bool := c = ' ' || c = '\t'

def skipSpaces (cs : List Char) : List Char := cs.dropWhile isSpace

/-- A character that may stand in a comment or a string: a tab, or one that is no ASCII control. -/
def isPlain (c : Char) : Bool := c = '\t' || (0x20 ≤ c.toNat && c.toNat ≠ 0x7F)

/-- What follows a line end, if one comes first. A carriage return needs its line feed. -/
def skipNewline? : List Char → Option (List Char)
  | '\n' :: rest => some rest
  | '\r' :: '\n' :: rest => some rest
  | _ => none

def skipComment : List Char → List Char
  | '#' :: rest => rest.dropWhile isPlain
  | cs => cs

def endLine? (cs : List Char) : Option (List Char) :=
  match skipComment (skipSpaces cs) with
  | [] => some []
  | rest => skipNewline? rest

def skipLayout : Nat → List Char → List Char
  | 0, cs => skipSpaces cs
  | n + 1, cs =>
    match skipNewline? (skipComment (skipSpaces cs)) with
    | some rest => skipLayout n rest
    | none => skipSpaces cs

def isHexDigit (c : Char) : Bool :=
  c.isDigit || ('a' ≤ c && c ≤ 'f') || ('A' ≤ c && c ≤ 'F')

def ofHex? (digits : List Char) : Option Char :=
  let n := Numeral.value 16 digits
  if digits.all isHexDigit && decide n.isValidChar then some (Char.ofNat n) else none

def ofEscape? : Char → Option Char
  | 'b' => some '\x08'
  | 't' => some '\t'
  | 'n' => some '\n'
  | 'f' => some '\x0c'
  | 'r' => some '\r'
  | '"' => some '"'
  | '\\' => some '\\'
  | _ => none

def prepend (c : Char) : Option (List Char × List Char) → Option (List Char × List Char) :=
  Option.map fun (s, rest) => (c :: s, rest)

def readBasic : Reader (List Char)
  | [] => none
  | '"' :: rest => some ([], rest)
  | '\\' :: 'u' :: a :: b :: c :: d :: rest =>
    (ofHex? [a, b, c, d]).bind fun c => prepend c (readBasic rest)
  | '\\' :: 'U' :: a :: b :: c :: d :: e :: f :: g :: h :: rest =>
    (ofHex? [a, b, c, d, e, f, g, h]).bind fun c => prepend c (readBasic rest)
  | '\\' :: c :: rest => (ofEscape? c).bind fun c => prepend c (readBasic rest)
  | c :: rest => if isPlain c && c ≠ '\\' then prepend c (readBasic rest) else none

/-- The rest of a string in single quotes, where nothing is escaped. -/
def readLiteral : Reader (List Char)
  | [] => none
  | '\'' :: rest => some ([], rest)
  | c :: rest => if isPlain c then prepend c (readLiteral rest) else none

/-- The end of a string in triple quotes, after the three: up to two more belong to the string. -/
def closeTriple (quote : Char) : List Char → List Char × List Char
  | c :: d :: rest =>
    if c = quote then if d = quote then ([c, d], rest) else ([c], d :: rest) else ([], c :: d :: rest)
  | [c] => if c = quote then ([c], []) else ([], [c])
  | [] => ([], [])

/-- The rest of a string in triple double quotes. A backslash at the end of a line drops the layout
up to the next character, which `trimming` says is going on. -/
def readTripleBasic (trimming : Bool) : Reader (List Char)
  | [] => none
  | '"' :: '"' :: '"' :: rest => some (closeTriple '"' rest)
  | '\n' :: rest => if trimming then readTripleBasic true rest
    else prepend '\n' (readTripleBasic false rest)
  | '\r' :: '\n' :: rest => if trimming then readTripleBasic true rest
    else prepend '\n' (readTripleBasic false rest)
  | '\\' :: 'u' :: a :: b :: c :: d :: rest =>
    (ofHex? [a, b, c, d]).bind fun c => prepend c (readTripleBasic false rest)
  | '\\' :: 'U' :: a :: b :: c :: d :: e :: f :: g :: h :: rest =>
    (ofHex? [a, b, c, d, e, f, g, h]).bind fun c => prepend c (readTripleBasic false rest)
  | '\\' :: c :: rest =>
    if (skipNewline? (skipSpaces (c :: rest))).isSome then readTripleBasic true (c :: rest)
    else (ofEscape? c).bind fun c => prepend c (readTripleBasic false rest)
  | c :: rest =>
    if trimming && isSpace c then readTripleBasic true rest
    else if isPlain c && c ≠ '\\' then prepend c (readTripleBasic false rest)
    else none

def readTripleLiteral : Reader (List Char)
  | [] => none
  | '\'' :: '\'' :: '\'' :: rest => some (closeTriple '\'' rest)
  | '\n' :: rest => prepend '\n' (readTripleLiteral rest)
  | '\r' :: '\n' :: rest => prepend '\n' (readTripleLiteral rest)
  | c :: rest => if isPlain c then prepend c (readTripleLiteral rest) else none

def skipFirstNewline (cs : List Char) : List Char := (skipNewline? cs).getD cs

def readString : Reader String
  | '"' :: '"' :: '"' :: rest =>
    (readTripleBasic false (skipFirstNewline rest)).map fun (s, rest) => (String.ofList s, rest)
  | '"' :: rest => (readBasic rest).map fun (s, rest) => (String.ofList s, rest)
  | '\'' :: '\'' :: '\'' :: rest =>
    (readTripleLiteral (skipFirstNewline rest)).map fun (s, rest) => (String.ofList s, rest)
  | '\'' :: rest => (readLiteral rest).map fun (s, rest) => (String.ofList s, rest)
  | _ => none

def isBare (c : Char) : Bool := c.isAlphanum || c = '_' || c = '-'

def readSimpleKey : Reader String
  | '"' :: rest => (readBasic rest).map fun (s, rest) => (String.ofList s, rest)
  | '\'' :: rest => (readLiteral rest).map fun (s, rest) => (String.ofList s, rest)
  | cs =>
    if (cs.takeWhile isBare).isEmpty then none
    else some (String.ofList (cs.takeWhile isBare), cs.dropWhile isBare)

/-- A key of at most `n` parts between dots, with blanks around each part. -/
def readKeyParts : Nat → Reader (List String)
  | 0, _ => none
  | n + 1, cs => do
    let (part, rest) ← readSimpleKey (skipSpaces cs)
    match skipSpaces rest with
    | '.' :: rest =>
      let (parts, rest) ← readKeyParts n rest
      return (part :: parts, rest)
    | rest => return ([part], rest)

/-- How deep values, and how long keys, may nest. -/
def nestingLimit : Nat := 79

def readKey : Reader (List String) := readKeyParts nestingLimit

/-- Digits between which single underscores may stand, after a first digit. -/
def moreDigits (isDigit : Char → Bool) : List Char → List Char × List Char
  | [] => ([], [])
  | '_' :: d :: rest =>
    if isDigit d then let (ds, rest) := moreDigits isDigit rest; (d :: ds, rest)
    else ([], '_' :: d :: rest)
  | d :: rest =>
    if isDigit d then let (ds, rest) := moreDigits isDigit rest; (d :: ds, rest)
    else ([], d :: rest)

def readDigits (isDigit : Char → Bool) : Reader (List Char)
  | d :: rest => if isDigit d then some (d :: (moreDigits isDigit rest).1, (moreDigits isDigit rest).2)
    else none
  | [] => none

def readSign : List Char → Bool × List Char
  | '-' :: rest => (true, rest)
  | '+' :: rest => (false, rest)
  | cs => (false, cs)

/-- Decimal digits without a leading zero. -/
def readWhole : Reader (List Char)
  | '0' :: rest => some (['0'], rest)
  | cs => readDigits Char.isDigit cs

def toInteger? (negative : Bool) (n : Nat) : Option Value :=
  if negative then if n ≤ Numeral.limit64 / 2 then some (.integer (-n)) else none
  else if n < Numeral.limit64 / 2 then some (.integer n) else none

def readBased (base : Nat) (isDigit : Char → Bool) (cs : List Char) :
    Option (Value × List Char) := do
  let (digits, rest) ← readDigits isDigit cs
  let v ← toInteger? false (Numeral.value base digits)
  return (v, rest)

def readInteger : Reader Value
  | '0' :: 'x' :: rest => readBased 16 isHexDigit rest
  | '0' :: 'o' :: rest => readBased 8 (fun c => '0' ≤ c && c ≤ '7') rest
  | '0' :: 'b' :: rest => readBased 2 (fun c => c = '0' || c = '1') rest
  | cs => do
    let (negative, cs) := readSign cs
    let (digits, rest) ← readWhole cs
    let v ← toInteger? negative (Numeral.value 10 digits)
    return (v, rest)

def readExponent : List Char → Option (Int × List Char)
  | e :: cs =>
    if e = 'e' || e = 'E' then do
      let (negative, cs) := readSign cs
      let (digits, rest) ← readDigits Char.isDigit cs
      let n : Int := Numeral.value 10 digits
      return (if negative then -n else n, rest)
    else none
  | [] => none

/-- The float that digits before and after the point and a power of ten spell. What overflows upwards
is refused. -/
def toFloat? (negative : Bool) (whole fraction : List Char) (e : Int) : Option Value :=
  match Binary64.ofDecimal negative (Numeral.value 10 (whole ++ fraction)) (e - fraction.length) with
  | .infinite false => none
  | x => some (.float x)

def readFloat (cs : List Char) : Option (Value × List Char) := do
  let (negative, cs) := readSign cs
  match cs with
  | 'i' :: 'n' :: 'f' :: rest => return (.float (.infinite negative), rest)
  | 'n' :: 'a' :: 'n' :: rest => return (.float .nan, rest)
  | _ =>
    let (whole, cs) ← readWhole cs
    match cs with
    | '.' :: cs =>
      let (fraction, cs) ← readDigits Char.isDigit cs
      let (e, rest) := (readExponent cs).getD (0, cs)
      let v ← toFloat? negative whole fraction e
      return (v, rest)
    | cs =>
      let (e, rest) ← readExponent cs
      let v ← toFloat? negative whole [] e
      return (v, rest)

def readFixed (n : Nat) (cs : List Char) : Option (Nat × List Char) :=
  if (cs.take n).length = n && (cs.take n).all Char.isDigit then
    some (Numeral.value 10 (cs.take n), cs.drop n)
  else none

def expect (c : Char) : List Char → Option (List Char)
  | d :: rest => if d = c then some rest else none
  | [] => none

def daysInMonth (year month : Nat) : Nat :=
  if month = 2 then
    if year % 4 = 0 ∧ (year % 100 ≠ 0 ∨ year % 400 = 0) then 29 else 28
  else if month = 4 ∨ month = 6 ∨ month = 9 ∨ month = 11 then 30
  else 31

def skipDate? (cs : List Char) : Option (List Char) := do
  let (year, cs) ← readFixed 4 cs
  let (month, cs) ← readFixed 2 (← expect '-' cs)
  let (day, cs) ← readFixed 2 (← expect '-' cs)
  if 1 ≤ month ∧ month ≤ 12 ∧ 1 ≤ day ∧ day ≤ daysInMonth year month then some cs else none

def skipHourMinute? (cs : List Char) : Option (List Char) := do
  let (hour, cs) ← readFixed 2 cs
  let (minute, cs) ← readFixed 2 (← expect ':' cs)
  if hour < 24 ∧ minute < 60 then some cs else none

/-- The text after the time of a day. A minute may have a leap second. -/
def skipTime? (cs : List Char) : Option (List Char) := do
  let (second, cs) ← readFixed 2 (← expect ':' (← skipHourMinute? cs))
  if second ≤ 60 then
    match cs with
    | '.' :: d :: rest => if d.isDigit then some (rest.dropWhile Char.isDigit) else none
    | _ => some cs
  else none

def skipOffset? : List Char → Option (List Char)
  | c :: rest =>
    if c = 'Z' || c = 'z' then some rest
    else if c = '+' || c = '-' then skipHourMinute? rest
    else some (c :: rest)
  | [] => some []

def readDatetime (cs : List Char) : Option (Value × List Char) :=
  match skipDate? cs with
  | none => (skipTime? cs).map fun rest => (.datetime, rest)
  | some afterDate =>
    match afterDate with
    | c :: rest =>
      if c = 'T' || c = 't' || c = ' ' then
        match skipTime? rest with
        | none => some (.datetime, afterDate)
        | some rest => (skipOffset? rest).map fun rest => (.datetime, rest)
      else some (.datetime, afterDate)
    | [] => some (.datetime, afterDate)

def readScalar : Reader Value
  | 't' :: 'r' :: 'u' :: 'e' :: rest => some (.boolean true, rest)
  | 'f' :: 'a' :: 'l' :: 's' :: 'e' :: rest => some (.boolean false, rest)
  | cs => (readDatetime cs).orElse fun _ => (readFloat cs).orElse fun _ => readInteger cs

end Toml
end JvmSymbols
