/-! Lines and words of a text. Lines are cut from bytes or from characters: a line feed ends a line and takes one
carriage return before it along; what stands after the last line feed is a line of its own unless it is empty, and
keeps a carriage return at its end. Words stand between blank characters. Blank means the Unicode property
`White_Space`, which has the no-break spaces and the line and paragraph separators and leaves out the zero width
characters, the byte order mark among them. -/
namespace JvmSymbols
namespace Text

def dropReturn {α : Type} [DecidableEq α] (cr : α) (xs : List α) : List α :=
  if xs.getLast? = some cr then xs.dropLast else xs

/-- The lines of a text whose line feed is `lf` and whose carriage return is `cr`. -/
def lines {α : Type} [DecidableEq α] (lf cr : α) (xs : List α) : List (List α) :=
  let pieces := xs.splitOn lf
  let ended := pieces.dropLast.map (dropReturn cr)
  match pieces.getLast? with
  | none | some [] => ended
  | some unended => ended ++ [unended]

def byteLines (bytes : List UInt8) : List (List UInt8) := lines 10 13 bytes

def textLines (s : String) : List String := (lines '\n' '\r' s.toList).map String.ofList

def decode (bytes : List UInt8) : Option String := String.fromUTF8? ⟨bytes.toArray⟩

def encode (s : String) : List UInt8 := s.toByteArray.data.toList

/-- The twenty-five characters of the property `White_Space`. -/
def isBlank (c : Char) : Bool :=
  (9 ≤ c.toNat && c.toNat ≤ 13) || c.toNat = 0x20 || c.toNat = 0x85 || c.toNat = 0xA0
    || c.toNat = 0x1680 || (0x2000 ≤ c.toNat && c.toNat ≤ 0x200A) || c.toNat = 0x2028
    || c.toNat = 0x2029 || c.toNat = 0x202F || c.toNat = 0x205F || c.toNat = 0x3000

/-- The longest runs of characters that are not blank, in order. -/
def words (cs : List Char) : List String :=
  ((cs.splitOnP isBlank).filter (fun w => !w.isEmpty)).map String.ofList

def trim (s : String) : String :=
  String.ofList (((s.toList.dropWhile isBlank).reverse.dropWhile isBlank).reverse)

end Text
end JvmSymbols
