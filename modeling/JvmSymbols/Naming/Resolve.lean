import JvmSymbols.ClassName
import JvmSymbols.Number.Numeral
import JvmSymbols.Naming.View

/-! Finding the class that a binary or internal name names. The segments between dollar signs lead down
from a top-level class; a segment that is a number picks an anonymous or local class. -/
namespace JvmSymbols

namespace ClassView

variable {ν : Type}

/-- The class that a segment names inside `n`. Numbers count from one; what is no number is the name
of a member. -/
def descend (v : ClassView ν) (d : ClassDirectory ν) (n : ν) (segment : List Char) : Option ν :=
  match Numeral.unsigned64? segment with
  | some 0 => none
  | some (i + 1) => (v.numbered n)[i]?
  | none => d.member? n (String.ofList segment)

def find (v : ClassView ν) (d : ClassDirectory ν) (name : String) : Option ν :=
  match (ClassName.toBinary name).toList.splitOn '$' with
  | [] => none
  | first :: segments => (d.topLevel? (String.ofList first)).bind (segments.foldlM (v.descend d))

end ClassView
end JvmSymbols
