import JvmSymbols.Mapping.Record
import JvmSymbols.Mapping.Dictionary

/-! The written form of a dictionary: all classes, then all fields, then all methods, each group in
the order of its human names and each record on a line. -/
namespace JvmSymbols
namespace Record

/-- The words of a record, with owners and classes in their internal spelling. -/
def toWords : Record → List String
  | ofClass human mapped => ["CL:", ClassName.toInternal human, ClassName.toInternal mapped]
  | ofField human mapped => ["FD:", human.operand, mapped.operand]
  | ofMethod human mapped =>
    ["MD:", human.operand, human.descriptor.getD "", mapped.operand, mapped.descriptor.getD ""]
  | other tag => [tag]

def line (r : Record) : String := " ".intercalate r.toWords

end Record

namespace OneToOne

def sorted {α β : Type} [Ord α] (t : OneToOne α β) : List (α × β) :=
  t.pairs.mergeSort (fun p q => (compare p.1 q.1).isLE)

end OneToOne

namespace Dictionary

def records (d : Dictionary) : List Record :=
  d.classes.sorted.map (fun (human, mapped) => .ofClass human mapped)
    ++ d.fields.sorted.map (fun (human, mapped) => .ofField human mapped)
    ++ d.methods.sorted.map (fun (human, mapped) => .ofMethod human mapped)

def toText (d : Dictionary) : String := String.join (d.records.map (fun r => r.line ++ "\n"))

end Dictionary
end JvmSymbols
