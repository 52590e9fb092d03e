import JvmSymbols.Text.Split
import JvmSymbols.Descriptor.Basic

/-! Fields and methods of classes. A method carries its descriptor, which distinguishes it from the
field of its name; the owner is a binary class name. -/
namespace JvmSymbols

structure Member where
  owner : String
  name : String
  descriptor : Option String
  deriving DecidableEq, Repr

/-- The erased shape of a declared method; `result` is absent where nothing is returned. -/
structure MethodShape where
  name : String
  isConstructor : Bool
  params : List JType
  result : Option JType
  deriving DecidableEq, Repr

namespace MethodShape

def ofConstructor (params : List JType) : MethodShape := ⟨"", true, params, none⟩

def bytecodeName (m : MethodShape) : String := bytecodeMethodName m.name m.isConstructor

def descriptor (m : MethodShape) : String := methodDescriptor m.params m.result

end MethodShape

namespace Member

/-- The member that a mention such as `tick` or `tick(I)V` names: the descriptor starts at the first
parenthesis. The owner may come in either spelling. -/
def ofMention (owner mention : String) : Member :=
  match Text.splitFirst '(' mention.toList with
  | some (name, rest) => ⟨ClassName.toBinary owner, String.ofList name, some (String.ofList ('(' :: rest))⟩
  | none => ⟨ClassName.toBinary owner, mention, none⟩

/-- The member that `owner/name` spells, cut at the last slash. Both parts must have text. -/
def ofOperand (operand : String) (descriptor : Option String) : Option Member :=
  match Text.splitLast '/' operand.toList with
  | some (o :: owner, n :: name) =>
    some ⟨ClassName.toBinary (String.ofList (o :: owner)), String.ofList (n :: name), descriptor⟩
  | _ => none

def operand (m : Member) : String := ClassName.toInternal m.owner ++ "/" ++ m.name

def ofShape (owner : String) (m : MethodShape) : Member :=
  ⟨owner, m.bytecodeName, some m.descriptor⟩

def isMethod (m : Member) : Bool := m.descriptor.isSome

def withoutDescriptor (m : Member) : Member := { m with descriptor := none }

def display (m : Member) : String := m.owner ++ "." ++ m.name ++ m.descriptor.getD ""

/-- Members are ordered by owner, then by name, then by descriptor, a field before the methods of its
name. Texts are compared by code points. -/
def compare (m n : Member) : Ordering :=
  (Ord.compare m.owner n.owner).then
    ((Ord.compare m.name n.name).then (Ord.compare m.descriptor n.descriptor))

instance : Ord Member := ⟨compare⟩

def sortUnique (ms : List Member) : List Member :=
  (ms.mergeSort (fun m n => (compare m n).isLE)).eraseReps

end Member
end JvmSymbols
