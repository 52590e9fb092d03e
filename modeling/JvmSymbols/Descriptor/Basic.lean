import JvmSymbols.ClassName

/-! Erased types, method types and the descriptors that spell them: one letter for a primitive, a
bracket for each array dimension, and `L`, the internal class name and a semicolon for a class. -/
namespace JvmSymbols

inductive Primitive
  | byte | char | double | float | int | long | short | boolean | void
  deriving DecidableEq, Repr

namespace Primitive

def letter : Primitive → Char
  | byte => 'B'
  | char => 'C'
  | double => 'D'
  | float => 'F'
  | int => 'I'
  | long => 'J'
  | short => 'S'
  | boolean => 'Z'
  | void => 'V'

def keyword : Primitive → String
  | byte => "byte"
  | char => "char"
  | double => "double"
  | float => "float"
  | int => "int"
  | long => "long"
  | short => "short"
  | boolean => "boolean"
  | void => "void"

def all : List Primitive := [byte, char, double, float, int, long, short, boolean, void]

end Primitive

/-- A type after erasure. A class carries its binary or its internal name. -/
inductive JType
  | primitive (kind : Primitive)
  | array (component : JType)
  | object (name : String)
  deriving DecidableEq, Repr

/-- A method's parameter types and its result, which is `void` for a method without one. -/
structure MethodType where
  params : List JType
  result : JType
  deriving DecidableEq, Repr

inductive DescriptorError
  | unsupportedPrimitive (keyword : String)
  | invalid (descriptor : String)
  deriving DecidableEq, Repr

namespace DescriptorError

def message : DescriptorError → String
  | unsupportedPrimitive keyword => "unsupported primitive type: " ++ keyword
  | invalid descriptor => "invalid descriptor: " ++ descriptor

end DescriptorError

namespace Primitive

def ofKeyword (keyword : String) : Except DescriptorError Primitive :=
  match all.find? (fun p => p.keyword = keyword) with
  | some p => .ok p
  | none => .error (.unsupportedPrimitive keyword)

/-- The kind that a letter stands for where a value is described; `void` describes none. -/
def ofLetter (c : Char) : Option Primitive :=
  all.find? (fun p => p ≠ void ∧ p.letter = c)

theorem ofLetter_letter (p : Primitive) (h : p ≠ void) : ofLetter p.letter = some p := by
  cases p <;> first | rfl | exact absurd rfl h

end Primitive

namespace JType

def isVoid (t : JType) : Bool := t = primitive .void

def dimensions : JType → Nat
  | array t => t.dimensions + 1
  | _ => 0

def arrayOf : Nat → JType → JType
  | 0, t => t
  | n + 1, t => array (arrayOf n t)

def innermost : JType → JType
  | array t => t.innermost
  | t => t

/-- The spelling of the type with every class name written by `f`. -/
def spell (f : String → String) : JType → String
  | primitive kind => kind.letter.toString
  | array t => "[" ++ t.spell f
  | object name => "L" ++ f name ++ ";"

def descriptor (t : JType) : String := t.spell ClassName.toInternal

end JType

def classDescriptor (name : String) : String := (JType.object name).descriptor

/-- The descriptor of a method; without a result type the method is `void`. -/
def methodDescriptor (params : List JType) (result : Option JType) : String :=
  "(" ++ String.join (params.map JType.descriptor) ++ ")"
    ++ (result.getD (.primitive .void)).descriptor

namespace MethodType

def descriptor (m : MethodType) : String := methodDescriptor m.params (some m.result)

end MethodType

def constructorName : String := "<init>"

def initializerName : String := "<clinit>"

def bytecodeMethodName (name : String) (isConstructor : Bool) : String :=
  if isConstructor then constructorName else name

end JvmSymbols
