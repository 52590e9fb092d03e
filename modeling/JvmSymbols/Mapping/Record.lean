import JvmSymbols.Member
import JvmSymbols.Descriptor.Parser

/-! Records of an SRG mapping file. A record is a line of words: a tag, then for classes and fields a
human and a mapped operand, and for methods each operand followed by its descriptor. Records with
other tags carry nothing that a dictionary holds. -/
namespace JvmSymbols

inductive Record
  | ofClass (human mapped : String)
  | ofField (human mapped : Member)
  | ofMethod (human mapped : Member)
  | other (tag : String)
  deriving DecidableEq, Repr

inductive Flaw
  | blank
  | operandCount (tag : String) (expected found : Nat)
  | badDescriptor (error : DescriptorError)
  | notOwnerAndName (operand : String)
  deriving DecidableEq, Repr

namespace Flaw

def message : Flaw → String
  | blank => "blank line"
  | operandCount tag expected found =>
    "\x60" ++ tag ++ "\x60 expects " ++ expected.repr ++ " operands, found " ++ found.repr
  | badDescriptor error => error.message
  | notOwnerAndName operand => "\x60" ++ operand ++ "\x60 is not of the form owner/name"

end Flaw

namespace Record

def readMember (operand : String) (descriptor : Option String) : Except Flaw Member :=
  match Member.ofOperand operand descriptor with
  | some m => .ok m
  | none => .error (.notOwnerAndName operand)

def checkDescriptor (descriptor : String) : Except Flaw Unit :=
  match MethodType.parse descriptor with
  | .ok _ => .ok ()
  | .error e => .error (.badDescriptor e)

def readClass : List String → Except Flaw Record
  | [human, mapped] => .ok (ofClass (ClassName.toBinary human) (ClassName.toBinary mapped))
  | operands => .error (.operandCount "CL:" 2 operands.length)

def readField : List String → Except Flaw Record
  | [human, mapped] => do
    let h ← readMember human none
    let m ← readMember mapped none
    return ofField h m
  | operands => .error (.operandCount "FD:" 2 operands.length)

/-- A strict reader wants both descriptors valid before it looks at the operands. -/
def readMethod (strict : Bool) : List String → Except Flaw Record
  | [human, humanDescriptor, mapped, mappedDescriptor] => do
    if strict then
      checkDescriptor humanDescriptor
      checkDescriptor mappedDescriptor
    let h ← readMember human (some humanDescriptor)
    let m ← readMember mapped (some mappedDescriptor)
    return ofMethod h m
  | operands => .error (.operandCount "MD:" 4 operands.length)

def ofWords (strict : Bool) : List String → Except Flaw Record
  | [] => .error .blank
  | tag :: operands =>
    if tag = "CL:" then readClass operands
    else if tag = "FD:" then readField operands
    else if tag = "MD:" then readMethod strict operands
    else .ok (other tag)

def display : Record → String
  | ofClass human mapped => human ++ " -> " ++ mapped
  | ofField human mapped | ofMethod human mapped => human.display ++ " -> " ++ mapped.display
  | other tag => tag

end Record
end JvmSymbols
