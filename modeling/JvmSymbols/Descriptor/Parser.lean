import JvmSymbols.Text.Split
import JvmSymbols.Descriptor.Basic

/-! Reading descriptors. A reader takes what it needs from the front of a text and returns the rest;
a class name runs to the first semicolon and is not empty. -/
namespace JvmSymbols

namespace JType

/-- Reads one field type. A refusal names the text at which the reader gives up. -/
def read : List Char → Except DescriptorError (JType × List Char)
  | [] => .error (.invalid "")
  | '[' :: cs => (read cs).map fun (t, rest) => (array t, rest)
  | 'L' :: cs =>
    match Text.splitFirst ';' cs with
    | some (c :: name, rest) => .ok (object (String.ofList (c :: name)), rest)
    | _ => .error (.invalid (String.ofList ('L' :: cs)))
  | c :: cs =>
    match Primitive.ofLetter c with
    | some kind => .ok (primitive kind, cs)
    | none => .error (.invalid (String.ofList (c :: cs)))

theorem read_length_lt {cs rest : List Char} {t : JType} (h : read cs = .ok (t, rest)) :
    rest.length < cs.length := by
  fun_induction read cs generalizing t rest with
  | case1 => cases h
  | case2 cs ih =>
    cases hread : read cs with
    | error e =>
      rw [hread] at h
      cases h
    | ok p =>
      rw [hread] at h
      cases h
      exact Nat.lt_succ_of_lt (ih hread)
  | case3 cs c name after hsplit =>
    cases h
    exact Nat.lt_succ_of_lt (Text.splitFirst_length_lt hsplit)
  | case4 => cases h
  | case5 c cs ha ho kind hkind =>
    cases h
    exact Nat.lt_succ_self _
  | case6 => cases h

/-- The type that a whole field descriptor spells. Only text behind the type makes the whole of it the one to be
reported. -/
def parse (descriptor : String) : Except DescriptorError JType :=
  match read descriptor.toList with
  | .ok (t, []) => .ok t
  | .ok _ => .error (.invalid descriptor)
  | .error e => .error e

end JType

namespace MethodType

def readParams (cs : List Char) : Option (List JType × List Char) :=
  if cs.head? = some ')' then some ([], cs.tail)
  else
    match _h : JType.read cs with
    | .ok (t, rest) => (readParams rest).map fun (ts, rest) => (t :: ts, rest)
    | .error _ => none
termination_by cs.length
decreasing_by exact JType.read_length_lt _h

/-- Reads the result of a method, the one place where `V` may stand. -/
def readResult : List Char → Option (JType × List Char)
  | 'V' :: rest => some (.primitive .void, rest)
  | cs => (JType.read cs).toOption

def read : List Char → Option (MethodType × List Char)
  | '(' :: cs => do
    let (params, cs) ← readParams cs
    let (result, rest) ← readResult cs
    return (⟨params, result⟩, rest)
  | _ => none

/-- The method type that a whole method descriptor spells. A refused text is reported whole. -/
def parse (descriptor : String) : Except DescriptorError MethodType :=
  match read descriptor.toList with
  | some (m, []) => .ok m
  | _ => .error (.invalid descriptor)

end MethodType
end JvmSymbols
