import JvmSymbols.Text.Split
import JvmSymbols.Descriptor.Basic

/-! Renaming the classes that a descriptor mentions, without parsing it. A mention opens with the
next `L` and ends with the next semicolon; all other text is copied. -/
namespace JvmSymbols
namespace Descriptor

/-- A text cut into its class mentions: the text up to an `L`, the name after it, what follows the
semicolon. A text may end inside a mention. -/
inductive Mentions
  | plain (text : List Char)
  | unclosed (text : List Char)
  | mention (lead : List Char) (name : String) (rest : Mentions)
  deriving DecidableEq, Repr

def mentions (cs : List Char) : Mentions :=
  match _h : Text.splitFirst 'L' cs with
  | none => .plain cs
  | some (lead, after) =>
    match _h' : Text.splitFirst ';' after with
    | none => .unclosed cs
    | some (name, rest) => .mention lead (String.ofList name) (mentions rest)
termination_by cs.length
decreasing_by
  have := Text.splitFirst_length_lt _h
  have := Text.splitFirst_length_lt _h'
  omega

namespace Mentions

def names : Mentions → List String
  | plain _ | unclosed _ => []
  | mention _ name rest => name :: rest.names

def isClosed : Mentions → Bool
  | plain _ => true
  | unclosed _ => false
  | mention _ _ rest => rest.isClosed

def render (f : String → String) : Mentions → String
  | plain text | unclosed text => String.ofList text
  | mention lead name rest => String.ofList lead ++ "L" ++ f name ++ ";" ++ rest.render f

/-- Writes mentions with a replacement that has effects. It is asked for one name after the other; a name without
replacement is kept. -/
def renderM {μ : Type → Type} [Monad μ] (f : String → μ (Option String)) : Mentions → μ String
  | plain text | unclosed text => return String.ofList text
  | mention lead name rest => do
    let replacement ← f name
    let tail ← rest.renderM f
    return String.ofList lead ++ "L" ++ replacement.getD name ++ ";" ++ tail

end Mentions

def mentionedNames (descriptor : String) : List String := (mentions descriptor.toList).names

/-- Replaces every mentioned class name by what `f` gives for it and keeps a name without
replacement. -/
def rename (f : String → Option String) (descriptor : String) : Except DescriptorError String :=
  let ms := mentions descriptor.toList
  if ms.isClosed then .ok (ms.render fun name => (f name).getD name)
  else .error (.invalid descriptor)

/-- Renaming with a replacement that has effects. A text that ends inside a mention is refused after
the names before it have been looked up. -/
def renameM {μ : Type → Type} [Monad μ] (f : String → μ (Option String)) (descriptor : String) :
    μ (Except DescriptorError String) := do
  let ms := mentions descriptor.toList
  let text ← ms.renderM f
  return if ms.isClosed then .ok text else .error (.invalid descriptor)

/-- A replacement that notes the names it is asked for. -/
def noting (f : String → Option String) (name : String) : StateM (List String) (Option String) := do
  modify (· ++ [name])
  return f name

end Descriptor
end JvmSymbols
