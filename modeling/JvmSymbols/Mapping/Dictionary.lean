import JvmSymbols.OneToOne
import JvmSymbols.Member
import JvmSymbols.Descriptor.Renaming

/-! Dictionaries between the human names of classes, fields and methods and their mapped names. All
three tables are one-to-one, so a dictionary can be read in either direction. In a translation a name that
the dictionary does not have stands for itself. -/
namespace JvmSymbols

structure Dictionary where
  classes : OneToOne String String
  fields : OneToOne Member Member
  methods : OneToOne Member Member

inductive Table
  | classes
  | fields
  | methods
  deriving DecidableEq, Repr

namespace Table

def noun : Table → String
  | classes => "class"
  | fields => "field"
  | methods => "method"

end Table

namespace Dictionary

def empty : Dictionary := ⟨.empty, .empty, .empty⟩

def isEmpty (d : Dictionary) : Bool := d.classes.isEmpty && d.fields.isEmpty && d.methods.isEmpty

def swap (d : Dictionary) : Dictionary := ⟨d.classes.swap, d.fields.swap, d.methods.swap⟩

instance : BEq Dictionary where
  beq d e := d.classes == e.classes && d.fields == e.fields && d.methods == e.methods

def mappedClass? (d : Dictionary) (human : String) : Option String := d.classes.get? human

def humanClass? (d : Dictionary) (mapped : String) : Option String := d.classes.keyOf? mapped

def mappedField? (d : Dictionary) (human : Member) : Option Member := d.fields.get? human

def humanField? (d : Dictionary) (mapped : Member) : Option Member := d.fields.keyOf? mapped

def mappedMethod? (d : Dictionary) (human : Member) : Option Member := d.methods.get? human

def humanMethod? (d : Dictionary) (mapped : Member) : Option Member := d.methods.keyOf? mapped

def toMappedClass (d : Dictionary) (human : String) : String := (d.mappedClass? human).getD human

def toHumanClass (d : Dictionary) (mapped : String) : String := (d.humanClass? mapped).getD mapped

def toMappedField (d : Dictionary) (human : Member) : Member := (d.mappedField? human).getD human

def toHumanField (d : Dictionary) (mapped : Member) : Member := (d.humanField? mapped).getD mapped

def toMappedMethod (d : Dictionary) (human : Member) : Member := (d.mappedMethod? human).getD human

def toHumanMethod (d : Dictionary) (mapped : Member) : Member := (d.humanMethod? mapped).getD mapped

def toMappedDescriptor (d : Dictionary) (descriptor : String) : Except DescriptorError String :=
  Descriptor.rename
    (fun name => (d.mappedClass? (ClassName.toBinary name)).map ClassName.toInternal) descriptor

def toHumanDescriptor (d : Dictionary) (descriptor : String) : Except DescriptorError String :=
  Descriptor.rename
    (fun name => (d.humanClass? (ClassName.toBinary name)).map ClassName.toInternal) descriptor

end Dictionary
end JvmSymbols
