import JvmSymbols.Files.Path

/-! Settings of the program and their defaults. A path in a settings file is seen from the directory of the file. -/
namespace JvmSymbols

structure LogSettings where
  /-- A level or the directives of a filter. -/
  level : String := "info"
  json : Bool := false
  stderr : Bool := true
  file : Option String := none
  bufferLines : Nat := 1000
  deriving DecidableEq, Repr

structure MappingSettings where
  path : Option String := none
  /-- Whether both descriptors of a method record have to be valid. -/
  validateDescriptors : Bool := false
  deriving DecidableEq, Repr

structure Settings where
  logging : LogSettings := {}
  mappings : MappingSettings := {}
  deriving DecidableEq, Repr

namespace MappingSettings

def resolve (s : MappingSettings) (base : String) : MappingSettings :=
  { s with path := s.path.map (Path.join base) }

end MappingSettings

def Settings.resolveBeside (s : Settings) (path : String) : Settings :=
  match Path.parent? path with
  | none => s
  | some base => { s with mappings := s.mappings.resolve base }

end JvmSymbols
