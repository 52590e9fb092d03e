import JvmSymbols.Text.Lines
import JvmSymbols.Text.Split
import JvmSymbols.Text.Alphanumeric
import JvmSymbols.Number.Numeral
import JvmSymbols.Logging.Event
import JvmSymbols.Settings.Basic

/-! Filters of log events. A filter is a list of directives, each a level for the targets that begin
with a given text; of the directives that apply to an event the most specific decides. -/
namespace JvmSymbols

namespace Level

/-- The level that a word names, in capital or small letters, or by its rank. -/
def ofText? (text : String) : Option Level :=
  match all.find? (fun l => l.name = text.toLower) with
  | some l => some l
  | none => (Numeral.unsigned64? text.toList).bind fun n => all.find? (fun l => l.rank = n)

end Level

/-- A level for the targets that begin with `target`, or for all targets. -/
structure Directive where
  target : Option String
  level : Level
  deriving DecidableEq, Repr

namespace Directive

def opens (c : Char) : Bool := Text.isAlphanumeric c || c = '-' || c = ':' || c = '_'

/-- The directive that a piece of text spells: `target=level`, a level, or a target alone, which lets
everything through. Blanks belong to the word beside them, so that no level has any. A piece that
begins with a blank is a target and takes no level. -/
def ofPiece? (piece : List Char) : Option Directive :=
  if (piece.dropWhile Text.isBlank).head?.any opens then
    match Text.splitFirst '=' piece with
    | some (target, level) =>
      if piece.head?.any Text.isBlank then none
      else if level = [] then some ⟨some (String.ofList target), .trace⟩
      else (Level.ofText? (String.ofList level)).map fun l => ⟨some (String.ofList target), l⟩
    | none =>
      match Level.ofText? (String.ofList piece) with
      | some l => some ⟨none, l⟩
      | none => some ⟨some (String.ofList piece), .trace⟩
  else none

def appliesTo (d : Directive) (target : String) : Bool :=
  match d.target with
  | none => true
  | some t => t.toList.isPrefixOf target.toList

def weight (d : Directive) : Nat :=
  match d.target with
  | none => 0
  | some t => t.length + 1

end Directive

structure Filter where
  directives : List Directive
  deriving DecidableEq, Repr

namespace Filter

def pieces (text : String) : List (List Char) :=
  (text.toList.splitOn ',').filter (fun piece => !piece.isEmpty)

/-- The filter that a text spells. One faulty piece spoils it; without pieces nothing is let
through. -/
def parse? (text : String) : Option Filter :=
  ((pieces text).mapM Directive.ofPiece?).map Filter.mk

def maxLevel (f : Filter) : Level := f.directives.foldl (fun l d => l.max d.level) .off

/-- The directive that decides on a target: the most specific one that applies, and of several with
the same target the last. -/
def deciding (f : Filter) (target : String) : Option Directive :=
  f.directives.foldl (fun best d =>
    if d.appliesTo target && best.all (fun b => b.weight ≤ d.weight) then some d else best) none

def enables (f : Filter) (e : Event) : Bool :=
  (f.deciding e.target).any fun d => e.level.rank ≤ d.level.rank

end Filter

/-- A kind of filters and how texts spell them: the filter of a text, the filter that lets nothing
through, a filter with one more level for all targets, and the most verbose level of a filter. -/
structure FilterLanguage (φ : Type) where
  parse? : String → Option φ
  silent : φ
  add : φ → Level → φ
  maxLevel : φ → Level

namespace Filter

def language : FilterLanguage Filter where
  parse? := parse?
  silent := ⟨[]⟩
  add f l := ⟨f.directives ++ [⟨none, l⟩]⟩
  maxLevel := maxLevel

end Filter

namespace LogSettings

/-- A level's name without blanks around it and in small letters; `warning` means `warn`, and nothing
means `info`. Other texts keep their letters. -/
def normalizeLevel (text : String) : String :=
  let trimmed := Text.trim text
  let lower := trimmed.toLower
  if lower = "" then "info"
  else if lower = "warning" then "warn"
  else if lower ∈ ["trace", "debug", "info", "warn", "error"] then lower
  else trimmed

/-- What the environment asks for. Blanks around it do not count, and nothing else asks for nothing. -/
def asked? (environment : Option String) : Option String :=
  (environment.map Text.trim).filter fun text => text ≠ ""

/-- The texts that may give the filter, in the order in which they are tried. -/
def filterTexts (s : LogSettings) (environment : Option String) : List String :=
  let level := normalizeLevel s.level
  match asked? environment with
  | some text => [level ++ "," ++ text, text, level]
  | none => [level]

/-- The filter of the settings in a language, with the directives of the environment after their own.
Where no text gives a filter, `info` is the level. -/
def filterIn {φ : Type} (s : LogSettings) (language : FilterLanguage φ) (environment : Option String) :
    φ :=
  ((s.filterTexts environment).findSome? language.parse?).getD (language.add language.silent .info)

def filter (s : LogSettings) (environment : Option String) : Filter :=
  s.filterIn Filter.language environment

end LogSettings
end JvmSymbols
