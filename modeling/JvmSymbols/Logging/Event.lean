/-! Log events and computations that emit them. Nothing here knows who listens: an event is data, and
a computation carries the events it has emitted beside its value. -/
namespace JvmSymbols

/-- How much is let through; `off` lets nothing through and is no event's own level. -/
inductive Level
  | off | error | warn | info | debug | trace
  deriving DecidableEq, Repr

namespace Level

def rank : Level → Nat
  | off => 0
  | error => 1
  | warn => 2
  | info => 3
  | debug => 4
  | trace => 5

def name : Level → String
  | off => "off"
  | error => "error"
  | warn => "warn"
  | info => "info"
  | debug => "debug"
  | trace => "trace"

def all : List Level := [off, error, warn, info, debug, trace]

theorem rank_injective {l m : Level} (h : l.rank = m.rank) : l = m := by
  cases l <;> cases m <;> first | rfl | cases h

def max (l m : Level) : Level := if l.rank < m.rank then m else l

end Level

/-- A value of an event's field. A text is shown as it is, a quoted text with its special characters
escaped where lines are plain text. -/
inductive FieldValue
  | text (s : String)
  | quoted (s : String)
  | count (n : Nat)
  deriving DecidableEq, Repr

structure Event where
  level : Level
  target : String
  message : String
  fields : List (String × FieldValue)
  deriving DecidableEq, Repr

/-- A value and the events emitted on the way to it, oldest first. -/
structure Logged (α : Type) where
  value : α
  events : List Event

namespace Logged

instance : Monad Logged where
  pure a := ⟨a, []⟩
  bind x f := ⟨(f x.value).value, x.events ++ (f x.value).events⟩

def emit (e : Event) : Logged Unit := ⟨(), [e]⟩

@[simp] theorem value_bind {α β : Type} (x : Logged α) (f : α → Logged β) :
    (x >>= f).value = (f x.value).value := rfl

end Logged
end JvmSymbols
