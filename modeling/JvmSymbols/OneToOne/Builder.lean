import JvmSymbols.Index
import JvmSymbols.OneToOne

/-! One-to-one tables while they are filled. A builder keeps an index for each direction and has to
write both; its type does not tie one to the other. -/
namespace JvmSymbols
namespace OneToOne

structure Builder (α β : Type) where
  forward : Index α β
  inverse : Index β α

namespace Builder

variable {α β : Type}

def empty : Builder α β := ⟨.empty, .empty⟩

def size (b : Builder α β) : Nat := b.forward.size

def isEmpty (b : Builder α β) : Bool := b.forward.entries.isEmpty

def get? [DecidableEq α] (b : Builder α β) (key : α) : Option β := b.forward.get? key

def keyOf? [DecidableEq β] (b : Builder α β) (value : β) : Option α := b.inverse.get? value

variable [DecidableEq α] [DecidableEq β]

/-- Two builders are compared by their forward indexes alone. -/
instance : BEq (Builder α β) where
  beq b c := b.forward == c.forward

/-- Adds a pair in both directions. A key that is present is reported before a value that is, and a pair
that is refused is written nowhere. -/
def insert (b : Builder α β) (key : α) (value : β) : Except Clash Unit × Builder α β :=
  if (b.get? key).isSome then (.error .key, b)
  else if (b.keyOf? value).isSome then (.error .value, b)
  else (.ok (), ⟨b.forward.put key value, b.inverse.put value key⟩)

def run (b : Builder α β) : List (α × β) → List (Except Clash Unit) × Builder α β
  | [] => ([], b)
  | (key, value) :: rest =>
    let (outcome, next) := b.insert key value
    let (outcomes, last) := next.run rest
    (outcome :: outcomes, last)

end Builder
end OneToOne
end JvmSymbols
