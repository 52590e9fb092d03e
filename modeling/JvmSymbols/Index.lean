/-! Finite maps that are written one entry at a time. -/
namespace JvmSymbols

/-- A finite map. A key has one entry at most. -/
structure Index (α β : Type) where
  entries : List (α × β)
  keys_nodup : (entries.map Prod.fst).Nodup

namespace Index

variable {α β : Type}

def empty : Index α β := ⟨[], List.Pairwise.nil⟩

def size (m : Index α β) : Nat := m.entries.length

variable [DecidableEq α]

def get? (m : Index α β) (a : α) : Option β := (m.entries.find? (fun p => p.1 = a)).map Prod.snd

def put (m : Index α β) (a : α) (b : β) : Index α β where
  entries := (a, b) :: m.entries.filter (fun p => p.1 ≠ a)
  keys_nodup := by
    rw [List.map_cons, List.nodup_cons]
    refine ⟨by simp, ?_⟩
    exact m.keys_nodup.sublist (List.filter_sublist.map Prod.fst)

theorem get?_eq_none_iff {m : Index α β} {a : α} :
    m.get? a = none ↔ ∀ p ∈ m.entries, p.1 ≠ a := by
  simp [get?]

theorem entries_put {m : Index α β} {a : α} {b : β} (h : m.get? a = none) :
    (m.put a b).entries = (a, b) :: m.entries := by
  have hkept : m.entries.filter (fun p => p.1 ≠ a) = m.entries := by
    rw [List.filter_eq_self]
    simpa using get?_eq_none_iff.1 h
  exact congrArg (List.cons (a, b)) hkept

theorem get?_put (m : Index α β) (a a' : α) (b : β) :
    (m.put a b).get? a' = if a = a' then some b else m.get? a' := by
  by_cases h : a = a'
  · simp [get?, put, h]
  · have hkept : (m.entries.filter fun p => p.1 ≠ a).find? (fun p => p.1 = a') =
        m.entries.find? fun p => p.1 = a' := by
      rw [List.find?_filter]
      congr 1
      funext p
      by_cases hp : p.1 = a' <;> simp [hp, Ne.symm h]
    simp only [get?, put, List.find?_cons, h, decide_false, hkept, if_false]

/-- Two maps are equal when they have the same size and each entry of one is found in the other. -/
instance [DecidableEq β] : BEq (Index α β) where
  beq m n := m.size = n.size && m.entries.all fun p => n.get? p.1 = some p.2

end Index
end JvmSymbols
