import JvmSymbols.Text.Quoted

/-! Finite one-to-one tables. No key and no value stands in two pairs, so a table answers look-ups from
either side; an insertion that would break this is refused and leaves nothing behind. -/
namespace JvmSymbols

structure OneToOne (α β : Type) where
  pairs : List (α × β)
  keys_nodup : (pairs.map Prod.fst).Nodup
  values_nodup : (pairs.map Prod.snd).Nodup

/-- The side on which an insertion meets a pair of the table. -/
inductive Clash
  | key
  | value
  deriving DecidableEq, Repr

namespace OneToOne

variable {α β : Type}

def empty : OneToOne α β := ⟨[], by simp, by simp⟩

def size (t : OneToOne α β) : Nat := t.pairs.length

def isEmpty (t : OneToOne α β) : Bool := t.pairs.isEmpty

def swap (t : OneToOne α β) : OneToOne β α where
  pairs := t.pairs.map Prod.swap
  keys_nodup := by simpa [Function.comp_def] using t.values_nodup
  values_nodup := by simpa [Function.comp_def] using t.keys_nodup

@[simp] theorem swap_swap (t : OneToOne α β) : t.swap.swap = t := by
  simp [swap]

@[simp] theorem mem_pairs_swap {t : OneToOne α β} {a : α} {b : β} :
    (b, a) ∈ t.swap.pairs ↔ (a, b) ∈ t.pairs := by
  simp only [swap, List.mem_map, Prod.exists, Prod.swap_prod_mk, Prod.mk.injEq]
  exact ⟨fun ⟨_, _, h, hb, ha⟩ => hb ▸ ha ▸ h, fun h => ⟨a, b, h, rfl, rfl⟩⟩

theorem value_unique {t : OneToOne α β} {a : α} {b b' : β} (h : (a, b) ∈ t.pairs)
    (h' : (a, b') ∈ t.pairs) : b = b' := by
  obtain ⟨pairs, hk, hv⟩ := t
  induction pairs with
  | nil => simp at h
  | cons p ps ih =>
    simp only [List.map_cons, List.nodup_cons, List.mem_map, not_exists, not_and] at hk hv
    simp only [List.mem_cons] at h h'
    rcases h with rfl | h <;> rcases h' with h' | h'
    · cases h'
      rfl
    · exact absurd rfl (hk.1 (a, b') h')
    · subst h'
      exact absurd rfl (hk.1 (a, b) h)
    · exact ih hk.2 hv.2 h h'

def get? [DecidableEq α] (t : OneToOne α β) (a : α) : Option β := (t.pairs.find? (fun p => p.1 = a)).map Prod.snd

def keyOf? [DecidableEq β] (t : OneToOne α β) (b : β) : Option α := (t.pairs.find? (fun p => p.2 = b)).map Prod.fst

theorem get?_eq_some_iff [DecidableEq α] {t : OneToOne α β} {a : α} {b : β} :
    t.get? a = some b ↔ (a, b) ∈ t.pairs := by
  constructor
  · intro h
    simp only [get?, Option.map_eq_some_iff, Prod.exists] at h
    obtain ⟨a', b', h, rfl⟩ := h
    have ha := List.find?_some h
    simp only [decide_eq_true_eq] at ha
    exact ha ▸ List.mem_of_find?_eq_some h
  · intro h
    have hs : (t.pairs.find? (fun p => p.1 = a)).isSome := by
      rw [List.find?_isSome]
      exact ⟨_, h, by simp⟩
    obtain ⟨⟨a', b'⟩, hp⟩ := Option.isSome_iff_exists.1 hs
    have ha := List.find?_some hp
    simp only [decide_eq_true_eq] at ha
    subst ha
    simp [get?, hp, value_unique (List.mem_of_find?_eq_some hp) h]

theorem keyOf?_eq_get?_swap [DecidableEq β] (t : OneToOne α β) (b : β) : t.keyOf? b = t.swap.get? b := by
  simp [keyOf?, get?, swap, List.find?_map, Function.comp_def]

theorem keyOf?_eq_some_iff [DecidableEq β] {t : OneToOne α β} {a : α} {b : β} :
    t.keyOf? b = some a ↔ (a, b) ∈ t.pairs := by
  rw [keyOf?_eq_get?_swap, get?_eq_some_iff, mem_pairs_swap]

/-- Adds a pair; a key that is present is reported before a value that is. -/
def insert [DecidableEq α] [DecidableEq β] (t : OneToOne α β) (a : α) (b : β) :
    Except Clash (OneToOne α β) :=
  if ha : a ∈ t.pairs.map Prod.fst then .error .key
  else if hb : b ∈ t.pairs.map Prod.snd then .error .value
  else .ok ⟨(a, b) :: t.pairs, by simpa using ⟨by simpa using ha, t.keys_nodup⟩,
    by simpa using ⟨by simpa using hb, t.values_nodup⟩⟩

/-- Two tables are equal when they have the same size and each pair of one is found in the other. -/
instance [DecidableEq α] [DecidableEq β] : BEq (OneToOne α β) where
  beq s t := s.size = t.size && s.pairs.all fun p => t.get? p.1 = some p.2

def display (t : OneToOne String String) : String :=
  "\x7b" ++ ", ".intercalate (t.pairs.map fun (a, b) => Text.quote a ++ ": " ++ Text.quote b) ++ "\x7d"

end OneToOne
end JvmSymbols
