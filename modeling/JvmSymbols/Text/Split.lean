/-! Cutting a list at the first or at the last place where a separator stands. The separator belongs
to neither half. -/
namespace JvmSymbols
namespace Text

variable {α : Type} [DecidableEq α]

/-- What stands before and after the first `sep`. -/
def splitFirst (sep : α) : List α → Option (List α × List α)
  | [] => none
  | x :: xs => if x = sep then some ([], xs) else (splitFirst sep xs).map fun (a, b) => (x :: a, b)

theorem splitFirst_eq_some_iff {sep : α} {xs a b : List α} :
    splitFirst sep xs = some (a, b) ↔ xs = a ++ sep :: b ∧ sep ∉ a := by
  induction xs generalizing a with
  | nil => simp [splitFirst]
  | cons x xs ih =>
    by_cases hx : x = sep
    · subst hx
      cases a <;> simp +contextual [splitFirst, eq_comm]
    · cases a with
      | nil => simp [splitFirst, hx]
      | cons y a =>
        simp only [splitFirst, hx, if_false, Option.map_eq_some_iff, Prod.exists, Prod.mk.injEq,
          List.cons.injEq, List.cons_append, List.mem_cons, not_or]
        constructor
        · rintro ⟨p, q, h, ⟨rfl, rfl⟩, rfl⟩
          have := ih.1 h
          exact ⟨⟨rfl, this.1⟩, Ne.symm hx, this.2⟩
        · rintro ⟨⟨rfl, h⟩, _, hm⟩
          exact ⟨a, b, ih.2 ⟨h, hm⟩, ⟨rfl, rfl⟩, rfl⟩

theorem splitFirst_append {sep : α} {a b : List α} (h : sep ∉ a) :
    splitFirst sep (a ++ sep :: b) = some (a, b) := splitFirst_eq_some_iff.2 ⟨rfl, h⟩

theorem splitFirst_eq_none_iff {sep : α} {xs : List α} : splitFirst sep xs = none ↔ sep ∉ xs := by
  induction xs with
  | nil => simp [splitFirst]
  | cons x xs ih =>
    by_cases hx : x = sep
    · simp [splitFirst, hx]
    · simp [splitFirst, hx, ih, Ne.symm hx]

theorem splitFirst_length_lt {sep : α} {xs a b : List α} (h : splitFirst sep xs = some (a, b)) :
    b.length < xs.length := by
  rw [(splitFirst_eq_some_iff.1 h).1, List.length_append, List.length_cons]
  omega

def splitLast (sep : α) (xs : List α) : Option (List α × List α) :=
  (splitFirst sep xs.reverse).map fun (after, before) => (before.reverse, after.reverse)

theorem splitLast_eq_some_iff {sep : α} {xs a b : List α} :
    splitLast sep xs = some (a, b) ↔ xs = a ++ sep :: b ∧ sep ∉ b := by
  simp only [splitLast, Option.map_eq_some_iff, Prod.exists, Prod.mk.injEq, splitFirst_eq_some_iff]
  constructor
  · rintro ⟨p, q, ⟨h, hp⟩, rfl, rfl⟩
    refine ⟨?_, by simpa using hp⟩
    have := congrArg List.reverse h
    simpa using this
  · rintro ⟨rfl, h⟩
    exact ⟨b.reverse, a.reverse, ⟨by simp, by simpa using h⟩, by simp, by simp⟩

theorem splitLast_eq_none_iff {sep : α} {xs : List α} : splitLast sep xs = none ↔ sep ∉ xs := by
  simp [splitLast, splitFirst_eq_none_iff]

end Text
end JvmSymbols
