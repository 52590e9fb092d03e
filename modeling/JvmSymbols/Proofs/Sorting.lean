import Mathlib.Order.Defs.LinearOrder

/-! Sorted lists, and sorted lists in which each run of one item is cut to its first. The items of the latter
increase, and they are the items that were there. -/
namespace JvmSymbols

variable {α : Type}

theorem eraseRepsBy_loop (r : α → α → Bool) (x : α) (xs seen : List α) :
    List.eraseRepsBy.loop r x xs seen = seen.reverse ++ List.eraseRepsBy.loop r x xs [] := by
  induction xs generalizing x seen with
  | nil => simp [List.eraseRepsBy.loop]
  | cons y ys ih =>
    rw [List.eraseRepsBy.loop, List.eraseRepsBy.loop]
    cases r x y with
    | true => exact ih x seen
    | false => simp only [ih y (x :: seen), ih y [x], List.reverse_cons, List.append_assoc,
        List.reverse_nil, List.nil_append]

theorem eraseReps_cons_cons [BEq α] (x y : α) (xs : List α) :
    (x :: y :: xs).eraseReps = if x == y then (x :: xs).eraseReps else x :: (y :: xs).eraseReps := by
  simp only [List.eraseReps, List.eraseRepsBy]
  rw [List.eraseRepsBy.loop]
  cases x == y with
  | true => rfl
  | false => exact eraseRepsBy_loop _ y xs [x]

theorem mem_eraseReps [BEq α] [LawfulBEq α] {z : α} {xs : List α} : z ∈ xs.eraseReps ↔ z ∈ xs := by
  cases xs with
  | nil => rfl
  | cons x xs =>
    induction xs generalizing x with
    | nil => rfl
    | cons y ys ih =>
      rw [eraseReps_cons_cons]
      by_cases hxy : x = y
      · subst hxy
        simp [ih]
      · simp [hxy, ih]

variable [Ord α]

theorem pairwise_mergeSort_on [Std.TransOrd α] {γ : Type} (key : γ → α) (xs : List γ) :
    (xs.mergeSort fun x y => (compare (key x) (key y)).isLE).Pairwise
      fun x y => (compare (key x) (key y)).isLE = true := by
  apply List.pairwise_mergeSort
  · intro x y z hxy hyz
    exact Std.TransOrd.isLE_trans hxy hyz
  · intro x y
    have hswap : compare (key y) (key x) = (compare (key x) (key y)).swap := Std.OrientedCmp.eq_swap
    rw [hswap]
    cases compare (key x) (key y) <;> rfl

theorem compare_eq_lt_of_ne [Std.LawfulEqOrd α] {x y : α} (hle : (compare x y).isLE = true)
    (hne : x ≠ y) : compare x y = .lt := by
  cases hcompare : compare x y with
  | lt => rfl
  | eq => exact absurd (Std.LawfulEqOrd.eq_of_compare hcompare) hne
  | gt =>
    rw [hcompare] at hle
    cases hle

variable [BEq α] [LawfulBEq α]

theorem mem_eraseReps_mergeSort {z : α} {xs : List α} :
    z ∈ (xs.mergeSort fun x y => (compare x y).isLE).eraseReps ↔ z ∈ xs := by
  rw [mem_eraseReps, List.mem_mergeSort]

variable [Std.TransOrd α] [Std.LawfulEqOrd α]

theorem pairwise_eraseReps {xs : List α} (h : xs.Pairwise fun x y => (compare x y).isLE = true) :
    xs.eraseReps.Pairwise fun x y => compare x y = .lt := by
  cases xs with
  | nil => exact .nil
  | cons x xs =>
    induction xs generalizing x with
    | nil => exact List.pairwise_singleton _ x
    | cons y ys ih =>
      obtain ⟨hx, hrest⟩ := List.pairwise_cons.1 h
      rw [eraseReps_cons_cons]
      by_cases hxy : x = y
      · subst hxy
        simpa using ih x hrest
      · -- What comes behind `y` is not below it, so it is above `x` as `y` is.
        have hlt : compare x y = .lt := compare_eq_lt_of_ne (hx y (by simp)) hxy
        have hbehind (z : α) (hz : z ∈ (y :: ys).eraseReps) : compare x z = .lt := by
          rcases List.mem_cons.1 (mem_eraseReps.1 hz) with rfl | hz
          · exact hlt
          · exact Std.TransCmp.lt_of_lt_of_isLE hlt ((List.pairwise_cons.1 hrest).1 z hz)
        simpa [hxy] using ⟨hbehind, ih y hrest⟩

/-- Sorting and cutting runs lists the items in order, each once. -/
theorem pairwise_eraseReps_mergeSort (xs : List α) :
    (xs.mergeSort fun x y => (compare x y).isLE).eraseReps.Pairwise fun x y => compare x y = .lt :=
  pairwise_eraseReps (pairwise_mergeSort_on id xs)

end JvmSymbols
