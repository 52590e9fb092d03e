import JvmSymbols.ClassName

/-! What the two spellings keep of a class name, and which names a descriptor can hold. -/
namespace JvmSymbols
namespace ClassName

section OneForAnother

-- Each spelling writes one character for another one and keeps the rest.
variable {a b c : Char} {cs : List Char}

theorem mem_map_ite_iff :
    c ∈ cs.map (fun x => if x = a then b else x) ↔ (c ∈ cs ∧ c ≠ a) ∨ (a ∈ cs ∧ c = b) := by
  rw [List.mem_map]
  constructor
  · rintro ⟨x, hx, rfl⟩
    by_cases hxa : x = a
    · subst hxa
      exact .inr ⟨hx, if_pos rfl⟩
    · rw [if_neg hxa]
      exact .inl ⟨hx, hxa⟩
  · rintro (⟨hc, hca⟩ | ⟨ha, rfl⟩)
    · exact ⟨c, hc, if_neg hca⟩
    · exact ⟨a, ha, if_pos rfl⟩

theorem map_ite_eq_self (h : a ∉ cs) : cs.map (fun x => if x = a then b else x) = cs := by
  calc cs.map (fun x => if x = a then b else x)
      = cs.map id := by
        refine List.map_congr_left fun x hx => if_neg ?_
        rintro rfl
        exact h hx
    _ = cs := List.map_id _

end OneForAnother

variable {name : String} {c : Char}

theorem mem_toInternal_iff :
    c ∈ (toInternal name).toList ↔ (c ∈ name.toList ∧ c ≠ '.') ∨ ('.' ∈ name.toList ∧ c = '/') := by
  rw [toInternal, String.toList_map]
  exact mem_map_ite_iff

theorem mem_toBinary_iff :
    c ∈ (toBinary name).toList ↔ (c ∈ name.toList ∧ c ≠ '/') ∨ ('/' ∈ name.toList ∧ c = '.') := by
  rw [toBinary, String.toList_map]
  exact mem_map_ite_iff

theorem toInternal_eq_self (h : '.' ∉ name.toList) : toInternal name = name := by
  rw [← String.toList_inj, toInternal, String.toList_map]
  exact map_ite_eq_self h

theorem toBinary_eq_self (h : '/' ∉ name.toList) : toBinary name = name := by
  rw [← String.toList_inj, toBinary, String.toList_map]
  exact map_ite_eq_self h

theorem map_toBinary_eq_self {names : List String} (h : ∀ name ∈ names, '/' ∉ name.toList) :
    names.map toBinary = names := by
  calc names.map toBinary
      = names.map id := List.map_congr_left fun name hname => toBinary_eq_self (h name hname)
    _ = names := List.map_id _

theorem toInternal_ne_empty (h : name ≠ "") : toInternal name ≠ "" := by
  intro hi
  have hchars := congrArg String.toList hi
  exact h (by simpa [toInternal] using hchars)

theorem toBinary_ne_empty (h : name ≠ "") : toBinary name ≠ "" := by
  intro hb
  have hchars := congrArg String.toList hb
  exact h (by simpa [toBinary] using hchars)

theorem slash_notMem_toBinary (name : String) : '/' ∉ (toBinary name).toList := by
  simp [mem_toBinary_iff]

theorem dot_notMem_toInternal (name : String) : '.' ∉ (toInternal name).toList := by
  simp [mem_toInternal_iff]

/-- The name can stand in a descriptor: it is not empty, and no semicolon ends it early. -/
structure IsHoldable (name : String) : Prop where
  ne_empty : name ≠ ""
  semicolon : ';' ∉ name.toList

instance : DecidablePred IsHoldable := fun name =>
  decidable_of_iff (name ≠ "" ∧ ';' ∉ name.toList) ⟨fun h => ⟨h.1, h.2⟩, fun h => ⟨h.1, h.2⟩⟩

theorem IsHoldable.toInternal (h : IsHoldable name) : IsHoldable (toInternal name) := by
  refine ⟨toInternal_ne_empty h.ne_empty, ?_⟩
  simp [mem_toInternal_iff, h.semicolon]

end ClassName
end JvmSymbols
