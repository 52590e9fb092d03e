import JvmSymbols.Proofs.Mapping.Acceptance

/-! Reading a dictionary in both directions. Its look-ups are inverse to each other; translating a name
forth and back fails to return it only where the name stands on the other side of the table alone. -/
namespace JvmSymbols

/-- Look-ups and translations between the two sides of one table, with what `Entry` says is in it. -/
structure TwoWay {α : Type} (mapped? human? : α → Option α) (toMapped toHuman : α → α)
    (Entry : α → α → Prop) : Prop where
  lookups_inverse : ∀ h x, mapped? h = some x ↔ human? x = some h
  human_returns_iff : ∀ h, toHuman (toMapped h) = h ↔ (∃ x, Entry h x) ∨ ¬ ∃ g, Entry g h
  mapped_returns_iff : ∀ x, toMapped (toHuman x) = x ↔ (∃ h, Entry h x) ∨ ¬ ∃ y, Entry x y

namespace OneToOne

variable {α : Type} [DecidableEq α]

/-- A name that is no key is left alone on the way forth, and taken to another name on the way back if it is
a value. -/
theorem keyOf?_getD_eq_iff (t : OneToOne α α) (a : α) :
    (t.keyOf? ((t.get? a).getD a)).getD ((t.get? a).getD a) = a ↔
      (∃ b, (a, b) ∈ t.pairs) ∨ ¬ ∃ b, (b, a) ∈ t.pairs := by
  cases hget : t.get? a with
  | some b =>
    have hpair : (a, b) ∈ t.pairs := get?_eq_some_iff.1 hget
    have hback : t.keyOf? b = some a := keyOf?_eq_some_iff.2 hpair
    rw [Option.getD_some, hback, Option.getD_some]
    exact iff_of_true rfl (.inl ⟨b, hpair⟩)
  | none =>
    have hnokey : ¬ ∃ b, (a, b) ∈ t.pairs := get?_eq_none_iff.1 hget
    rw [Option.getD_none]
    cases hback : t.keyOf? a with
    | none => exact iff_of_true rfl (.inr (keyOf?_eq_none_iff.1 hback))
    | some b =>
      have hpair : (b, a) ∈ t.pairs := keyOf?_eq_some_iff.1 hback
      refine iff_of_false ?_ ?_
      · intro hba
        rw [Option.getD_some] at hba
        exact hnokey ⟨a, hba ▸ hpair⟩
      · rintro (h | h)
        · exact hnokey h
        · exact h ⟨b, hpair⟩

theorem twoWay {t : OneToOne α α} {Entry : α → α → Prop}
    (h : ∀ a b, (a, b) ∈ t.pairs ↔ Entry a b) :
    TwoWay t.get? t.keyOf? (fun a => (t.get? a).getD a) (fun b => (t.keyOf? b).getD b) Entry where
  lookups_inverse a b := by rw [get?_eq_some_iff, keyOf?_eq_some_iff]
  human_returns_iff a := by
    simp only [← h]
    exact t.keyOf?_getD_eq_iff a
  mapped_returns_iff b := by
    have hswap := t.swap.keyOf?_getD_eq_iff b
    simp only [mem_pairs_swap, keyOf?_eq_get?_swap, swap_swap] at hswap
    simp only [← h, keyOf?_eq_get?_swap]
    exact hswap

end OneToOne

namespace Dictionary

open Record

variable {strict : Bool} {bytes : List UInt8} {d : Dictionary}

theorem mem_classes_iff_exists_line (h : parse strict bytes = .ok d) (human mapped : String) :
    (human, mapped) ∈ d.classes.pairs ↔ ∃ l ∈ Text.byteLines bytes, ClassLine l human mapped := by
  obtain ⟨rs, hrs, hg⟩ := parse_eq_ok_iff.1 h
  rw [hg.mem_classes_iff]
  exact mem_iff_exists_line hrs fun _ _ hs => hs.classLine_iff

theorem mappedClass?_eq_some_iff_exists_line (h : parse strict bytes = .ok d) {human mapped : String} :
    d.mappedClass? human = some mapped ↔ ∃ l ∈ Text.byteLines bytes, ClassLine l human mapped :=
  OneToOne.get?_eq_some_iff.trans (mem_classes_iff_exists_line h human mapped)

theorem mem_fields_iff_exists_line (h : parse strict bytes = .ok d) (human mapped : Member) :
    (human, mapped) ∈ d.fields.pairs ↔ ∃ l ∈ Text.byteLines bytes, FieldLine l human mapped := by
  obtain ⟨rs, hrs, hg⟩ := parse_eq_ok_iff.1 h
  rw [hg.mem_fields_iff]
  exact mem_iff_exists_line hrs fun _ _ hs => hs.fieldLine_iff

theorem mem_methods_iff_exists_line (h : parse strict bytes = .ok d) (human mapped : Member) :
    (human, mapped) ∈ d.methods.pairs ↔ ∃ l ∈ Text.byteLines bytes, MethodLine l human mapped := by
  obtain ⟨rs, hrs, hg⟩ := parse_eq_ok_iff.1 h
  rw [hg.mem_methods_iff]
  exact mem_iff_exists_line hrs fun _ _ hs => hs.methodLine_iff

/-- A dictionary that was read can be read both ways. In each table the two look-ups are inverse to each
other, and a name comes back from the other side exactly if a line has it on its own side or no line
has it on the other. -/
theorem parse_twoWay (h : parse strict bytes = .ok d) :
    TwoWay d.mappedClass? d.humanClass? d.toMappedClass d.toHumanClass
      (fun human mapped => ∃ l ∈ Text.byteLines bytes, ClassLine l human mapped) ∧
    TwoWay d.mappedField? d.humanField? d.toMappedField d.toHumanField
      (fun human mapped => ∃ l ∈ Text.byteLines bytes, FieldLine l human mapped) ∧
    TwoWay d.mappedMethod? d.humanMethod? d.toMappedMethod d.toHumanMethod
      (fun human mapped => ∃ l ∈ Text.byteLines bytes, MethodLine l human mapped) :=
  ⟨OneToOne.twoWay (mem_classes_iff_exists_line h), OneToOne.twoWay (mem_fields_iff_exists_line h),
    OneToOne.twoWay (mem_methods_iff_exists_line h)⟩

/-- Two lines that share a name across their sides: what begins the chain comes back, what ends it is taken
for the name before it. -/
theorem parse_twoWay_chain :
    ∃ d, parse true (Text.encode "CL: a b\nCL: b c\n") = .ok d ∧ d.humanClass? "b" = some "a" ∧
      d.toHumanClass (d.toMappedClass "a") = "a" ∧ d.toHumanClass (d.toMappedClass "c") ≠ "c" := by
  obtain ⟨d, hparse, hnames⟩ : ∃ d, parse true (Text.encode "CL: a b\nCL: b c\n") = .ok d ∧
      (d.mappedClass? "a", d.mappedClass? "b", d.mappedClass? "c") = (some "b", some "c", none) :=
    Except.map_eq_ok_iff.1 (by decide +kernel)
  simp only [Prod.mk.injEq] at hnames
  obtain ⟨ha, hb, hc⟩ := hnames
  obtain ⟨hclasses, _⟩ := parse_twoWay hparse
  have hlineA := (mappedClass?_eq_some_iff_exists_line hparse).1 ha
  have hlineB := (mappedClass?_eq_some_iff_exists_line hparse).1 hb
  refine ⟨d, hparse, (hclasses.lookups_inverse _ _).1 ha, ?_, ?_⟩
  · exact (hclasses.human_returns_iff _).2 (.inl ⟨_, hlineA⟩)
  · rw [Ne, hclasses.human_returns_iff]
    rintro (⟨mapped, hline⟩ | hnone)
    · cases hc.symm.trans ((mappedClass?_eq_some_iff_exists_line hparse).2 hline)
    · exact hnone ⟨_, hlineB⟩

end Dictionary
end JvmSymbols
