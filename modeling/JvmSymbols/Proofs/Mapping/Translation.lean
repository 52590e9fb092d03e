import JvmSymbols.Proofs.Descriptor.Inverse
import JvmSymbols.Proofs.Mapping.RoundTrip
import JvmSymbols.Proofs.Mapping.TwoWay

/-! Descriptors translated by the class table. A dictionary has binary names and a descriptor has internal
ones, so each name is looked up in the one spelling and written in the other. The way back leads to the
descriptor exactly if it leads to each of its names. -/
namespace JvmSymbols

open ClassName (IsHoldable toBinary toInternal)
open Descriptor (orSame rename)

/-- The name stands on its own side of an entry, or on the other side of none. -/
def Returnable (Entry : String → String → Prop) (name : String) : Prop :=
  (∃ other, Entry name other) ∨ ¬ ∃ other, Entry other name

/-- Descriptors with internal names only are translated by `toOther`, and brought back where the entries
let each name return. -/
structure Translates (there back : String → Except DescriptorError String) (toOther : String → String)
    (Entry : String → String → Prop) : Prop where
  ofType : ∀ s t, '.' ∉ s.toList → JType.parse s = .ok t →
    ∃ e, there s = .ok e ∧
      JType.parse e = .ok (t.mapNames fun name => toInternal (toOther (toBinary name))) ∧
      (back e = .ok s ↔ ∀ name ∈ t.names, Returnable Entry (toBinary name))
  ofMethod : ∀ s m, '.' ∉ s.toList → MethodType.parse s = .ok m →
    ∃ e, there s = .ok e ∧
      MethodType.parse e = .ok (m.mapNames fun name => toInternal (toOther (toBinary name))) ∧
      (back e = .ok s ↔ ∀ name ∈ m.names, Returnable Entry (toBinary name))

namespace OneToOne

/-- The internal name that a table of binary names has for an internal name. -/
def internalName? (t : OneToOne String String) (name : String) : Option String :=
  (t.get? (toBinary name)).map toInternal

/-- The table is one of classes: its names are binary names that a descriptor can hold. -/
structure OfClasses (t : OneToOne String String) : Prop where
  holdable : ∀ a b, (a, b) ∈ t.pairs → IsHoldable a ∧ IsHoldable b
  slash : ∀ a b, (a, b) ∈ t.pairs → '/' ∉ a.toList ∧ '/' ∉ b.toList

variable {t : OneToOne String String} {name : String}

theorem OfClasses.swap (h : t.OfClasses) : t.swap.OfClasses where
  holdable b a hpair := (h.holdable a b (mem_pairs_swap.1 hpair)).symm
  slash b a hpair := (h.slash a b (mem_pairs_swap.1 hpair)).symm

theorem OfClasses.slash_notMem_getD (h : t.OfClasses) (hname : '/' ∉ name.toList) :
    '/' ∉ ((t.get? name).getD name).toList := by
  cases hget : t.get? name with
  | none => exact hname
  | some b => exact (h.slash name b (get?_eq_some_iff.1 hget)).2

theorem OfClasses.isHoldable_orSame (h : t.OfClasses) (hname : IsHoldable name) :
    IsHoldable (orSame t.internalName? name) := by
  apply Descriptor.isHoldable_orSame hname
  intro other hother
  obtain ⟨b, hget, rfl⟩ := Option.map_eq_some_iff.1 hother
  exact (h.holdable _ b (get?_eq_some_iff.1 hget)).2.toInternal

/-- A name without dots is translated as a binary name is, between two changes of its spelling. -/
theorem orSame_internalName? (hname : '.' ∉ name.toList) :
    orSame t.internalName? name = toInternal ((t.get? (toBinary name)).getD (toBinary name)) := by
  rw [orSame, internalName?]
  cases t.get? (toBinary name) with
  | some b => rfl
  | none =>
    rw [Option.map_none, Option.getD_none, Option.getD_none, ClassName.toInternal_toBinary,
      ClassName.toInternal_eq_self hname]

theorem OfClasses.orSame_orSame_eq_iff (h : t.OfClasses) (hname : '.' ∉ name.toList) :
    orSame t.swap.internalName? (orSame t.internalName? name) = name ↔
      Returnable (fun a b => (a, b) ∈ t.pairs) (toBinary name) := by
  -- What is looked up on the way back is the value that was found, because no slash stands in it.
  have hslash := ClassName.slash_notMem_toBinary name
  have hthere := h.slash_notMem_getD hslash
  have hback := h.swap.slash_notMem_getD hthere
  rw [orSame_internalName? hname, orSame_internalName? (ClassName.dot_notMem_toInternal _),
    ClassName.toBinary_toInternal, ClassName.toBinary_eq_self hthere, Returnable,
    ← keyOf?_getD_eq_iff, keyOf?_eq_get?_swap]
  constructor
  · intro hsame
    rw [← ClassName.toBinary_eq_self hback, ← ClassName.toBinary_toInternal, hsame]
  · intro hsame
    rw [hsame, ClassName.toInternal_toBinary, ClassName.toInternal_eq_self hname]

theorem OfClasses.exists_rename (h : t.OfClasses) {τ : Type} (k : Descriptor.Kind τ) {s : String} {u : τ}
    (hdot : '.' ∉ s.toList) (hparse : k.parse s = .ok u) :
    ∃ e, rename t.internalName? s = .ok e ∧
      k.parse e = .ok (k.mapNames
        (fun name => toInternal ((t.get? (toBinary name)).getD (toBinary name))) u) ∧
      (rename t.swap.internalName? e = .ok s ↔
        ∀ name ∈ k.names u, Returnable (fun a b => (a, b) ∈ t.pairs) (toBinary name)) := by
  have hnames : ∀ name ∈ k.names u, '.' ∉ name.toList := fun name hname hmem =>
    hdot (k.subset hparse name hname hmem)
  have hthere : ∀ name ∈ k.names u, IsHoldable (orSame t.internalName? name) := fun name hname =>
    h.isHoldable_orSame (k.isHoldable hparse name hname)
  obtain ⟨e, he, hread, hback⟩ := k.rename_back hparse hthere fun name hname =>
    h.swap.isHoldable_orSame (hthere name hname)
  refine ⟨e, he, ?_, ?_⟩
  · rw [hread, k.mapNames_congr fun name hname => orSame_internalName? (hnames name hname)]
  · rw [hback]
    exact forall₂_congr fun name hname => h.orSame_orSame_eq_iff (hnames name hname)

theorem OfClasses.translates {Entry : String → String → Prop} (h : t.OfClasses)
    (hentry : ∀ a b, (a, b) ∈ t.pairs ↔ Entry a b) :
    Translates (rename t.internalName?) (rename t.swap.internalName?)
      (fun name => (t.get? name).getD name) Entry := by
  obtain rfl : Entry = fun a b => (a, b) ∈ t.pairs := funext₂ fun a b => propext (hentry a b).symm
  constructor
  · intro s u hdot hparse
    exact h.exists_rename JType.descriptorKind hdot hparse
  · intro s m hdot hparse
    exact h.exists_rename MethodType.descriptorKind hdot hparse

end OneToOne

theorem Record.isWord_of_lineWords {bytes : List UInt8} {words : List String}
    (h : lineWords bytes = some words) : ∀ w ∈ words, Text.IsWord w := by
  obtain ⟨text, _, rfl⟩ := Option.map_eq_some_iff.1 h
  exact fun w hw => Text.isWord_of_mem_words hw

namespace Dictionary

open Record

variable {strict : Bool} {bytes : List UInt8} {d : Dictionary}

theorem ofClasses_classes (h : parse strict bytes = .ok d)
    (hsemicolon : ∀ l ∈ Text.byteLines bytes, ∀ human mapped, ClassLine l human mapped →
      ';' ∉ human.toList ∧ ';' ∉ mapped.toList) : d.classes.OfClasses := by
  constructor
  · intro a b hpair
    obtain ⟨l, hl, hline⟩ := (mem_classes_iff_exists_line h a b).1 hpair
    obtain ⟨ha, hb⟩ := hsemicolon l hl a b hline
    obtain ⟨human, mapped, hwords, rfl, rfl⟩ := hline
    have hword := isWord_of_lineWords hwords
    exact ⟨⟨ClassName.toBinary_ne_empty (hword human (by simp)).ne_empty, ha⟩,
      ⟨ClassName.toBinary_ne_empty (hword mapped (by simp)).ne_empty, hb⟩⟩
  · intro a b hpair
    obtain ⟨_, _, human, mapped, _, rfl, rfl⟩ := (mem_classes_iff_exists_line h a b).1 hpair
    exact ⟨ClassName.slash_notMem_toBinary human, ClassName.slash_notMem_toBinary mapped⟩

theorem toHumanDescriptor_eq (d : Dictionary) :
    d.toHumanDescriptor = rename d.classes.swap.internalName? := by
  funext s
  simp only [toHumanDescriptor, humanClass?, OneToOne.keyOf?_eq_get?_swap]
  rfl

/-- If no class line has a semicolon in a name, descriptors with internal names are translated by the class
table in both directions. -/
theorem parse_translates (h : parse strict bytes = .ok d)
    (hsemicolon : ∀ l ∈ Text.byteLines bytes, ∀ human mapped, ClassLine l human mapped →
      ';' ∉ human.toList ∧ ';' ∉ mapped.toList) :
    Translates d.toMappedDescriptor d.toHumanDescriptor d.toMappedClass
      (fun human mapped => ∃ l ∈ Text.byteLines bytes, ClassLine l human mapped) ∧
    Translates d.toHumanDescriptor d.toMappedDescriptor d.toHumanClass
      (fun mapped human => ∃ l ∈ Text.byteLines bytes, ClassLine l human mapped) := by
  have hclasses := ofClasses_classes h hsemicolon
  have hlines := mem_classes_iff_exists_line h
  have hmapped : d.toMappedDescriptor = rename d.classes.internalName? := rfl
  have hhuman : d.toHumanClass = fun name => (d.classes.swap.get? name).getD name := by
    funext name
    rw [← OneToOne.keyOf?_eq_get?_swap]
    rfl
  rw [toHumanDescriptor_eq, hmapped, hhuman]
  constructor
  · exact hclasses.translates hlines
  · have hentry (mapped human : String) : (mapped, human) ∈ d.classes.swap.pairs ↔
        ∃ l ∈ Text.byteLines bytes, ClassLine l human mapped :=
      OneToOne.mem_pairs_swap.trans (hlines human mapped)
    have hswap := hclasses.swap.translates hentry
    rwa [OneToOne.swap_swap] at hswap

/-- Two lines that make a chain of three names: a descriptor with the first two comes back, and one with the
last of them does not. -/
def chainText : String := "CL: p/A x/B\nCL: x/B q/C$1\n"

theorem semicolon_notMem_chainText :
    ∀ l ∈ Text.byteLines (Text.encode chainText), ∀ human mapped, ClassLine l human mapped →
      ';' ∉ human.toList ∧ ';' ∉ mapped.toList := by
  rintro l hl human mapped ⟨h, m, hline, rfl, rfl⟩
  have hwords : (Text.byteLines (Text.encode chainText)).map lineWords =
      [some ["CL:", "p/A", "x/B"], some ["CL:", "x/B", "q/C$1"]] := by decide +kernel
  have hmem := List.mem_map_of_mem (f := lineWords) hl
  rw [hwords, hline] at hmem
  simp only [List.mem_cons, Option.some.injEq, List.cons.injEq, true_and, and_true, List.not_mem_nil,
    or_false] at hmem
  rcases hmem with ⟨rfl, rfl⟩ | ⟨rfl, rfl⟩ <;> decide +kernel

theorem parse_translates_chainText :
    ∃ d, parse true (Text.encode chainText) = .ok d ∧
      (∃ e, d.toMappedDescriptor "(Lp/A;[Lx/B;)V" = .ok e ∧
        MethodType.parse e = .ok ⟨[.object "x/B", .array (.object "q/C$1")], .primitive .void⟩ ∧
        d.toHumanDescriptor e = .ok "(Lp/A;[Lx/B;)V") ∧
      ∃ e, d.toMappedDescriptor "Lq/C$1;" = .ok e ∧ d.toHumanDescriptor e ≠ .ok "Lq/C$1;" := by
  obtain ⟨d, hparse, hnames⟩ : ∃ d, parse true (Text.encode chainText) = .ok d ∧
      (d.mappedClass? "p.A", d.mappedClass? "x.B", d.mappedClass? "q.C$1") =
        (some "x.B", some "q.C$1", none) := Except.map_eq_ok_iff.1 (by decide +kernel)
  simp only [Prod.mk.injEq] at hnames
  obtain ⟨hA, hB, hC⟩ := hnames
  have hlineA := (mappedClass?_eq_some_iff_exists_line hparse).1 hA
  have hlineB := (mappedClass?_eq_some_iff_exists_line hparse).1 hB
  obtain ⟨hmapped, _⟩ := parse_translates hparse semicolon_notMem_chainText
  obtain ⟨e, he, hreadBack, hback⟩ := hmapped.ofMethod "(Lp/A;[Lx/B;)V"
    ⟨[.object "p/A", .array (.object "x/B")], .primitive .void⟩ (by decide)
    (MethodType.parse_eq_ok_iff.2 ⟨by decide, by decide⟩)
  obtain ⟨e', he', _, hback'⟩ := hmapped.ofType "Lq/C$1;" (.object "q/C$1") (by decide)
    (JType.parse_eq_ok_iff.2 ⟨by decide, by decide⟩)
  have hbinary : toBinary "p/A" = "p.A" ∧ toBinary "x/B" = "x.B" ∧ toBinary "q/C$1" = "q.C$1" := by
    decide +kernel
  have hinternal : toInternal "x.B" = "x/B" ∧ toInternal "q.C$1" = "q/C$1" := by decide +kernel
  refine ⟨d, hparse, ⟨e, he, ?_, ?_⟩, e', he', ?_⟩
  · simpa [MethodType.mapNames, JType.mapNames, toMappedClass, hbinary, hinternal, hA, hB]
      using hreadBack
  · rw [hback]
    simp only [MethodType.names, List.flatMap_cons, List.flatMap_nil, JType.names, List.append_nil,
      List.singleton_append, List.forall_mem_cons, hbinary]
    exact ⟨.inl ⟨_, hlineA⟩, .inl ⟨_, hlineB⟩, by simp⟩
  · rw [Ne, hback']
    simp only [JType.names, List.forall_mem_singleton, hbinary]
    rintro (⟨mapped, hline⟩ | hnone)
    · cases hC.symm.trans ((mappedClass?_eq_some_iff_exists_line hparse).2 hline)
    · exact hnone ⟨_, hlineB⟩

end Dictionary
end JvmSymbols
