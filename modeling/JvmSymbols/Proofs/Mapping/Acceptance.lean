import JvmSymbols.Proofs.Mapping.Reading

/-! Which mapping files are read, and what their dictionaries hold. Both are stated on the words of the
lines: a file is read exactly if each of its lines is well formed and no two lines of one kind share
a name on a side, and then the tables hold what the lines say. -/
namespace JvmSymbols

def Member.IsOperand (operand : String) : Prop := ∃ owner name, Cut operand owner name

theorem Member.exists_spelled_iff {operand : String} {descriptor : Option String} :
    (∃ m, Spelled operand descriptor m) ↔ IsOperand operand := by
  constructor
  · rintro ⟨_, owner, name, hc, _⟩
    exact ⟨owner, name, hc⟩
  · rintro ⟨owner, name, hc⟩
    exact ⟨_, owner, name, hc, rfl⟩

namespace Record

def ClassLine (bytes : List UInt8) (human mapped : String) : Prop :=
  ∃ h m, lineWords bytes = some ["CL:", h, m] ∧ human = ClassName.toBinary h ∧
    mapped = ClassName.toBinary m

def FieldLine (bytes : List UInt8) (human mapped : Member) : Prop :=
  ∃ h m, lineWords bytes = some ["FD:", h, m] ∧ Member.Spelled h none human ∧
    Member.Spelled m none mapped

def MethodLine (bytes : List UInt8) (human mapped : Member) : Prop :=
  ∃ h hd m md, lineWords bytes = some ["MD:", h, hd, m, md] ∧ Member.Spelled h (some hd) human ∧
    Member.Spelled m (some md) mapped

def hasOtherTag (bytes : List UInt8) : Bool :=
  match lineWords bytes with
  | some (tag :: _) => tag ∉ tags
  | _ => false

structure WellFormed (strict : Bool) (tag : String) (operands : List String) : Prop where
  classArity : tag = "CL:" → operands.length = 2
  fieldArity : tag = "FD:" → operands.length = 2
  methodArity : tag = "MD:" → operands.length = 4
  fieldOperands : ∀ h m, tag = "FD:" → operands = [h, m] →
    Member.IsOperand h ∧ Member.IsOperand m
  methodOperands : ∀ h hd m md, tag = "MD:" → operands = [h, hd, m, md] →
    Member.IsOperand h ∧ Member.IsOperand m
  methodDescriptors : strict = true → ∀ h hd m md, tag = "MD:" → operands = [h, hd, m, md] →
    MethodType.Accepts hd ∧ MethodType.Accepts md

theorem Spelled.wellFormed {strict : Bool} {tag : String} {operands : List String} {r : Record}
    (h : Spelled strict (tag :: operands) r) : WellFormed strict tag operands := by
  generalize hw : tag :: operands = words at h
  cases h with
  | ofClass human mapped =>
    cases hw
    exact ⟨by simp, by simp, by simp, by simp, by simp, by simp⟩
  | ofField hh hm =>
    cases hw
    refine ⟨by simp, by simp, by simp, ?_, by simp, by simp⟩
    rintro h m - he
    cases he
    exact ⟨Member.exists_spelled_iff.1 ⟨_, hh⟩, Member.exists_spelled_iff.1 ⟨_, hm⟩⟩
  | ofMethod valid hh hm =>
    cases hw
    refine ⟨by simp, by simp, by simp, by simp, ?_, ?_⟩
    · rintro h hd m md - he
      cases he
      exact ⟨Member.exists_spelled_iff.1 ⟨_, hh⟩, Member.exists_spelled_iff.1 ⟨_, hm⟩⟩
    · rintro hstrict h hd m md - he
      cases he
      exact valid hstrict
  | other operands htag =>
    cases hw
    have hc : tag ≠ "CL:" := fun h => htag (h ▸ by decide)
    have hf : tag ≠ "FD:" := fun h => htag (h ▸ by decide)
    have hm : tag ≠ "MD:" := fun h => htag (h ▸ by decide)
    exact ⟨by simp [hc], by simp [hf], by simp [hm], by simp [hf], by simp [hm], by simp [hm]⟩

theorem WellFormed.exists_spelled {strict : Bool} {tag : String} {operands : List String}
    (h : WellFormed strict tag operands) : ∃ r, Spelled strict (tag :: operands) r := by
  by_cases hc : tag = "CL:"
  · subst hc
    obtain ⟨human, mapped, rfl⟩ := List.length_eq_two.1 (h.classArity rfl)
    exact ⟨_, .ofClass human mapped⟩
  by_cases hf : tag = "FD:"
  · subst hf
    obtain ⟨human, mapped, rfl⟩ := List.length_eq_two.1 (h.fieldArity rfl)
    obtain ⟨hh, hm⟩ := h.fieldOperands _ _ rfl rfl
    obtain ⟨a, ha⟩ := Member.exists_spelled_iff.2 hh
    obtain ⟨b, hb⟩ := Member.exists_spelled_iff.2 hm
    exact ⟨_, .ofField ha hb⟩
  by_cases hm : tag = "MD:"
  · subst hm
    have harity := h.methodArity rfl
    match operands, harity with
    | [human, humanDescriptor, mapped, mappedDescriptor], _ =>
      obtain ⟨hh, hm⟩ := h.methodOperands _ _ _ _ rfl rfl
      obtain ⟨a, ha⟩ := Member.exists_spelled_iff.2 hh
      obtain ⟨b, hb⟩ := Member.exists_spelled_iff.2 hm
      exact ⟨_, .ofMethod (fun hs => h.methodDescriptors hs _ _ _ _ rfl rfl) ha hb⟩
  exact ⟨_, .other operands (by simp [tags, hc, hf, hm])⟩

variable {strict : Bool} {bytes : List UInt8} {r s : Record}

theorem exists_spelledOn_iff : (∃ r, SpelledOn strict bytes r) ↔
    ∃ tag operands, lineWords bytes = some (tag :: operands) ∧ WellFormed strict tag operands := by
  constructor
  · rintro ⟨r, words, hw, h⟩
    cases words with
    | nil => cases h
    | cons tag operands => exact ⟨tag, operands, hw, h.wellFormed⟩
  · rintro ⟨tag, operands, hw, h⟩
    obtain ⟨r, hr⟩ := h.exists_spelled
    exact ⟨r, _, hw, hr⟩

theorem SpelledOn.unique (hr : SpelledOn strict bytes r) (hs : SpelledOn strict bytes s) : r = s := by
  obtain ⟨words, hw, hr⟩ := hr
  obtain ⟨words', hw', hs⟩ := hs
  cases hw.symm.trans hw'
  have he := (ofWords_eq_ok_iff.2 hr).symm.trans (ofWords_eq_ok_iff.2 hs)
  exact Except.ok.inj he

theorem SpelledOn.classLine_iff (h : SpelledOn strict bytes r) {human mapped : String} :
    ClassLine bytes human mapped ↔ r = ofClass human mapped := by
  constructor
  · rintro ⟨a, b, hw, rfl, rfl⟩
    exact h.unique ⟨_, hw, .ofClass a b⟩
  · rintro rfl
    obtain ⟨words, hw, h⟩ := h
    cases h
    exact ⟨_, _, hw, rfl, rfl⟩

theorem SpelledOn.fieldLine_iff (h : SpelledOn strict bytes r) {human mapped : Member} :
    FieldLine bytes human mapped ↔ r = ofField human mapped := by
  constructor
  · rintro ⟨a, b, hw, ha, hb⟩
    exact h.unique ⟨_, hw, .ofField ha hb⟩
  · rintro rfl
    obtain ⟨words, hw, h⟩ := h
    cases h with
    | ofField ha hb => exact ⟨_, _, hw, ha, hb⟩

theorem SpelledOn.methodLine_iff (h : SpelledOn strict bytes r) {human mapped : Member} :
    MethodLine bytes human mapped ↔ r = ofMethod human mapped := by
  constructor
  · rintro ⟨a, da, b, db, hw, ha, hb⟩
    -- Whether the descriptors are valid is known from `r`, which the same words spell.
    have hvalid : strict = true → MethodType.Accepts da ∧ MethodType.Accepts db := by
      obtain ⟨words, hw', h⟩ := h
      cases hw'.symm.trans hw
      exact fun hs => h.wellFormed.methodDescriptors hs _ _ _ _ rfl rfl
    exact h.unique ⟨_, hw, .ofMethod hvalid ha hb⟩
  · rintro rfl
    obtain ⟨words, hw, h⟩ := h
    cases h with
    | ofMethod _ ha hb => exact ⟨_, _, _, _, hw, ha, hb⟩

def isOther : Record → Bool
  | other _ => true
  | _ => false

theorem SpelledOn.hasOtherTag_eq (h : SpelledOn strict bytes r) : hasOtherTag bytes = r.isOther := by
  obtain ⟨words, hw, h⟩ := h
  cases h with
  | ofClass human mapped => simp [hasOtherTag, hw, isOther, tags]
  | ofField hh hm => simp [hasOtherTag, hw, isOther, tags]
  | ofMethod valid hh hm => simp [hasOtherTag, hw, isOther, tags]
  | other operands htag => simp [hasOtherTag, hw, isOther, htag]

theorem length_eq_of_kinds (rs : List Record) :
    (rs.filterMap classPair?).length + (rs.filterMap fieldPair?).length +
      (rs.filterMap methodPair?).length + rs.countP isOther = rs.length := by
  induction rs with
  | nil => rfl
  | cons r rs ih =>
    cases r <;> simp [List.filterMap_cons, List.countP_cons, classPair?, fieldPair?, methodPair?,
      isOther] <;> omega

/-- The condition that two lines of one kind share a name on neither side, told of their records. -/
theorem pairwise_lines_iff {α : Type} {Line : List UInt8 → α → α → Prop}
    {pair? : Record → Option (α × α)} {lines : List (List UInt8)} {rs : List Record}
    (h : List.Forall₂ (SpelledOn strict) lines rs)
    (hline : ∀ bytes r, SpelledOn strict bytes r →
      ∀ human mapped, Line bytes human mapped ↔ pair? r = some (human, mapped)) :
    lines.Pairwise (fun l l' => ∀ human mapped human' mapped', Line l human mapped →
      Line l' human' mapped' → human ≠ human' ∧ mapped ≠ mapped') ↔
    (rs.filterMap pair?).Pairwise (fun p q => p.1 ≠ q.1 ∧ p.2 ≠ q.2) := by
  rw [List.pairwise_filterMap]
  refine pairwise_iff_of_forall₂ h fun l r l' r' hr hr' => ?_
  simp only [hline l r hr, hline l' r' hr', Prod.forall]
  constructor
  · intro H a b hab a' b' hab'
    exact H a b a' b' hab hab'
  · intro H a b a' b' hab hab'
    exact H a b hab a' b' hab'

end Record

namespace Dictionary

open Record

structure Grammatical (strict : Bool) (lines : List (List UInt8)) : Prop where
  wellFormed : ∀ l ∈ lines, ∃ tag operands,
    lineWords l = some (tag :: operands) ∧ WellFormed strict tag operands
  classes_distinct : lines.Pairwise fun l l' => ∀ human mapped human' mapped',
    ClassLine l human mapped → ClassLine l' human' mapped' → human ≠ human' ∧ mapped ≠ mapped'
  fields_distinct : lines.Pairwise fun l l' => ∀ human mapped human' mapped',
    FieldLine l human mapped → FieldLine l' human' mapped' → human ≠ human' ∧ mapped ≠ mapped'
  methods_distinct : lines.Pairwise fun l l' => ∀ human mapped human' mapped',
    MethodLine l human mapped → MethodLine l' human' mapped' → human ≠ human' ∧ mapped ≠ mapped'

theorem exists_grown_iff {rs : List Record} :
    (∃ d, Grown empty rs d) ↔
      (rs.filterMap classPair?).Pairwise (fun p q => p.1 ≠ q.1 ∧ p.2 ≠ q.2) ∧
      (rs.filterMap fieldPair?).Pairwise (fun p q => p.1 ≠ q.1 ∧ p.2 ≠ q.2) ∧
      (rs.filterMap methodPair?).Pairwise (fun p q => p.1 ≠ q.1 ∧ p.2 ≠ q.2) := by
  simp only [← OneToOne.exists_pairs_eq_reverse_iff, Grown.empty_iff]
  constructor
  · rintro ⟨d, hc, hf, hm⟩
    exact ⟨⟨d.classes, hc⟩, ⟨d.fields, hf⟩, ⟨d.methods, hm⟩⟩
  · rintro ⟨⟨classes, hc⟩, ⟨fields, hf⟩, ⟨methods, hm⟩⟩
    exact ⟨⟨classes, fields, methods⟩, hc, hf, hm⟩

section Lines

variable {strict : Bool} {lines : List (List UInt8)} {rs : List Record} {d : Dictionary}

/-- The lines are grammatical exactly if some dictionary has grown by the records they spell. -/
theorem grammatical_iff_exists_grown :
    Grammatical strict lines ↔
      ∃ rs, List.Forall₂ (SpelledOn strict) lines rs ∧ ∃ d, Grown empty rs d := by
  have distinct {rs : List Record} (h : List.Forall₂ (SpelledOn strict) lines rs) :=
    and_congr
      (pairwise_lines_iff h fun _ _ hr _ _ => hr.classLine_iff.trans classPair?_eq_some_iff.symm)
      (and_congr
        (pairwise_lines_iff h fun _ _ hr _ _ => hr.fieldLine_iff.trans fieldPair?_eq_some_iff.symm)
        (pairwise_lines_iff h fun _ _ hr _ _ =>
          hr.methodLine_iff.trans methodPair?_eq_some_iff.symm))
  simp only [exists_grown_iff]
  constructor
  · intro h
    obtain ⟨rs, hrs⟩ := exists_forall₂_iff.2 fun l hl => exists_spelledOn_iff.2 (h.wellFormed l hl)
    exact ⟨rs, hrs, (distinct hrs).1 ⟨h.classes_distinct, h.fields_distinct, h.methods_distinct⟩⟩
  · rintro ⟨rs, hrs, hd⟩
    obtain ⟨hc, hf, hm⟩ := (distinct hrs).2 hd
    refine ⟨fun l hl => ?_, hc, hf, hm⟩
    obtain ⟨r, _, hr⟩ := exists_mem_right_of_forall₂ hrs l hl
    exact exists_spelledOn_iff.1 ⟨r, hr⟩

theorem mem_iff_exists_line {P : List UInt8 → Prop} {r : Record}
    (h : List.Forall₂ (SpelledOn strict) lines rs)
    (hP : ∀ l s, SpelledOn strict l s → (P l ↔ s = r)) : r ∈ rs ↔ ∃ l ∈ lines, P l := by
  constructor
  · intro hr
    obtain ⟨l, hl, hlr⟩ := exists_mem_left_of_forall₂ h r hr
    exact ⟨l, hl, (hP l r hlr).2 rfl⟩
  · rintro ⟨l, hl, hPl⟩
    obtain ⟨s, hs, hls⟩ := exists_mem_right_of_forall₂ h l hl
    exact (hP l s hls).1 hPl ▸ hs

theorem size_add_countP_eq (h : List.Forall₂ (SpelledOn strict) lines rs) (hg : Grown empty rs d) :
    d.classes.size + d.fields.size + d.methods.size + lines.countP hasOtherTag = lines.length := by
  obtain ⟨classes, fields, methods⟩ := Grown.empty_iff.1 hg
  have hc : d.classes.size = (rs.filterMap classPair?).length := by
    rw [OneToOne.size, classes, List.length_reverse]
  have hf : d.fields.size = (rs.filterMap fieldPair?).length := by
    rw [OneToOne.size, fields, List.length_reverse]
  have hm : d.methods.size = (rs.filterMap methodPair?).length := by
    rw [OneToOne.size, methods, List.length_reverse]
  rw [hc, hf, hm, countP_eq_of_forall₂ h fun l r hr => hr.hasOtherTag_eq, h.length_eq]
  exact length_eq_of_kinds rs

end Lines

/-- A mapping file is read exactly if it is grammatical. The tables of its dictionary then hold what
its lines say and nothing else, and each line is counted once. -/
theorem parse_ok_iff_grammatical (strict : Bool) (bytes : List UInt8) :
    ((∃ d, parse strict bytes = .ok d) ↔ Grammatical strict (Text.byteLines bytes)) ∧
    ∀ d, parse strict bytes = .ok d →
      (∀ human mapped, d.mappedClass? human = some mapped ↔
        ∃ l ∈ Text.byteLines bytes, ClassLine l human mapped) ∧
      (∀ human mapped, d.mappedField? human = some mapped ↔
        ∃ l ∈ Text.byteLines bytes, FieldLine l human mapped) ∧
      (∀ human mapped, d.mappedMethod? human = some mapped ↔
        ∃ l ∈ Text.byteLines bytes, MethodLine l human mapped) ∧
      d.classes.size + d.fields.size + d.methods.size +
        (Text.byteLines bytes).countP hasOtherTag = (Text.byteLines bytes).length := by
  constructor
  · simp only [grammatical_iff_exists_grown, parse_eq_ok_iff]
    constructor
    · rintro ⟨d, rs, hrs, hg⟩
      exact ⟨rs, hrs, d, hg⟩
    · rintro ⟨rs, hrs, d, hg⟩
      exact ⟨d, rs, hrs, hg⟩
  · intro d h
    obtain ⟨rs, hrs, hg⟩ := parse_eq_ok_iff.1 h
    refine ⟨fun human mapped => ?_, fun human mapped => ?_, fun human mapped => ?_,
      size_add_countP_eq hrs hg⟩
    · rw [mappedClass?, OneToOne.get?_eq_some_iff, hg.mem_classes_iff]
      exact mem_iff_exists_line hrs fun _ _ hs => hs.classLine_iff
    · rw [mappedField?, OneToOne.get?_eq_some_iff, hg.mem_fields_iff]
      exact mem_iff_exists_line hrs fun _ _ hs => hs.fieldLine_iff
    · rw [mappedMethod?, OneToOne.get?_eq_some_iff, hg.mem_methods_iff]
      exact mem_iff_exists_line hrs fun _ _ hs => hs.methodLine_iff

theorem parse_ok_iff_grammatical_sample :
    Grammatical true (Text.byteLines (Text.encode sampleText)) ∧
      ∃ l ∈ Text.byteLines (Text.encode sampleText),
        FieldLine l ⟨"é.B", "wörld", none⟩ ⟨"x.Y", "field_2", none⟩ := by
  obtain ⟨d, hd, hfield⟩ := exists_parse_sampleText
  obtain ⟨hread, htables⟩ := parse_ok_iff_grammatical true (Text.encode sampleText)
  exact ⟨hread.1 ⟨d, hd⟩, ((htables d hd).2.1 _ _).1 hfield⟩

end Dictionary
end JvmSymbols
