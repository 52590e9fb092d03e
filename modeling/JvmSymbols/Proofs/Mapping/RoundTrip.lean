import JvmSymbols.Proofs.ClassName
import JvmSymbols.Proofs.Text.Bytes
import JvmSymbols.Proofs.Text.Words
import JvmSymbols.Proofs.OneToOne.Canonical
import JvmSymbols.Proofs.Mapping.Reading

/-! Written dictionaries are read back. A record that was read is written with words that spell it
again, lines and words are found where they were put, and no two pairs of a table clash, in whatever
order they come. -/
namespace JvmSymbols

namespace Text

theorem isWord_toInternal {w : String} (h : IsWord w) : IsWord (ClassName.toInternal w) := by
  constructor
  · exact ClassName.toInternal_ne_empty h.ne_empty
  · intro c hc
    rcases ClassName.mem_toInternal_iff.1 hc with ⟨hmem, _⟩ | ⟨_, rfl⟩
    · exact h.not_blank c hmem
    · decide

end Text

theorem Member.Spelled.operand {operand : String} {descriptor : Option String} {m : Member}
    (h : Spelled operand descriptor m) : Spelled m.operand descriptor m := by
  obtain ⟨owner, name, hc, rfl⟩ := h
  refine ⟨ClassName.toInternal owner, name, ⟨?_, ?_, hc.name_ne, hc.last⟩, ?_⟩
  · simp [Member.operand, ClassName.toInternal_toBinary]
  · exact ClassName.toInternal_ne_empty hc.owner_ne
  · rw [ClassName.toBinary_toInternal]

theorem Member.Spelled.isWord_operand {operand : String} {descriptor : Option String} {m : Member}
    (h : Spelled operand descriptor m) (hw : Text.IsWord operand) : Text.IsWord m.operand := by
  obtain ⟨owner, name, hc, rfl⟩ := h
  have howner : Text.IsWord owner := ⟨hc.owner_ne, fun c hmem =>
    hw.not_blank c (by simp [hc.operand_eq, hmem])⟩
  have hinternal := Text.isWord_toInternal howner
  simp only [Member.operand, ClassName.toInternal_toBinary]
  constructor
  · intro he
    have hchars := congrArg String.toList he
    simp at hchars
  · intro c hmem
    simp only [String.toList_append, List.mem_append] at hmem
    rcases hmem with (hmem | hmem) | hmem
    · exact hinternal.not_blank c hmem
    · have hslash : c = '/' := by simpa using hmem
      subst hslash
      decide
    · exact hw.not_blank c (by simp [hc.operand_eq, hmem])

theorem Member.Spelled.descriptor_eq {operand : String} {descriptor : Option String} {m : Member}
    (h : Spelled operand descriptor m) : m.descriptor = descriptor := by
  obtain ⟨_, _, _, rfl⟩ := h
  rfl

namespace Record

/-- The written words of the record are words and spell it. -/
structure Writable (strict : Bool) (r : Record) : Prop where
  spelled : Spelled strict r.toWords r
  isWord : ∀ w ∈ r.toWords, Text.IsWord w

theorem Spelled.writable {strict : Bool} {words : List String} {r : Record}
    (h : Spelled strict words r) (hw : ∀ w ∈ words, Text.IsWord w) : Writable strict r := by
  cases h with
  | ofClass human mapped =>
    have hspelled : Spelled strict _ _ :=
      .ofClass (ClassName.toInternal human) (ClassName.toInternal mapped)
    simp only [ClassName.toBinary_toInternal] at hspelled
    refine ⟨by simpa [toWords, ClassName.toInternal_toBinary] using hspelled, ?_⟩
    simp only [toWords, ClassName.toInternal_toBinary, List.forall_mem_cons]
    exact ⟨hw _ (by simp), Text.isWord_toInternal (hw _ (by simp)),
      Text.isWord_toInternal (hw _ (by simp)), by simp⟩
  | ofField hh hm =>
    refine ⟨.ofField hh.operand hm.operand, ?_⟩
    simp only [toWords, List.forall_mem_cons]
    exact ⟨hw _ (by simp), hh.isWord_operand (hw _ (by simp)), hm.isWord_operand (hw _ (by simp)),
      by simp⟩
  | ofMethod valid hh hm =>
    have hspelled := Spelled.ofMethod valid hh.operand hm.operand
    refine ⟨by simpa [toWords, hh.descriptor_eq, hm.descriptor_eq] using hspelled, ?_⟩
    simp only [toWords, hh.descriptor_eq, hm.descriptor_eq, Option.getD_some, List.forall_mem_cons]
    exact ⟨hw _ (by simp), hh.isWord_operand (hw _ (by simp)), hw _ (by simp),
      hm.isWord_operand (hw _ (by simp)), hw _ (by simp), by simp⟩
  | other operands htag =>
    refine ⟨.other [] htag, ?_⟩
    simpa [toWords] using hw _ List.mem_cons_self

theorem Writable.mono {strict : Bool} {r : Record} (h : Writable strict r) : Writable false r := by
  refine ⟨?_, h.isWord⟩
  have hspelled := h.spelled
  generalize r.toWords = words at hspelled
  cases hspelled with
  | ofClass human mapped => exact .ofClass human mapped
  | ofField hh hm => exact .ofField hh hm
  | ofMethod valid hh hm => exact .ofMethod (by simp) hh hm
  | other operands htag => exact .other operands htag

/-- A written line is read as the record that was written. -/
theorem Writable.spelledOn {strict : Bool} {r : Record} (h : Writable strict r) :
    SpelledOn strict (Text.encode r.line) r := by
  refine ⟨r.toWords, ?_, h.spelled⟩
  rw [lineWords, Text.decode_encode, Option.map_some, line, Text.words_intercalate h.isWord]

theorem Writable.notMem_line {strict : Bool} {r : Record} (h : Writable strict r) {c : Char}
    (hb : Text.isBlank c = true) (hc : c ≠ ' ') : c ∉ r.line.toList :=
  fun hmem => hc (Text.eq_space_of_mem_intercalate h.isWord hmem hb)

end Record

namespace Dictionary

/-- Two dictionaries that no look-up tells apart. -/
structure SameAnswers (d e : Dictionary) : Prop where
  mappedClass : ∀ name, d.mappedClass? name = e.mappedClass? name
  humanClass : ∀ name, d.humanClass? name = e.humanClass? name
  mappedField : ∀ m, d.mappedField? m = e.mappedField? m
  humanField : ∀ m, d.humanField? m = e.humanField? m
  mappedMethod : ∀ m, d.mappedMethod? m = e.mappedMethod? m
  humanMethod : ∀ m, d.humanMethod? m = e.humanMethod? m

theorem sameAnswers_of_perm {d e : Dictionary} (hc : d.classes.pairs.Perm e.classes.pairs)
    (hf : d.fields.pairs.Perm e.fields.pairs) (hm : d.methods.pairs.Perm e.methods.pairs) :
    SameAnswers d e where
  mappedClass := OneToOne.get?_eq_of_perm hc
  humanClass := OneToOne.keyOf?_eq_of_perm hc
  mappedField := OneToOne.get?_eq_of_perm hf
  humanField := OneToOne.keyOf?_eq_of_perm hf
  mappedMethod := OneToOne.get?_eq_of_perm hm
  humanMethod := OneToOne.keyOf?_eq_of_perm hm

theorem filterMap_classPair?_records (d : Dictionary) :
    d.records.filterMap Record.classPair? = d.classes.sorted := by
  simp [records, List.filterMap_append, List.filterMap_map, Function.comp_def, Record.classPair?]

theorem filterMap_fieldPair?_records (d : Dictionary) :
    d.records.filterMap Record.fieldPair? = d.fields.sorted := by
  simp [records, List.filterMap_append, List.filterMap_map, Function.comp_def, Record.fieldPair?]

theorem filterMap_methodPair?_records (d : Dictionary) :
    d.records.filterMap Record.methodPair? = d.methods.sorted := by
  simp [records, List.filterMap_append, List.filterMap_map, Function.comp_def, Record.methodPair?]

/-- The written records fill the empty dictionary with the pairs they were taken from. -/
theorem exists_grown_records (d : Dictionary) : ∃ e, Grown empty d.records e ∧ SameAnswers e d := by
  have perm {α β : Type} [Ord α] (t : OneToOne α β) : t.sorted.reverse.Perm t.pairs :=
    (List.reverse_perm _).trans t.perm_sorted
  obtain ⟨classes, hc⟩ := OneToOne.exists_pairs_perm (perm d.classes)
  obtain ⟨fields, hf⟩ := OneToOne.exists_pairs_perm (perm d.fields)
  obtain ⟨methods, hm⟩ := OneToOne.exists_pairs_perm (perm d.methods)
  refine ⟨⟨classes, fields, methods⟩, Grown.empty_iff.2 ⟨?_, ?_, ?_⟩, sameAnswers_of_perm ?_ ?_ ?_⟩
  · rw [filterMap_classPair?_records, hc]
  · rw [filterMap_fieldPair?_records, hf]
  · rw [filterMap_methodPair?_records, hm]
  · exact hc ▸ perm d.classes
  · exact hf ▸ perm d.fields
  · exact hm ▸ perm d.methods

theorem notMem_of_mem_lines {strict : Bool} {d : Dictionary} (h : ∀ r ∈ d.records, Record.Writable strict r)
    {c : Char} (hb : Text.isBlank c = true) (hc : c ≠ ' ') :
    ∀ l ∈ d.records.map Record.line, c ∉ l.toList := by
  intro l hl
  obtain ⟨r, hr, rfl⟩ := List.mem_map.1 hl
  exact (h r hr).notMem_line hb hc

theorem byteLines_toText {strict : Bool} {d : Dictionary}
    (h : ∀ r ∈ d.records, Record.Writable strict r) :
    Text.byteLines (Text.encode d.toText) = d.records.map (fun r => Text.encode r.line) := by
  have hfeed := notMem_of_mem_lines h (c := '\n') (by decide) (by decide)
  have hreturn := notMem_of_mem_lines h (c := '\r') (by decide) (by decide)
  have hlines := Text.byteLines_encode_join (d.records.map Record.line) hfeed hreturn
  simpa [toText, Function.comp_def] using hlines

/-- A dictionary all of whose records can be written is read back. -/
theorem exists_parse_toText {strict : Bool} {d : Dictionary}
    (h : ∀ r ∈ d.records, Record.Writable strict r) :
    ∃ e, parse strict (Text.encode d.toText) = .ok e ∧ SameAnswers e d := by
  obtain ⟨e, hgrown, hsame⟩ := exists_grown_records d
  refine ⟨e, parse_eq_ok_iff.2 ⟨d.records, ?_, hgrown⟩, hsame⟩
  rw [byteLines_toText h, List.forall₂_map_left_iff, List.forall₂_same]
  exact fun r hr => (h r hr).spelledOn

theorem mem_of_mem_records {d : Dictionary} {rs : List Record} (h : Grown empty rs d) {r : Record}
    (hr : r ∈ d.records) : r ∈ rs := by
  simp only [records, List.mem_append, List.mem_map, Prod.exists] at hr
  rcases hr with (⟨human, mapped, hp, rfl⟩ | ⟨human, mapped, hp, rfl⟩) | ⟨human, mapped, hp, rfl⟩
  · exact h.mem_classes_iff.1 (d.classes.perm_sorted.mem_iff.1 hp)
  · exact h.mem_fields_iff.1 (d.fields.perm_sorted.mem_iff.1 hp)
  · exact h.mem_methods_iff.1 (d.methods.perm_sorted.mem_iff.1 hp)

theorem writable_of_mem_records {strict : Bool} {bytes : List UInt8} {d : Dictionary}
    (h : parse strict bytes = .ok d) : ∀ r ∈ d.records, Record.Writable strict r := by
  intro r hr
  obtain ⟨rs, hlines, hgrown⟩ := parse_eq_ok_iff.1 h
  obtain ⟨line, _, words, hwords, hspelled⟩ :=
    exists_mem_left_of_forall₂ hlines r (mem_of_mem_records hgrown hr)
  simp only [Record.lineWords, Option.map_eq_some_iff] at hwords
  obtain ⟨text, _, rfl⟩ := hwords
  exact hspelled.writable fun w hw => Text.isWord_of_mem_words hw

/-- A dictionary that was read and the empty one answer as the dictionary read from their text does,
whether the reader is as strict as before or not strict. -/
theorem parse_toText_sameAnswers :
    (∀ (strict : Bool) (bytes : List UInt8) (d : Dictionary), parse strict bytes = .ok d →
      ∀ reread ∈ [strict, false],
        ∃ e, parse reread (Text.encode d.toText) = .ok e ∧ SameAnswers e d) ∧
    ∀ strict, ∃ e, parse strict (Text.encode empty.toText) = .ok e ∧ SameAnswers e empty := by
  constructor
  · intro strict bytes d h reread hreread
    have hw := writable_of_mem_records h
    simp only [List.mem_cons, List.not_mem_nil, or_false] at hreread
    rcases hreread with rfl | rfl
    · exact exists_parse_toText hw
    · exact exists_parse_toText fun r hr => (hw r hr).mono
  · intro strict
    exact exists_parse_toText (by simp [records, OneToOne.sorted, empty, OneToOne.empty])

theorem parse_toText_sameAnswers_sample :
    ∃ d e, parse true (Text.encode sampleText) = .ok d ∧
      parse true (Text.encode d.toText) = .ok e ∧
      e.mappedField? ⟨"é.B", "wörld", none⟩ = some ⟨"x.Y", "field_2", none⟩ := by
  obtain ⟨d, hd, hfield⟩ := exists_parse_sampleText
  obtain ⟨e, he, hsame⟩ := parse_toText_sameAnswers.1 true _ d hd true (by simp)
  refine ⟨d, e, hd, he, ?_⟩
  rw [hsame.mappedField, hfield]

end Dictionary
end JvmSymbols
