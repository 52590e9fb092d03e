import JvmSymbols.Proofs.Member
import JvmSymbols.Proofs.Mapping.RoundTrip
import JvmSymbols.Proofs.Mapping.TwoWay

/-! The text of a dictionary is canonical. Dictionaries that hold the same pairs are written alike, and
which pairs one holds depends on the records of its file alone: neither their order nor the lines with
other tags leave a trace. -/
namespace JvmSymbols

namespace Record

variable {strict : Bool}

def recordWords (lines : List (List UInt8)) : List (Option (List String)) :=
  (lines.filter fun l => !hasOtherTag l).map lineWords

theorem recordWords_cons_of_true {l : List UInt8} (h : hasOtherTag l = true) (ls : List (List UInt8)) :
    recordWords (l :: ls) = recordWords ls := by
  simp [recordWords, h]

theorem recordWords_cons_of_false {l : List UInt8} (h : hasOtherTag l = false)
    (ls : List (List UInt8)) : recordWords (l :: ls) = lineWords l :: recordWords ls := by
  simp [recordWords, h]

theorem exists_spelledOn_other {l : List UInt8} (h : hasOtherTag l = true) :
    ∃ tag, SpelledOn strict l (other tag) := by
  unfold hasOtherTag at h
  split at h
  · rename_i tag operands hwords
    exact ⟨tag, tag :: operands, hwords, .other operands (by simpa using h)⟩
  · cases h

theorem exists_forall₂_spelledOn_iff {lines : List (List UInt8)} {rs : List Record} :
    (∃ all, List.Forall₂ (SpelledOn strict) lines all ∧ (all.filter fun r => !r.isOther) = rs) ↔
      List.Forall₂ (fun ws r => ∃ words, ws = some words ∧ Spelled strict words r)
        (recordWords lines) rs := by
  induction lines generalizing rs with
  | nil =>
    simp only [List.forall₂_nil_left_iff, exists_eq_left, List.filter_nil, recordWords, List.map_nil]
    exact eq_comm
  | cons l ls ih =>
    by_cases htag : hasOtherTag l = true
    · rw [recordWords_cons_of_true htag, ← ih]
      constructor
      · rintro ⟨_, hall, rfl⟩
        obtain ⟨r, all, hr, hrest, rfl⟩ := List.forall₂_cons_left_iff.1 hall
        have hother : r.isOther = true := hr.hasOtherTag_eq ▸ htag
        exact ⟨all, hrest, by simp [hother]⟩
      · rintro ⟨all, hall, rfl⟩
        -- The line that is left out spells a record after all, one that is left out as well.
        obtain ⟨tag, hr⟩ : ∃ tag, SpelledOn strict l (other tag) := exists_spelledOn_other htag
        exact ⟨other tag :: all, .cons hr hall, by simp [isOther]⟩
    · have hfalse : hasOtherTag l = false := by simpa using htag
      rw [recordWords_cons_of_false hfalse, List.forall₂_cons_left_iff]
      constructor
      · rintro ⟨_, hall, rfl⟩
        obtain ⟨r, all, hr, hrest, rfl⟩ := List.forall₂_cons_left_iff.1 hall
        have hown : r.isOther = false := hr.hasOtherTag_eq ▸ hfalse
        exact ⟨r, _, hr, ih.1 ⟨all, hrest, rfl⟩, by simp [hown]⟩
      · rintro ⟨r, rest, hr, hrest, rfl⟩
        obtain ⟨all, hall, rfl⟩ := ih.2 hrest
        have hown : r.isOther = false := SpelledOn.hasOtherTag_eq hr ▸ hfalse
        exact ⟨r :: all, .cons hr hall, by simp [hown]⟩

theorem filterMap_filter_isOther {α : Type} {pair? : Record → Option α}
    (h : ∀ tag, pair? (other tag) = none) (rs : List Record) :
    (rs.filter fun r => !r.isOther).filterMap pair? = rs.filterMap pair? := by
  rw [List.filterMap_filter]
  congr
  funext r
  cases r <;> simp [isOther, h]

end Record

namespace Dictionary

open Record

structure SamePairs (d e : Dictionary) : Prop where
  classes : d.classes.pairs.Perm e.classes.pairs
  fields : d.fields.pairs.Perm e.fields.pairs
  methods : d.methods.pairs.Perm e.methods.pairs

structure SameRecords (bytes bytes' : List UInt8) : Prop where
  classes : ∀ human mapped, (∃ l ∈ Text.byteLines bytes, ClassLine l human mapped) ↔
    ∃ l ∈ Text.byteLines bytes', ClassLine l human mapped
  fields : ∀ human mapped, (∃ l ∈ Text.byteLines bytes, FieldLine l human mapped) ↔
    ∃ l ∈ Text.byteLines bytes', FieldLine l human mapped
  methods : ∀ human mapped, (∃ l ∈ Text.byteLines bytes, MethodLine l human mapped) ↔
    ∃ l ∈ Text.byteLines bytes', MethodLine l human mapped

/-- The files have the same lines in some order, except that each may have any lines with other tags. A line
counts by its words. -/
def Rearranged (bytes bytes' : List UInt8) : Prop :=
  (recordWords (Text.byteLines bytes)).Perm (recordWords (Text.byteLines bytes'))

instance (bytes bytes' : List UInt8) : Decidable (Rearranged bytes bytes') :=
  inferInstanceAs (Decidable (List.Perm _ _))

variable {strict strict' : Bool} {bytes bytes' : List UInt8} {d e : Dictionary}

theorem beq_iff_samePairs : (d == e) = true ↔ SamePairs d e := by
  have hbeq : (d == e) = true ↔
      (d.classes == e.classes) = true ∧ (d.fields == e.fields) = true ∧
        (d.methods == e.methods) = true := by
    rw [← and_assoc, ← Bool.and_eq_true, ← Bool.and_eq_true]
    rfl
  simp only [hbeq, OneToOne.beq_iff_perm]
  constructor
  · rintro ⟨hc, hf, hm⟩
    exact ⟨hc, hf, hm⟩
  · rintro ⟨hc, hf, hm⟩
    exact ⟨hc, hf, hm⟩

theorem samePairs_iff_sameRecords (hd : parse strict bytes = .ok d) (he : parse strict' bytes' = .ok e) :
    SamePairs d e ↔ SameRecords bytes bytes' := by
  have hc : d.classes.pairs.Perm e.classes.pairs ↔ _ := OneToOne.perm_iff_mem
  have hf : d.fields.pairs.Perm e.fields.pairs ↔ _ := OneToOne.perm_iff_mem
  have hm : d.methods.pairs.Perm e.methods.pairs ↔ _ := OneToOne.perm_iff_mem
  simp only [mem_classes_iff_exists_line hd, mem_classes_iff_exists_line he] at hc
  simp only [mem_fields_iff_exists_line hd, mem_fields_iff_exists_line he] at hf
  simp only [mem_methods_iff_exists_line hd, mem_methods_iff_exists_line he] at hm
  constructor
  · intro h
    exact ⟨hc.1 h.classes, hf.1 h.fields, hm.1 h.methods⟩
  · intro h
    exact ⟨hc.2 h.classes, hf.2 h.fields, hm.2 h.methods⟩

theorem SamePairs.toText_eq (h : SamePairs d e) : d.toText = e.toText := by
  have hrecords : d.records = e.records := by
    rw [records, records, OneToOne.sorted_eq_of_perm h.classes, OneToOne.sorted_eq_of_perm h.fields,
      OneToOne.sorted_eq_of_perm h.methods]
  rw [toText, toText, hrecords]

theorem SameAnswers.samePairs (h : SameAnswers d e) : SamePairs d e := by
  refine ⟨OneToOne.perm_iff_mem.2 fun a b => ?_, OneToOne.perm_iff_mem.2 fun a b => ?_,
    OneToOne.perm_iff_mem.2 fun a b => ?_⟩
  · rw [← OneToOne.get?_eq_some_iff, ← OneToOne.get?_eq_some_iff]
    exact iff_of_eq (congrArg (· = some b) (h.mappedClass a))
  · rw [← OneToOne.get?_eq_some_iff, ← OneToOne.get?_eq_some_iff]
    exact iff_of_eq (congrArg (· = some b) (h.mappedField a))
  · rw [← OneToOne.get?_eq_some_iff, ← OneToOne.get?_eq_some_iff]
    exact iff_of_eq (congrArg (· = some b) (h.mappedMethod a))

theorem SamePairs.symm (h : SamePairs d e) : SamePairs e d :=
  ⟨h.classes.symm, h.fields.symm, h.methods.symm⟩

theorem SamePairs.trans {f : Dictionary} (h : SamePairs d e) (h' : SamePairs e f) : SamePairs d f :=
  ⟨h.classes.trans h'.classes, h.fields.trans h'.fields, h.methods.trans h'.methods⟩

/-- The text of a dictionary tells its pairs, because both can be read back from it. -/
theorem samePairs_of_toText_eq (hd : parse strict bytes = .ok d) (he : parse strict' bytes' = .ok e)
    (h : d.toText = e.toText) : SamePairs d e := by
  -- The files may have been read with different strictness, so both texts are read without it.
  obtain ⟨f, hf, hsame⟩ := exists_parse_toText fun r hr => (writable_of_mem_records hd r hr).mono
  obtain ⟨g, hg, hsame'⟩ := exists_parse_toText fun r hr => (writable_of_mem_records he r hr).mono
  rw [h, hg] at hf
  obtain rfl : g = f := Except.ok.inj hf
  exact hsame.samePairs.symm.trans hsame'.samePairs

/-- Records in another order fill the tables with the same pairs. -/
theorem Grown.exists_perm {rs rs' : List Record} (h : Grown empty rs d)
    (hperm : (rs.filter fun r => !r.isOther).Perm (rs'.filter fun r => !r.isOther)) :
    ∃ e, Grown empty rs' e ∧ SamePairs d e := by
  have pairs {α : Type} (pair? : Record → Option α) (hnone : ∀ tag, pair? (.other tag) = none) :
      (rs.filterMap pair?).Perm (rs'.filterMap pair?) := by
    rw [← filterMap_filter_isOther hnone rs, ← filterMap_filter_isOther hnone rs']
    exact hperm.filterMap pair?
  have distinct {α : Type} {ps ps' : List (α × α)} (hps : ps.Perm ps') :
      ps.Pairwise (fun p q => p.1 ≠ q.1 ∧ p.2 ≠ q.2) ↔
        ps'.Pairwise (fun p q => p.1 ≠ q.1 ∧ p.2 ≠ q.2) :=
    hps.pairwise_iff fun hpq => ⟨hpq.1.symm, hpq.2.symm⟩
  have hc := pairs classPair? fun _ => rfl
  have hf := pairs fieldPair? fun _ => rfl
  have hm := pairs methodPair? fun _ => rfl
  obtain ⟨hdc, hdf, hdm⟩ := exists_grown_iff.1 ⟨d, h⟩
  obtain ⟨e, he⟩ := exists_grown_iff.2 ⟨(distinct hc).1 hdc, (distinct hf).1 hdf, (distinct hm).1 hdm⟩
  obtain ⟨hc', hf', hm'⟩ := Grown.empty_iff.1 h
  obtain ⟨hec, hef, hem⟩ := Grown.empty_iff.1 he
  refine ⟨e, he, ?_, ?_, ?_⟩
  · rw [hc', hec]
    exact (List.reverse_perm _).trans (hc.trans (List.reverse_perm _).symm)
  · rw [hf', hef]
    exact (List.reverse_perm _).trans (hf.trans (List.reverse_perm _).symm)
  · rw [hm', hem]
    exact (List.reverse_perm _).trans (hm.trans (List.reverse_perm _).symm)

theorem exists_parse_of_rearranged (hd : parse strict bytes = .ok d) (h : Rearranged bytes bytes') :
    ∃ e, parse strict bytes' = .ok e ∧ SamePairs d e := by
  obtain ⟨rs, hrs, hg⟩ := parse_eq_ok_iff.1 hd
  have hwords := exists_forall₂_spelledOn_iff.1 ⟨rs, hrs, rfl⟩
  obtain ⟨records, hrecords, hperm⟩ := List.perm_comp_forall₂ (List.Perm.symm h) hwords
  obtain ⟨rs', hrs', rfl⟩ := exists_forall₂_spelledOn_iff.2 hrecords
  obtain ⟨e, he, hpairs⟩ := hg.exists_perm hperm.symm
  exact ⟨e, parse_eq_ok_iff.2 ⟨rs', hrs', he⟩, hpairs⟩

/-- Of two files that are read, the dictionaries are equal exactly if their texts are, and exactly if the
files have the same records. Rearranged lines are read again, into an equal dictionary with the same
text. -/
theorem parse_canonical :
    (∀ (strict strict' : Bool) (bytes bytes' : List UInt8) (d e : Dictionary),
      parse strict bytes = .ok d → parse strict' bytes' = .ok e →
        ((d == e) = true ↔ d.toText = e.toText) ∧ ((d == e) = true ↔ SameRecords bytes bytes')) ∧
    ∀ (strict : Bool) (bytes bytes' : List UInt8) (d : Dictionary), parse strict bytes = .ok d →
      Rearranged bytes bytes' →
        ∃ e, parse strict bytes' = .ok e ∧ (d == e) = true ∧ d.toText = e.toText := by
  constructor
  · intro strict strict' bytes bytes' d e hd he
    simp only [beq_iff_samePairs]
    constructor
    · exact ⟨SamePairs.toText_eq, samePairs_of_toText_eq hd he⟩
    · exact samePairs_iff_sameRecords hd he
  · intro strict bytes bytes' d hd h
    obtain ⟨e, he, hpairs⟩ := exists_parse_of_rearranged hd h
    exact ⟨e, he, beq_iff_samePairs.2 hpairs, hpairs.toText_eq⟩

/-- The sample with its lines turned around and the one that no table is for replaced. -/
def turnedText : String :=
  "FD: é/B/wörld  x/Y/field_2\r\nCL: p.B$1 x/Y\nMD: p/B/run(x (I)V x/Y/f.1 ()V\n# end"

theorem parse_canonical_turned :
    ∃ d e, parse true (Text.encode sampleText) = .ok d ∧ parse true (Text.encode turnedText) = .ok e ∧
      d.toText = e.toText ∧ SameRecords (Text.encode sampleText) (Text.encode turnedText) := by
  obtain ⟨d, hd, _⟩ := exists_parse_sampleText
  obtain ⟨hsame, hrearranged⟩ := parse_canonical
  have hturned : Rearranged (Text.encode sampleText) (Text.encode turnedText) := by decide +kernel
  obtain ⟨e, he, hequal, htext⟩ := hrearranged true _ _ d hd hturned
  exact ⟨d, e, hd, he, htext, (hsame _ _ _ _ d e hd he).2.1 hequal⟩

end Dictionary
end JvmSymbols
