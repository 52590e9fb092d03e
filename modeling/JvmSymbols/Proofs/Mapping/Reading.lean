import JvmSymbols.Mapping.Reader
import JvmSymbols.Proofs.OneToOne
import JvmSymbols.Proofs.Mapping.Grammar
import Mathlib.Data.List.Forall2

/-! What a successful run of the reader has done: each line spells a record, and the tables hold the
pairs of these records and no others, the latest first. -/
namespace JvmSymbols

section InStep

variable {α β : Type} {R : α → β → Prop} {xs : List α} {ys : List β}

theorem exists_mem_left_of_forall₂ (h : List.Forall₂ R xs ys) : ∀ y ∈ ys, ∃ x ∈ xs, R x y := by
  induction h with
  | nil => simp
  | cons hxy _ ih =>
    intro y hy
    rcases List.mem_cons.1 hy with rfl | hy
    · exact ⟨_, List.mem_cons_self, hxy⟩
    · obtain ⟨x, hx, hR⟩ := ih y hy
      exact ⟨x, List.mem_cons_of_mem _ hx, hR⟩

theorem exists_mem_right_of_forall₂ (h : List.Forall₂ R xs ys) : ∀ x ∈ xs, ∃ y ∈ ys, R x y :=
  exists_mem_left_of_forall₂ h.flip

theorem exists_forall₂_iff : (∃ ys, List.Forall₂ R xs ys) ↔ ∀ x ∈ xs, ∃ y, R x y := by
  constructor
  · rintro ⟨ys, h⟩ x hx
    obtain ⟨y, _, hR⟩ := exists_mem_right_of_forall₂ h x hx
    exact ⟨y, hR⟩
  · intro h
    induction xs with
    | nil => exact ⟨[], .nil⟩
    | cons x xs ih =>
      obtain ⟨y, hy⟩ := h x (by simp)
      obtain ⟨ys, hys⟩ := ih fun x' hx' => h x' (by simp [hx'])
      exact ⟨y :: ys, .cons hy hys⟩

theorem pairwise_iff_of_forall₂ {P : α → α → Prop} {Q : β → β → Prop} (h : List.Forall₂ R xs ys)
    (hPQ : ∀ x y x' y', R x y → R x' y' → (P x x' ↔ Q y y')) : xs.Pairwise P ↔ ys.Pairwise Q := by
  induction h with
  | nil => simp
  | @cons x y xs ys hxy hrest ih =>
    rw [List.pairwise_cons, List.pairwise_cons, ih]
    refine and_congr_left fun _ => ⟨?_, ?_⟩
    · intro hP y' hy'
      obtain ⟨x', hx', hR⟩ := exists_mem_left_of_forall₂ hrest y' hy'
      exact (hPQ _ _ _ _ hxy hR).1 (hP x' hx')
    · intro hQ x' hx'
      obtain ⟨y', hy', hR⟩ := exists_mem_right_of_forall₂ hrest x' hx'
      exact (hPQ _ _ _ _ hxy hR).2 (hQ y' hy')

theorem countP_eq_of_forall₂ {p : α → Bool} {q : β → Bool} (h : List.Forall₂ R xs ys)
    (hpq : ∀ x y, R x y → p x = q y) : xs.countP p = ys.countP q := by
  induction h with
  | nil => rfl
  | cons hxy _ ih => rw [List.countP_cons, List.countP_cons, ih, hpq _ _ hxy]

end InStep

namespace Record

def classPair? : Record → Option (String × String)
  | ofClass human mapped => some (human, mapped)
  | _ => none

def fieldPair? : Record → Option (Member × Member)
  | ofField human mapped => some (human, mapped)
  | _ => none

def methodPair? : Record → Option (Member × Member)
  | ofMethod human mapped => some (human, mapped)
  | _ => none

theorem classPair?_eq_some_iff {r : Record} {human mapped : String} :
    r.classPair? = some (human, mapped) ↔ r = ofClass human mapped := by
  cases r <;> simp [classPair?]

theorem fieldPair?_eq_some_iff {r : Record} {human mapped : Member} :
    r.fieldPair? = some (human, mapped) ↔ r = ofField human mapped := by
  cases r <;> simp [fieldPair?]

theorem methodPair?_eq_some_iff {r : Record} {human mapped : Member} :
    r.methodPair? = some (human, mapped) ↔ r = ofMethod human mapped := by
  cases r <;> simp [methodPair?]

def lineWords (bytes : List UInt8) : Option (List String) :=
  (Text.decode bytes).map fun text => Text.words text.toList

def SpelledOn (strict : Bool) (bytes : List UInt8) (r : Record) : Prop :=
  ∃ words, lineWords bytes = some words ∧ Spelled strict words r

end Record

namespace Dictionary

/-- The pairs of the records stand in `e` in front of those of `d`, the latest first. -/
structure Grown (d : Dictionary) (rs : List Record) (e : Dictionary) : Prop where
  classes : e.classes.pairs = (rs.filterMap Record.classPair?).reverse ++ d.classes.pairs
  fields : e.fields.pairs = (rs.filterMap Record.fieldPair?).reverse ++ d.fields.pairs
  methods : e.methods.pairs = (rs.filterMap Record.methodPair?).reverse ++ d.methods.pairs

theorem eq_of_tables_eq {d e : Dictionary} (hc : d.classes.pairs = e.classes.pairs)
    (hf : d.fields.pairs = e.fields.pairs) (hm : d.methods.pairs = e.methods.pairs) : d = e := by
  cases d
  cases e
  rw [mk.injEq]
  exact ⟨OneToOne.eq_of_pairs_eq hc, OneToOne.eq_of_pairs_eq hf, OneToOne.eq_of_pairs_eq hm⟩

namespace Grown

variable {d e : Dictionary} {r : Record} {rs : List Record}

theorem nil_iff : Grown d [] e ↔ d = e := by
  constructor
  · intro h
    exact eq_of_tables_eq (by simpa using h.classes.symm) (by simpa using h.fields.symm)
      (by simpa using h.methods.symm)
  · rintro rfl
    exact ⟨by simp, by simp, by simp⟩

theorem cons_iff : Grown d (r :: rs) e ↔ ∃ d', Grown d [r] d' ∧ Grown d' rs e := by
  have split {α β : Type} (f : Record → Option (α × β)) (ps : List (α × β)) :
      ((r :: rs).filterMap f).reverse ++ ps =
        (rs.filterMap f).reverse ++ (([r].filterMap f).reverse ++ ps) := by
    rw [← List.singleton_append, List.filterMap_append, List.reverse_append, List.append_assoc]
  constructor
  · intro h
    obtain ⟨classes, hc⟩ := OneToOne.exists_pairs_eq (h.classes.trans (split _ _))
    obtain ⟨fields, hf⟩ := OneToOne.exists_pairs_eq (h.fields.trans (split _ _))
    obtain ⟨methods, hm⟩ := OneToOne.exists_pairs_eq (h.methods.trans (split _ _))
    refine ⟨⟨classes, fields, methods⟩, ⟨hc, hf, hm⟩, ?_, ?_, ?_⟩
    · rw [h.classes, hc, split]
    · rw [h.fields, hf, split]
    · rw [h.methods, hm, split]
  · rintro ⟨d', h, h'⟩
    refine ⟨?_, ?_, ?_⟩
    · rw [h'.classes, h.classes, split]
    · rw [h'.fields, h.fields, split]
    · rw [h'.methods, h.methods, split]

theorem empty_iff : Grown empty rs d ↔
    d.classes.pairs = (rs.filterMap Record.classPair?).reverse ∧
    d.fields.pairs = (rs.filterMap Record.fieldPair?).reverse ∧
    d.methods.pairs = (rs.filterMap Record.methodPair?).reverse := by
  have none {α β : Type} (ps : List (α × β)) : ps ++ (OneToOne.empty : OneToOne α β).pairs = ps :=
    List.append_nil ps
  constructor
  · intro h
    exact ⟨h.classes.trans (none _), h.fields.trans (none _), h.methods.trans (none _)⟩
  · rintro ⟨hc, hf, hm⟩
    exact ⟨hc.trans (none _).symm, hf.trans (none _).symm, hm.trans (none _).symm⟩

theorem mem_classes_iff (h : Grown empty rs d) {human mapped : String} :
    (human, mapped) ∈ d.classes.pairs ↔ Record.ofClass human mapped ∈ rs := by
  obtain ⟨hc, _, _⟩ := empty_iff.1 h
  simp [hc, Record.classPair?_eq_some_iff]

theorem mem_fields_iff (h : Grown empty rs d) {human mapped : Member} :
    (human, mapped) ∈ d.fields.pairs ↔ Record.ofField human mapped ∈ rs := by
  obtain ⟨_, hf, _⟩ := empty_iff.1 h
  simp [hf, Record.fieldPair?_eq_some_iff]

theorem mem_methods_iff (h : Grown empty rs d) {human mapped : Member} :
    (human, mapped) ∈ d.methods.pairs ↔ Record.ofMethod human mapped ∈ rs := by
  obtain ⟨_, _, hm⟩ := empty_iff.1 h
  simp [hm, Record.methodPair?_eq_some_iff]

end Grown

section Adding

variable (d : Dictionary)

theorem add_ofClass (human mapped : String) :
    d.add (.ofClass human mapped) = ((d.classes.insert human mapped).map
      fun t => { d with classes := t }).mapError (Prod.mk .classes) := by
  rw [add]
  cases d.classes.insert human mapped <;> rfl

theorem add_ofField (human mapped : Member) :
    d.add (.ofField human mapped) = ((d.fields.insert human mapped).map
      fun t => { d with fields := t }).mapError (Prod.mk .fields) := by
  rw [add]
  cases d.fields.insert human mapped <;> rfl

theorem add_ofMethod (human mapped : Member) :
    d.add (.ofMethod human mapped) = ((d.methods.insert human mapped).map
      fun t => { d with methods := t }).mapError (Prod.mk .methods) := by
  rw [add]
  cases d.methods.insert human mapped <;> rfl

end Adding

theorem add_eq_ok_iff {d e : Dictionary} {r : Record} : d.add r = .ok e ↔ Grown d [r] e := by
  cases r with
  | ofClass human mapped =>
    rw [add_ofClass, Except.mapError_eq_ok_iff, Except.map_eq_ok_iff]
    constructor
    · rintro ⟨t, ht, rfl⟩
      exact ⟨OneToOne.insert_eq_ok_iff.1 ht, rfl, rfl⟩
    · intro h
      exact ⟨e.classes, OneToOne.insert_eq_ok_iff.2 h.classes,
        eq_of_tables_eq rfl h.fields.symm h.methods.symm⟩
  | ofField human mapped =>
    rw [add_ofField, Except.mapError_eq_ok_iff, Except.map_eq_ok_iff]
    constructor
    · rintro ⟨t, ht, rfl⟩
      exact ⟨rfl, OneToOne.insert_eq_ok_iff.1 ht, rfl⟩
    · intro h
      exact ⟨e.fields, OneToOne.insert_eq_ok_iff.2 h.fields,
        eq_of_tables_eq h.classes.symm rfl h.methods.symm⟩
  | ofMethod human mapped =>
    rw [add_ofMethod, Except.mapError_eq_ok_iff, Except.map_eq_ok_iff]
    constructor
    · rintro ⟨t, ht, rfl⟩
      exact ⟨rfl, rfl, OneToOne.insert_eq_ok_iff.1 ht⟩
    · intro h
      exact ⟨e.methods, OneToOne.insert_eq_ok_iff.2 h.methods,
        eq_of_tables_eq h.classes.symm h.fields.symm rfl⟩
  | other tag =>
    rw [add, Except.ok.injEq, ← Grown.nil_iff]
    exact ⟨fun h => ⟨h.classes, h.fields, h.methods⟩, fun h => ⟨h.classes, h.fields, h.methods⟩⟩

theorem readLine_eq_ok_iff {strict : Bool} {n : Nat} {bytes : List UInt8} {r : Record} :
    readLine strict n bytes = .ok r ↔ Record.SpelledOn strict bytes r := by
  simp only [readLine, Record.SpelledOn, Record.lineWords, ← Record.ofWords_eq_ok_iff]
  cases Text.decode bytes with
  | none => simp
  | some text =>
    simp only [Option.map_some, Option.some.injEq, exists_eq_left']
    cases Record.ofWords strict (Text.words text.toList) <;> simp

theorem addLine_eq_ok_iff {strict : Bool} {d e : Dictionary} {n : Nat} {bytes : List UInt8}
    {r : Record} :
    addLine strict d n bytes = .ok (e, r) ↔ Record.SpelledOn strict bytes r ∧ Grown d [r] e := by
  rw [← readLine_eq_ok_iff (n := n), ← add_eq_ok_iff]
  constructor
  · intro h
    unfold addLine at h
    split at h
    · cases h
    · rename_i hr
      split at h
      · cases h
      · rename_i ha
        cases h
        exact ⟨hr, ha⟩
  · rintro ⟨hr, ha⟩
    simp only [addLine, hr, ha]

theorem outcome_readLines_cons (strict : Bool) (d : Dictionary) (n : Nat) (bytes : List UInt8)
    (rest : List (List UInt8)) :
    (readLines strict d n (bytes :: rest)).outcome =
      match addLine strict d n bytes with
      | .error e => .error e
      | .ok (d, _) => (readLines strict d (n + 1) rest).outcome := by
  rw [readLines]
  split <;> rename_i h <;> simp [h]

/-- A run of the reader succeeds exactly if each line spells a record and the tables can take all of
them. -/
theorem readLines_eq_ok_iff {strict : Bool} {d e : Dictionary} {n : Nat}
    {lines : List (List UInt8)} :
    (readLines strict d n lines).outcome = .ok e ↔
      ∃ rs, List.Forall₂ (Record.SpelledOn strict) lines rs ∧ Grown d rs e := by
  induction lines generalizing d n with
  | nil => simp [readLines, Grown.nil_iff]
  | cons bytes rest ih =>
    rw [outcome_readLines_cons]
    constructor
    · intro h
      split at h
      · cases h
      · rename_i d' r hl
        obtain ⟨hr, hd⟩ := addLine_eq_ok_iff.1 hl
        obtain ⟨rs, hrs, he⟩ := ih.1 h
        exact ⟨r :: rs, .cons hr hrs, Grown.cons_iff.2 ⟨d', hd, he⟩⟩
    · rintro ⟨_, hspelled, hg⟩
      obtain ⟨r, rs, hr, hrs, rfl⟩ := List.forall₂_cons_left_iff.1 hspelled
      obtain ⟨d', hd, he⟩ := Grown.cons_iff.1 hg
      rw [addLine_eq_ok_iff.2 ⟨hr, hd⟩]
      exact ih.2 ⟨_, hrs, he⟩

theorem parse_eq_ok_iff {strict : Bool} {bytes : List UInt8} {d : Dictionary} :
    parse strict bytes = .ok d ↔
      ∃ rs, List.Forall₂ (Record.SpelledOn strict) (Text.byteLines bytes) rs ∧ Grown empty rs d :=
  readLines_eq_ok_iff

/-- A text with a line of each tag and one that no table is for. -/
def sampleText : String :=
  "MD: p/B/run(x (I)V x/Y/f.1 ()V\nPK: ./ net\r\nCL: p.B$1 x/Y\nFD: é/B/wörld x/Y/field_2\n"

theorem exists_parse_sampleText :
    ∃ d, parse true (Text.encode sampleText) = .ok d ∧
      d.mappedField? ⟨"é.B", "wörld", none⟩ = some ⟨"x.Y", "field_2", none⟩ :=
  Except.map_eq_ok_iff.1 (by decide +kernel)

end Dictionary
end JvmSymbols
