import JvmSymbols.Proofs.Descriptor.Spelling
import Mathlib.Data.List.Basic

/-! The grammar of descriptors, by its derivations. A derivation spells one text and stands for one type. The readers
accept exactly the texts that derivations spell, no text has two derivations, and what is read is the type that
the derivation stands for. -/
namespace JvmSymbols

namespace Descriptor

/-- The letters of field types; there is none for `void`. -/
def fieldLetters : List (Char × Primitive) :=
  [('B', .byte), ('C', .char), ('D', .double), ('F', .float), ('I', .int), ('J', .long), ('S', .short),
    ('Z', .boolean)]

inductive Element
  | letter (c : Char) (kind : Primitive) (h : (c, kind) ∈ fieldLetters)
  | named (name : String) (hname : name ≠ "") (hsemicolon : ';' ∉ name.toList)

structure FieldDerivation where
  brackets : Nat
  element : Element

inductive ResultDerivation
  | void
  | field (derivation : FieldDerivation)

structure MethodDerivation where
  params : List FieldDerivation
  result : ResultDerivation

theorem mem_fieldLetters_iff {c : Char} {kind : Primitive} :
    (c, kind) ∈ fieldLetters ↔ kind ≠ .void ∧ kind.letter = c := by
  cases kind <;> simp [fieldLetters, Primitive.letter, eq_comm]

namespace Element

def text : Element → List Char
  | letter c _ _ => [c]
  | named name _ _ => 'L' :: (name.toList ++ [';'])

def type : Element → JType
  | letter _ kind _ => .primitive kind
  | named name _ _ => .object name

variable {e f : Element}

theorem wellFormed_type (e : Element) : e.type.WellFormed := by
  cases e with
  | letter c kind h => exact (mem_fieldLetters_iff.1 h).1
  | named name hname hsemicolon => exact ⟨hname, hsemicolon⟩

theorem toList_verbatim_type (e : Element) : e.type.verbatim.toList = e.text := by
  cases e with
  | letter c kind h =>
    have hletter := (mem_fieldLetters_iff.1 h).2
    exact (JType.toList_spell_primitive id kind).trans (congrArg (fun x => [x]) hletter)
  | named name => exact JType.toList_spell_object id name

theorem dimensions_type (e : Element) : e.type.dimensions = 0 := by cases e <;> rfl

theorem innermost_type (e : Element) : e.type.innermost = e.type := by cases e <;> rfl

theorem eq_of_type_eq (h : e.type = f.type) : e = f := by
  cases e with
  | letter c kind hc =>
    cases f with
    | letter c' kind' hc' =>
      obtain rfl : kind = kind' := JType.primitive.inj h
      obtain rfl : c = c' := (mem_fieldLetters_iff.1 hc).2.symm.trans (mem_fieldLetters_iff.1 hc').2
      rfl
    | named name' => cases h
  | named name =>
    cases f with
    | letter c' kind' => cases h
    | named name' =>
      obtain rfl : name = name' := JType.object.inj h
      rfl

end Element

namespace FieldDerivation

def text (d : FieldDerivation) : List Char := List.replicate d.brackets '[' ++ d.element.text

def type (d : FieldDerivation) : JType := JType.arrayOf d.brackets d.element.type

variable {d e : FieldDerivation} {t : JType}

theorem wellFormed_type (d : FieldDerivation) : d.type.WellFormed := by
  obtain ⟨brackets, element⟩ := d
  induction brackets with
  | zero => exact element.wellFormed_type
  | succ brackets ih => exact ih

theorem toList_verbatim_type (d : FieldDerivation) : d.type.verbatim.toList = d.text := by
  obtain ⟨brackets, element⟩ := d
  induction brackets with
  | zero => exact element.toList_verbatim_type
  | succ brackets ih => exact (JType.toList_spell_array id _).trans (congrArg ('[' :: ·) ih)

theorem exists_type_eq (h : t.WellFormed) : ∃ d : FieldDerivation, d.type = t := by
  induction t with
  | primitive kind => exact ⟨⟨0, .letter kind.letter kind (mem_fieldLetters_iff.2 ⟨h, rfl⟩)⟩, rfl⟩
  | array t ih =>
    obtain ⟨d, hd⟩ := ih h
    exact ⟨⟨d.brackets + 1, d.element⟩, congrArg JType.array hd⟩
  | object name => exact ⟨⟨0, .named name h.ne_empty h.semicolon⟩, rfl⟩

theorem dimensions_type (d : FieldDerivation) : d.type.dimensions = d.brackets := by
  obtain ⟨brackets, element⟩ := d
  induction brackets with
  | zero => exact element.dimensions_type
  | succ brackets ih => exact congrArg (· + 1) ih

theorem innermost_type (d : FieldDerivation) : d.type.innermost = d.element.type := by
  obtain ⟨brackets, element⟩ := d
  induction brackets with
  | zero => exact element.innermost_type
  | succ brackets ih => exact ih

theorem eq_of_type_eq (h : d.type = e.type) : d = e := by
  have hbrackets : d.brackets = e.brackets := by rw [← dimensions_type, h, dimensions_type]
  have helement : d.element = e.element := by
    refine Element.eq_of_type_eq ?_
    rw [← innermost_type, h, innermost_type]
  cases d
  cases e
  simp_all

end FieldDerivation

namespace ResultDerivation

def text : ResultDerivation → List Char
  | void => ['V']
  | field d => d.text

def type : ResultDerivation → JType
  | void => .primitive .void
  | field d => d.type

variable {r s : ResultDerivation} {t : JType}

theorem isResult_type (r : ResultDerivation) : r.type.IsResult := by
  cases r with
  | void => exact .inl rfl
  | field d => exact .inr d.wellFormed_type

theorem toList_verbatim_type (r : ResultDerivation) : r.type.verbatim.toList = r.text := by
  cases r with
  | void => exact JType.toList_spell_primitive id .void
  | field d => exact d.toList_verbatim_type

theorem exists_type_eq (h : t.IsResult) : ∃ r : ResultDerivation, r.type = t := by
  rcases h with rfl | h
  · exact ⟨.void, rfl⟩
  · obtain ⟨d, hd⟩ := FieldDerivation.exists_type_eq h
    exact ⟨.field d, hd⟩

theorem eq_of_type_eq (h : r.type = s.type) : r = s := by
  have hvoid (d : FieldDerivation) : d.type ≠ .primitive .void := by
    intro hd
    have hwell := d.wellFormed_type
    rw [hd] at hwell
    exact hwell rfl
  cases r with
  | void =>
    cases s with
    | void => rfl
    | field e => exact absurd h.symm (hvoid e)
  | field d =>
    cases s with
    | void => exact absurd h (hvoid d)
    | field e => exact congrArg field (FieldDerivation.eq_of_type_eq h)

end ResultDerivation

namespace MethodDerivation

def text (d : MethodDerivation) : List Char :=
  '(' :: (d.params.flatMap FieldDerivation.text ++ ')' :: d.result.text)

def type (d : MethodDerivation) : MethodType := ⟨d.params.map FieldDerivation.type, d.result.type⟩

variable {d e : MethodDerivation} {m : MethodType}

theorem wellFormed_type (d : MethodDerivation) : d.type.WellFormed := by
  refine ⟨?_, d.result.isResult_type⟩
  intro t ht
  obtain ⟨param, _, rfl⟩ := List.mem_map.1 ht
  exact param.wellFormed_type

theorem toList_verbatim_type (d : MethodDerivation) : d.type.verbatim.toList = d.text := by
  have hparams : (d.params.map FieldDerivation.type).flatMap (fun t => t.verbatim.toList) =
      d.params.flatMap FieldDerivation.text := by
    rw [List.flatMap_map]
    exact congrArg d.params.flatMap (funext FieldDerivation.toList_verbatim_type)
  rw [MethodType.toList_verbatim, text, type, hparams, d.result.toList_verbatim_type]

theorem exists_type_eq (h : m.WellFormed) : ∃ d : MethodDerivation, d.type = m := by
  have hparams (ts : List JType) (hts : ∀ t ∈ ts, t.WellFormed) :
      ∃ ds : List FieldDerivation, ds.map FieldDerivation.type = ts := by
    induction ts with
    | nil => exact ⟨[], rfl⟩
    | cons t ts ih =>
      rw [List.forall_mem_cons] at hts
      obtain ⟨d, rfl⟩ := FieldDerivation.exists_type_eq hts.1
      obtain ⟨ds, rfl⟩ := ih hts.2
      exact ⟨d :: ds, rfl⟩
  obtain ⟨params, hmap⟩ := hparams m.params h.params
  obtain ⟨result, hresult⟩ := ResultDerivation.exists_type_eq h.result
  refine ⟨⟨params, result⟩, ?_⟩
  rw [type, hmap, hresult]

theorem eq_of_type_eq (h : d.type = e.type) : d = e := by
  obtain ⟨hparams, hresult⟩ := MethodType.mk.inj h
  have hinjective : Function.Injective FieldDerivation.type := fun _ _ => FieldDerivation.eq_of_type_eq
  have hparams' : d.params = e.params := List.map_injective_iff.2 hinjective hparams
  have hresult' : d.result = e.result := ResultDerivation.eq_of_type_eq hresult
  cases d
  cases e
  simp_all

end MethodDerivation
end Descriptor

namespace JType

open Descriptor (FieldDerivation)

/-- The type and the components below its brackets, down to the innermost. -/
def components : JType → List JType
  | array t => array t :: t.components
  | t => [t]

theorem WellFormed.void_notMem {t : JType} (h : t.WellFormed) : primitive .void ∉ t.components := by
  induction t with
  | primitive kind =>
    have hkind : kind ≠ .void := h
    simpa [components] using hkind.symm
  | array t ih => simpa [components] using ih h
  | object name => simp [components]

theorem parse_eq_ok_iff_derivation {descriptor : String} {t : JType} :
    parse descriptor = .ok t ↔ ∃ d : FieldDerivation, d.text = descriptor.toList ∧ d.type = t := by
  rw [parse_eq_ok_iff]
  constructor
  · rintro ⟨hwell, rfl⟩
    obtain ⟨d, rfl⟩ := FieldDerivation.exists_type_eq hwell
    exact ⟨d, d.toList_verbatim_type.symm, rfl⟩
  · rintro ⟨d, htext, rfl⟩
    exact ⟨d.wellFormed_type, String.toList_inj.1 (htext.symm.trans d.toList_verbatim_type.symm)⟩

end JType

namespace MethodType

open Descriptor (MethodDerivation)

theorem parse_eq_ok_iff_derivation {descriptor : String} {m : MethodType} :
    parse descriptor = .ok m ↔ ∃ d : MethodDerivation, d.text = descriptor.toList ∧ d.type = m := by
  rw [parse_eq_ok_iff]
  constructor
  · rintro ⟨hwell, rfl⟩
    obtain ⟨d, rfl⟩ := MethodDerivation.exists_type_eq hwell
    exact ⟨d, d.toList_verbatim_type.symm, rfl⟩
  · rintro ⟨d, htext, rfl⟩
    exact ⟨d.wellFormed_type, String.toList_inj.1 (htext.symm.trans d.toList_verbatim_type.symm)⟩

end MethodType

namespace Descriptor

theorem FieldDerivation.eq_of_text_eq {d e : FieldDerivation} (h : d.text = e.text) : d = e := by
  -- Both are what reading their common text gives.
  have hd : JType.parse (String.ofList e.text) = .ok d.type :=
    JType.parse_eq_ok_iff_derivation.2 ⟨d, by simpa using h, rfl⟩
  have he : JType.parse (String.ofList e.text) = .ok e.type :=
    JType.parse_eq_ok_iff_derivation.2 ⟨e, by simp, rfl⟩
  exact eq_of_type_eq (Except.ok.inj (hd.symm.trans he))

theorem MethodDerivation.eq_of_text_eq {d e : MethodDerivation} (h : d.text = e.text) : d = e := by
  have hd : MethodType.parse (String.ofList e.text) = .ok d.type :=
    MethodType.parse_eq_ok_iff_derivation.2 ⟨d, by simpa using h, rfl⟩
  have he : MethodType.parse (String.ofList e.text) = .ok e.type :=
    MethodType.parse_eq_ok_iff_derivation.2 ⟨e, by simp, rfl⟩
  exact eq_of_type_eq (Except.ok.inj (hd.symm.trans he))

/-- A text is read as a descriptor exactly if it has a derivation. It has only one, and what is read is the type
that the derivation stands for. So `void` is the result of a method or does not occur. -/
theorem parse_derives (descriptor : String) :
    ((∃ t, JType.parse descriptor = .ok t) ↔ ∃ d : FieldDerivation, d.text = descriptor.toList) ∧
    ((∃ m, MethodType.parse descriptor = .ok m) ↔ ∃ d : MethodDerivation, d.text = descriptor.toList) ∧
    (∀ t, JType.parse descriptor = .ok t →
      (∃ d : FieldDerivation, d.text = descriptor.toList ∧ d.type = t ∧
        ∀ e : FieldDerivation, e.text = descriptor.toList → e = d) ∧
      .primitive .void ∉ t.components) ∧
    ∀ m, MethodType.parse descriptor = .ok m →
      (∃ d : MethodDerivation, d.text = descriptor.toList ∧ d.type = m ∧
        ∀ e : MethodDerivation, e.text = descriptor.toList → e = d) ∧
      (∀ t ∈ m.params, .primitive .void ∉ t.components) ∧
      (m.result = .primitive .void ∨ .primitive .void ∉ m.result.components) := by
  refine ⟨⟨?_, ?_⟩, ⟨?_, ?_⟩, ?_, ?_⟩
  · rintro ⟨t, ht⟩
    obtain ⟨d, htext, _⟩ := JType.parse_eq_ok_iff_derivation.1 ht
    exact ⟨d, htext⟩
  · rintro ⟨d, htext⟩
    exact ⟨d.type, JType.parse_eq_ok_iff_derivation.2 ⟨d, htext, rfl⟩⟩
  · rintro ⟨m, hm⟩
    obtain ⟨d, htext, _⟩ := MethodType.parse_eq_ok_iff_derivation.1 hm
    exact ⟨d, htext⟩
  · rintro ⟨d, htext⟩
    exact ⟨d.type, MethodType.parse_eq_ok_iff_derivation.2 ⟨d, htext, rfl⟩⟩
  · intro t ht
    obtain ⟨d, htext, rfl⟩ := JType.parse_eq_ok_iff_derivation.1 ht
    have honly : ∀ e : FieldDerivation, e.text = descriptor.toList → e = d :=
      fun e he => FieldDerivation.eq_of_text_eq (he.trans htext.symm)
    exact ⟨⟨d, htext, rfl, honly⟩, d.wellFormed_type.void_notMem⟩
  · intro m hm
    obtain ⟨d, htext, rfl⟩ := MethodType.parse_eq_ok_iff_derivation.1 hm
    have honly : ∀ e : MethodDerivation, e.text = descriptor.toList → e = d :=
      fun e he => MethodDerivation.eq_of_text_eq (he.trans htext.symm)
    have hwell := d.wellFormed_type
    exact ⟨⟨d, htext, rfl, honly⟩, fun t ht => (hwell.params t ht).void_notMem,
      hwell.result.imp_right JType.WellFormed.void_notMem⟩

theorem parse_derives_sample :
    (∃ d : FieldDerivation, d.text = "[[Lp.L(V)[$é;".toList ∧ d.type = .array (.array (.object "p.L(V)[$é")) ∧
      ∀ e : FieldDerivation, e.text = "[[Lp.L(V)[$é;".toList → e = d) ∧
    ∃ d : MethodDerivation, d.text = "(JLV;)V".toList ∧
      d.type = ⟨[.primitive .long, .object "V"], .primitive .void⟩ ∧
      ∀ e : MethodDerivation, e.text = "(JLV;)V".toList → e = d := by
  have hfield : JType.parse "[[Lp.L(V)[$é;" = .ok (.array (.array (.object "p.L(V)[$é"))) :=
    JType.parse_eq_ok_iff.2 ⟨by decide, by decide⟩
  have hmethod : MethodType.parse "(JLV;)V" = .ok ⟨[.primitive .long, .object "V"], .primitive .void⟩ :=
    MethodType.parse_eq_ok_iff.2 ⟨by decide, by decide⟩
  exact ⟨((parse_derives _).2.2.1 _ hfield).1, ((parse_derives _).2.2.2 _ hmethod).1⟩

end Descriptor
end JvmSymbols
