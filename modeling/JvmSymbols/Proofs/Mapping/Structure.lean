import JvmSymbols.Mapping.Structure
import JvmSymbols.Proofs.Naming.Spelling
import JvmSymbols.Proofs.Mapping.TwoWay

/-! Look-ups by the place of a class against the lines of the mapping file. The key that is made from the
binary name is the key that was made from the operands of the line, in which the internal name stands. -/
namespace JvmSymbols

open ClassName (toBinary)

theorem Member.Spelled.eq_of_slash_notMem {owner name : String} {descriptor : Option String} {m : Member}
    (h : Spelled (owner ++ "/" ++ name) descriptor m) (hname : '/' ∉ name.toList) :
    m = ⟨toBinary owner, name, descriptor⟩ := by
  obtain ⟨owner', name', hcut, rfl⟩ := h
  have hread : Text.splitLast '/' (owner ++ "/" ++ name).toList = some (owner.toList, name.toList) :=
    Text.splitLast_eq_some_iff.2 ⟨by simp, hname⟩
  obtain ⟨hread', _, _⟩ := cut_iff_splitLast.1 hcut
  simp only [hread, Option.some.injEq, Prod.mk.injEq, String.toList_inj] at hread'
  obtain ⟨rfl, rfl⟩ := hread'
  rfl

namespace Dictionary

open Record

section Values

variable {ν : Type} [DecidableEq ν] (d : Dictionary) (v : ClassView ν) (n : ν)

theorem value_findClass : (d.findClass v n).value = (v.name .binary n).map d.mappedClass? := by
  rw [findClass, Logged.value_bind, ClassView.nameLogged]
  cases v.name .binary n <;> rfl

theorem value_findField (name : String) : (d.findField v n name).value =
    (v.name .binary n).map fun owner => d.mappedField? ⟨owner, name, none⟩ := by
  rw [findField, Logged.value_bind, ClassView.nameLogged]
  cases v.name .binary n <;> rfl

theorem value_findMethod (shape : MethodShape) : (d.findMethod v n shape).value =
    (v.name .binary n).map fun owner => d.mappedMethod? (Member.ofShape owner shape) := by
  rw [findMethod, Logged.value_bind, ClassView.nameLogged]
  cases v.name .binary n <;> rfl

end Values

section Outcomes

variable {ν : Type} [DecidableEq ν]

/-- What the lines of the file say about the class with this internal name and about its members is found at
the place of the class. -/
structure FindsLines (bytes : List UInt8) (d : Dictionary) (v : ClassView ν) (n : ν)
    (internal : String) : Prop where
  ofClass : ∀ l ∈ Text.byteLines bytes, ∀ mapped, lineWords l = some ["CL:", internal, mapped] →
    (d.findClass v n).value = .ok (some (toBinary mapped))
  ofField : ∀ name, '/' ∉ name.toList → ∀ l ∈ Text.byteLines bytes, ∀ mapped,
    lineWords l = some ["FD:", internal ++ "/" ++ name, mapped] →
      ∃ m, Member.ofOperand mapped none = some m ∧ (d.findField v n name).value = .ok (some m)
  ofMethod : ∀ shape : MethodShape, '/' ∉ shape.bytecodeName.toList →
    ∀ l ∈ Text.byteLines bytes, ∀ mapped descriptor,
      lineWords l =
          some ["MD:", internal ++ "/" ++ shape.bytecodeName, shape.descriptor, mapped, descriptor] →
        ∃ m, Member.ofOperand mapped (some descriptor) = some m ∧
          (d.findMethod v n shape).value = .ok (some m)

/-- Nothing is found exactly if the class has a binary name and no line has the key that is made from it. -/
structure MissesLines (bytes : List UInt8) (d : Dictionary) (v : ClassView ν) (n : ν) : Prop where
  ofClass : (d.findClass v n).value = .ok none ↔ ∃ binary, v.name .binary n = .ok binary ∧
    ¬ ∃ mapped, ∃ l ∈ Text.byteLines bytes, ClassLine l binary mapped
  ofField : ∀ name, (d.findField v n name).value = .ok none ↔
    ∃ binary, v.name .binary n = .ok binary ∧
      ¬ ∃ mapped, ∃ l ∈ Text.byteLines bytes, FieldLine l ⟨binary, name, none⟩ mapped
  ofMethod : ∀ shape, (d.findMethod v n shape).value = .ok none ↔
    ∃ binary, v.name .binary n = .ok binary ∧
      ¬ ∃ mapped, ∃ l ∈ Text.byteLines bytes, MethodLine l (Member.ofShape binary shape) mapped

structure FailsAsNaming (d : Dictionary) (v : ClassView ν) (n : ν) : Prop where
  ofClass : ∀ e, (d.findClass v n).value = .error e ↔ v.name .binary n = .error e
  ofField : ∀ name e, (d.findField v n name).value = .error e ↔ v.name .binary n = .error e
  ofMethod : ∀ shape e, (d.findMethod v n shape).value = .error e ↔ v.name .binary n = .error e

theorem failsAsNaming (d : Dictionary) (v : ClassView ν) (n : ν) : FailsAsNaming d v n where
  ofClass e := by rw [value_findClass, Except.map_eq_error_iff]
  ofField name e := by rw [value_findField, Except.map_eq_error_iff]
  ofMethod shape e := by rw [value_findMethod, Except.map_eq_error_iff]

variable {strict : Bool} {bytes : List UInt8} {d : Dictionary}

theorem grammatical_of_parse (h : parse strict bytes = .ok d) :
    Grammatical strict (Text.byteLines bytes) := by
  obtain ⟨rs, hrs, hg⟩ := parse_eq_ok_iff.1 h
  exact grammatical_iff_exists_grown.2 ⟨rs, hrs, d, hg⟩

theorem missesLines (h : parse strict bytes = .ok d) (v : ClassView ν) (n : ν) :
    MissesLines bytes d v n where
  ofClass := by
    rw [value_findClass, Except.map_eq_ok_iff]
    simp only [mappedClass?, OneToOne.get?_eq_none_iff, mem_classes_iff_exists_line h]
  ofField name := by
    rw [value_findField, Except.map_eq_ok_iff]
    simp only [mappedField?, OneToOne.get?_eq_none_iff, mem_fields_iff_exists_line h]
  ofMethod shape := by
    rw [value_findMethod, Except.map_eq_ok_iff]
    simp only [mappedMethod?, OneToOne.get?_eq_none_iff, mem_methods_iff_exists_line h]

theorem findsLines (h : parse strict bytes = .ok d) {v : ClassView ν} {n : ν} {internal : String}
    (hname : v.name .binary n = .ok (toBinary internal)) : FindsLines bytes d v n internal where
  ofClass l hl mapped hwords := by
    have hpair := (mem_classes_iff_exists_line h _ _).2 ⟨l, hl, internal, mapped, hwords, rfl, rfl⟩
    rw [value_findClass, hname]
    exact congrArg Except.ok (OneToOne.get?_eq_some_iff.2 hpair)
  ofField name hslash l hl mapped hwords := by
    -- The file was read, so both operands of the line are members.
    obtain ⟨tag, operands, hline, hwell⟩ := (grammatical_of_parse h).wellFormed l hl
    cases hwords.symm.trans hline
    obtain ⟨hoperand, hoperand'⟩ := hwell.fieldOperands _ _ rfl rfl
    obtain ⟨key, hkey⟩ : ∃ key, Member.Spelled _ none key := Member.exists_spelled_iff.2 hoperand
    obtain ⟨m, hm⟩ : ∃ m, Member.Spelled _ none m := Member.exists_spelled_iff.2 hoperand'
    have hpair := (mem_fields_iff_exists_line h _ _).2 ⟨l, hl, _, _, hwords, hkey, hm⟩
    rw [hkey.eq_of_slash_notMem hslash] at hpair
    refine ⟨m, Member.ofOperand_eq_some_iff.2 hm, ?_⟩
    rw [value_findField, hname]
    exact congrArg Except.ok (OneToOne.get?_eq_some_iff.2 hpair)
  ofMethod shape hslash l hl mapped descriptor hwords := by
    obtain ⟨tag, operands, hline, hwell⟩ := (grammatical_of_parse h).wellFormed l hl
    cases hwords.symm.trans hline
    obtain ⟨hoperand, hoperand'⟩ := hwell.methodOperands _ _ _ _ rfl rfl
    obtain ⟨key, hkey⟩ : ∃ key, Member.Spelled _ (some shape.descriptor) key :=
      Member.exists_spelled_iff.2 hoperand
    obtain ⟨m, hm⟩ : ∃ m, Member.Spelled _ (some descriptor) m := Member.exists_spelled_iff.2 hoperand'
    have hpair := (mem_methods_iff_exists_line h _ _).2 ⟨l, hl, _, _, _, _, hwords, hkey, hm⟩
    rw [hkey.eq_of_slash_notMem hslash] at hpair
    refine ⟨m, Member.ofOperand_eq_some_iff.2 hm, ?_⟩
    rw [value_findMethod, hname]
    exact congrArg Except.ok (OneToOne.get?_eq_some_iff.2 hpair)

end Outcomes

/-- Look-ups by the place of a class agree with the file that was read: they find what its lines say of the
internal name, miss exactly what no line has, and fail exactly where the class cannot be named. -/
theorem find_agrees :
    (∀ (strict : Bool) (bytes : List UInt8) (d : Dictionary), parse strict bytes = .ok d →
      (∀ (o : Outline) (n : Nat) (internal : String), o.SlashFree →
        o.view.name .internal n = .ok internal → FindsLines bytes d o.view n internal) ∧
      ∀ (ν : Type) [DecidableEq ν] (v : ClassView ν) (n : ν), MissesLines bytes d v n) ∧
    ∀ (ν : Type) [DecidableEq ν] (d : Dictionary) (v : ClassView ν) (n : ν), FailsAsNaming d v n := by
  constructor
  · intro strict bytes d h
    constructor
    · intro o n internal hfree hname
      exact findsLines h (hfree.name_binary hname)
    · intro ν _ v n
      exact missesLines h v n
  · intro ν _ d v n
    exact failsAsNaming d v n

/-- The words of three lines about the member of the local class in the sample outline. -/
def innerWords : List (List String) :=
  [["CL:", "a/Outer$1$In", "x/A"], ["FD:", "a/Outer$1$In/f", "x/A/g"],
    ["MD:", "a/Outer$1$In/<init>", "([La/Outer;)V", "x/A/<init>", "([Lx/B;)V"]]

def innerText : String := String.join (innerWords.map fun ws => " ".intercalate ws ++ "\n")

theorem exists_line_innerText {ws : List String} (h : ws ∈ innerWords) :
    ∃ l ∈ Text.byteLines (Text.encode innerText), lineWords l = some ws := by
  have hwords : (Text.byteLines (Text.encode innerText)).map lineWords = innerWords.map some := by
    decide +kernel
  rw [← List.mem_map, hwords]
  exact List.mem_map_of_mem h

theorem slashFree_sample : Outline.sample.SlashFree where
  topLevel n name hget := by
    rw [(Outline.sample_topLevel hget).2]
    decide
  member n p name hget := by
    rw [(Outline.sample_member hget).2]
    decide

theorem find_agrees_innerText :
    ∃ d, parse true (Text.encode innerText) = .ok d ∧
      (d.findClass Outline.sample.view 3).value = .ok (some "x.A") ∧
      (d.findField Outline.sample.view 3 "f").value = .ok (some ⟨"x.A", "g", none⟩) ∧
      (d.findMethod Outline.sample.view 3 (.ofConstructor [.array (.object "a.Outer")])).value =
        .ok (some ⟨"x.A", "<init>", some "([Lx/B;)V"⟩) ∧
      (d.findClass Outline.sample.view 4).value = .ok none ∧
      (d.findClass Outline.sample.view 1).value = .error ⟨1, .notNumbered⟩ := by
  obtain ⟨d, hparse, hnone⟩ : ∃ d, parse true (Text.encode innerText) = .ok d ∧
      d.mappedClass? "a.Outer$2" = none := Except.map_eq_ok_iff.1 (by decide +kernel)
  obtain ⟨hagrees, hfails⟩ := find_agrees
  obtain ⟨hfinds, hmisses⟩ := hagrees true _ d hparse
  have hinner := hfinds Outline.sample 3 "a/Outer$1$In" slashFree_sample (by decide +kernel)
  refine ⟨d, hparse, ?_, ?_, ?_, ?_, ?_⟩
  · have hmem : ["CL:", "a/Outer$1$In", "x/A"] ∈ innerWords := by decide
    have hx : toBinary "x/A" = "x.A" := by decide +kernel
    obtain ⟨l, hl, hline⟩ := exists_line_innerText hmem
    rw [hinner.ofClass l hl "x/A" hline, hx]
  · have hmem : ["FD:", "a/Outer$1$In/f", "x/A/g"] ∈ innerWords := by decide
    have hg : Member.ofOperand "x/A/g" none = some ⟨"x.A", "g", none⟩ := by decide +kernel
    obtain ⟨l, hl, hline⟩ := exists_line_innerText hmem
    obtain ⟨m, hm, hfield⟩ := hinner.ofField "f" (by decide) l hl "x/A/g" hline
    rw [hfield, ← hm, hg]
  · have hmem : ["MD:", "a/Outer$1$In/<init>", "([La/Outer;)V", "x/A/<init>", "([Lx/B;)V"] ∈
        innerWords := by decide
    have hinit : Member.ofOperand "x/A/<init>" (some "([Lx/B;)V") =
        some ⟨"x.A", "<init>", some "([Lx/B;)V"⟩ := by decide +kernel
    have hshape : (MethodShape.ofConstructor [.array (.object "a.Outer")]).descriptor =
        "([La/Outer;)V" := by decide +kernel
    obtain ⟨l, hl, hline⟩ := exists_line_innerText hmem
    obtain ⟨m, hm, hmethod⟩ := hinner.ofMethod (.ofConstructor [.array (.object "a.Outer")])
      (by decide) l hl "x/A/<init>" "([Lx/B;)V" (by rw [hline, hshape]; rfl)
    rw [hmethod, ← hm, hinit]
  · have hbinary : Outline.sample.view.name .binary 4 = .ok "a.Outer$2" := by decide +kernel
    refine (hmisses Nat Outline.sample.view 4).ofClass.2 ⟨_, hbinary, ?_⟩
    simp only [← mem_classes_iff_exists_line hparse]
    exact OneToOne.get?_eq_none_iff.1 hnone
  · exact ((hfails Nat d Outline.sample.view 1).ofClass _).2 (by decide +kernel)

end Dictionary
end JvmSymbols
