import JvmSymbols.Mapping.Record
import JvmSymbols.Proofs.Except

/-! The grammar of mapping records. It is stated without the reader: which words spell a member, which
spell a record, and in strict mode which descriptors may stand in one. -/
namespace JvmSymbols

/-- The operand is an owner and a name, both with text, around its last slash. -/
structure Member.Cut (operand owner name : String) : Prop where
  operand_eq : operand = owner ++ "/" ++ name
  owner_ne : owner ≠ ""
  name_ne : name ≠ ""
  last : '/' ∉ name.toList

/-- The member that an operand and a descriptor spell; the owner is kept with dots. -/
def Member.Spelled (operand : String) (descriptor : Option String) (m : Member) : Prop :=
  ∃ owner name, Cut operand owner name ∧ m = ⟨ClassName.toBinary owner, name, descriptor⟩

theorem Member.cut_iff_splitLast {operand owner name : String} :
    Cut operand owner name ↔
      Text.splitLast '/' operand.toList = some (owner.toList, name.toList) ∧ owner ≠ "" ∧ name ≠ "" := by
  rw [Text.splitLast_eq_some_iff]
  constructor
  · rintro ⟨rfl, ho, hn, hl⟩
    exact ⟨⟨by simp, hl⟩, ho, hn⟩
  · rintro ⟨⟨h, hl⟩, ho, hn⟩
    refine ⟨?_, ho, hn, hl⟩
    rw [← String.toList_inj, h]
    simp

theorem Member.ofOperand_eq_some_iff {operand : String} {descriptor : Option String} {m : Member} :
    ofOperand operand descriptor = some m ↔ Spelled operand descriptor m := by
  unfold ofOperand Spelled
  constructor
  · intro h
    split at h
    · rename_i o owner n name hs
      cases h
      refine ⟨String.ofList (o :: owner), String.ofList (n :: name), cut_iff_splitLast.2 ?_, rfl⟩
      refine ⟨by simpa using hs, ?_, ?_⟩ <;> simp
    · cases h
  · rintro ⟨owner, name, hc, rfl⟩
    obtain ⟨hs, ho, hn⟩ := cut_iff_splitLast.1 hc
    obtain ⟨o, os, hos⟩ := List.exists_cons_of_ne_nil (mt String.toList_eq_nil_iff.1 ho)
    obtain ⟨n, ns, hns⟩ := List.exists_cons_of_ne_nil (mt String.toList_eq_nil_iff.1 hn)
    rw [hs, hos, hns]
    simp only [← hos, ← hns, String.ofList_toList]

def MethodType.Accepts (descriptor : String) : Prop := ∃ t, parse descriptor = .ok t

namespace Record

def tags : List String := ["CL:", "FD:", "MD:"]

inductive Spelled (strict : Bool) : List String → Record → Prop
  | ofClass (human mapped : String) :
    Spelled strict ["CL:", human, mapped]
      (ofClass (ClassName.toBinary human) (ClassName.toBinary mapped))
  | ofField {human mapped : String} {h m : Member} (hh : Member.Spelled human none h)
      (hm : Member.Spelled mapped none m) :
    Spelled strict ["FD:", human, mapped] (ofField h m)
  | ofMethod {human humanDescriptor mapped mappedDescriptor : String} {h m : Member}
      (valid : strict = true →
        MethodType.Accepts humanDescriptor ∧ MethodType.Accepts mappedDescriptor)
      (hh : Member.Spelled human (some humanDescriptor) h)
      (hm : Member.Spelled mapped (some mappedDescriptor) m) :
    Spelled strict ["MD:", human, humanDescriptor, mapped, mappedDescriptor] (ofMethod h m)
  | other {tag : String} (operands : List String) (htag : tag ∉ tags) :
    Spelled strict (tag :: operands) (other tag)

theorem readMember_eq_ok_iff {operand : String} {descriptor : Option String} {m : Member} :
    readMember operand descriptor = .ok m ↔ Member.Spelled operand descriptor m := by
  rw [readMember, ← Member.ofOperand_eq_some_iff]
  cases Member.ofOperand operand descriptor <;> simp

theorem checkDescriptor_eq_ok_iff {descriptor : String} {u : Unit} :
    checkDescriptor descriptor = .ok u ↔ MethodType.Accepts descriptor := by
  rw [checkDescriptor, MethodType.Accepts]
  cases MethodType.parse descriptor <;> simp

theorem readClass_eq_ok_iff {operands : List String} {r : Record} :
    readClass operands = .ok r ↔ ∃ human mapped, operands = [human, mapped] ∧
      r = ofClass (ClassName.toBinary human) (ClassName.toBinary mapped) := by
  constructor
  · intro h
    unfold readClass at h
    split at h
    · cases h
      exact ⟨_, _, rfl, rfl⟩
    · cases h
  · rintro ⟨human, mapped, rfl, rfl⟩
    rfl

theorem readMembers_eq_ok_iff {human mapped : String} {hd md : Option String}
    {make : Member → Member → Record} {r : Record} :
    (do
      let h ← readMember human hd
      let m ← readMember mapped md
      return make h m) = Except.ok r ↔
    ∃ h m, Member.Spelled human hd h ∧ Member.Spelled mapped md m ∧ r = make h m := by
  constructor
  · intro h
    obtain ⟨a, ha, h⟩ := Except.bind_eq_ok_iff.1 h
    obtain ⟨b, hb, h⟩ := Except.bind_eq_ok_iff.1 h
    cases h
    exact ⟨a, b, readMember_eq_ok_iff.1 ha, readMember_eq_ok_iff.1 hb, rfl⟩
  · rintro ⟨a, b, ha, hb, rfl⟩
    exact Except.bind_eq_ok_iff.2 ⟨a, readMember_eq_ok_iff.2 ha,
      Except.bind_eq_ok_iff.2 ⟨b, readMember_eq_ok_iff.2 hb, rfl⟩⟩

theorem readField_eq_ok_iff {operands : List String} {r : Record} :
    readField operands = .ok r ↔ ∃ human mapped h m, operands = [human, mapped] ∧
      Member.Spelled human none h ∧ Member.Spelled mapped none m ∧ r = ofField h m := by
  constructor
  · intro h
    unfold readField at h
    split at h
    · obtain ⟨a, b, hab⟩ := readMembers_eq_ok_iff.1 h
      exact ⟨_, _, a, b, rfl, hab⟩
    · cases h
  · rintro ⟨human, mapped, a, b, rfl, hab⟩
    exact readMembers_eq_ok_iff.2 ⟨a, b, hab⟩

theorem readMethod_eq_ok_iff {strict : Bool} {operands : List String} {r : Record} :
    readMethod strict operands = .ok r ↔ ∃ human humanDescriptor mapped mappedDescriptor h m,
      operands = [human, humanDescriptor, mapped, mappedDescriptor] ∧
      (strict = true →
        MethodType.Accepts humanDescriptor ∧ MethodType.Accepts mappedDescriptor) ∧
      Member.Spelled human (some humanDescriptor) h ∧
      Member.Spelled mapped (some mappedDescriptor) m ∧ r = ofMethod h m := by
  constructor
  · intro h
    unfold readMethod at h
    split at h
    · cases strict with
      | false =>
        obtain ⟨a, b, hab⟩ := readMembers_eq_ok_iff.1 h
        exact ⟨_, _, _, _, a, b, rfl, by simp, hab⟩
      | true =>
        obtain ⟨_, hv, h⟩ := Except.bind_eq_ok_iff.1 h
        obtain ⟨_, hw, h⟩ := Except.bind_eq_ok_iff.1 h
        obtain ⟨a, b, hab⟩ := readMembers_eq_ok_iff.1 h
        exact ⟨_, _, _, _, a, b, rfl,
          fun _ => ⟨checkDescriptor_eq_ok_iff.1 hv, checkDescriptor_eq_ok_iff.1 hw⟩, hab⟩
    · cases h
  · rintro ⟨human, humanDescriptor, mapped, mappedDescriptor, a, b, rfl, valid, hab⟩
    have members := readMembers_eq_ok_iff.2 ⟨a, b, hab⟩
    cases strict with
    | false => exact members
    | true =>
      obtain ⟨hv, hw⟩ := valid rfl
      exact Except.bind_eq_ok_iff.2 ⟨(), checkDescriptor_eq_ok_iff.2 hv,
        Except.bind_eq_ok_iff.2 ⟨(), checkDescriptor_eq_ok_iff.2 hw, members⟩⟩

/-- Reading words accepts exactly the grammar. -/
theorem ofWords_eq_ok_iff {strict : Bool} {words : List String} {r : Record} :
    ofWords strict words = .ok r ↔ Spelled strict words r := by
  constructor
  · intro h
    unfold ofWords at h
    split at h
    · cases h
    · rename_i tag operands
      split at h
      · obtain ⟨human, mapped, rfl, rfl⟩ := readClass_eq_ok_iff.1 h
        subst tag
        exact .ofClass human mapped
      · split at h
        · obtain ⟨human, mapped, a, b, rfl, ha, hb, rfl⟩ := readField_eq_ok_iff.1 h
          subst tag
          exact .ofField ha hb
        · split at h
          · obtain ⟨_, _, _, _, a, b, rfl, valid, ha, hb, rfl⟩ := readMethod_eq_ok_iff.1 h
            subst tag
            exact .ofMethod valid ha hb
          · cases h
            exact .other operands (by simp [tags, *])
  · intro h
    cases h with
    | ofClass human mapped => exact readClass_eq_ok_iff.2 ⟨_, _, rfl, rfl⟩
    | ofField ha hb => exact readField_eq_ok_iff.2 ⟨_, _, _, _, rfl, ha, hb, rfl⟩
    | ofMethod valid ha hb =>
      exact readMethod_eq_ok_iff.2 ⟨_, _, _, _, _, _, rfl, valid, ha, hb, rfl⟩
    | other operands htag =>
      simp only [tags, List.mem_cons, List.not_mem_nil, or_false, not_or] at htag
      simp [ofWords, htag]

end Record
end JvmSymbols
