import JvmSymbols.Proofs.ClassName
import JvmSymbols.Proofs.Mapping.Grammar
import Mathlib.Order.Defs.LinearOrder

/-! Members: their order, which is transitive and in which only a member itself compares equal to it, and their
spellings. An operand is cut at its last slash and a mention at its first parenthesis; what
is between owner and name in the one and between name and descriptor in the other is given apart in the
third. Where the cut falls between the parts of a member, all three spell it. -/
namespace JvmSymbols
namespace Member

instance : Std.TransOrd Member :=
  inferInstanceAs (Std.TransCmp
    (compareLex (compareOn owner) (compareLex (compareOn name) (compareOn descriptor))))

instance : Std.LawfulEqOrd Member where
  eq_of_compare {m n} h := by
    have hparts : (Ord.compare m.owner n.owner).then
        ((Ord.compare m.name n.name).then (Ord.compare m.descriptor n.descriptor)) = .eq := h
    simp only [Ordering.then_eq_eq, Std.LawfulEqOrd.compare_eq_iff_eq] at hparts
    cases m
    cases n
    simpa using hparts

variable {owner name mention : String} {descriptor : Option String} {m : Member}

/-- The mention of a member: its name and the descriptor, which goes from the first parenthesis on. -/
structure MentionedBy (owner mention : String) (m : Member) : Prop where
  owner_eq : m.owner = ClassName.toBinary owner
  mention_eq : mention = m.name ++ m.descriptor.getD ""
  name : '(' ∉ m.name.toList
  descriptor : ∀ d ∈ m.descriptor, ∃ rest, d = "(" ++ rest

theorem ofMention_of_notMem (h : '(' ∉ mention.toList) :
    ofMention owner mention = ⟨ClassName.toBinary owner, mention, none⟩ := by
  rw [ofMention, Text.splitFirst_eq_none_iff.2 h]

theorem ofMention_append (h : '(' ∉ name.toList) (rest : String) :
    ofMention owner (name ++ ("(" ++ rest)) = ⟨ClassName.toBinary owner, name, some ("(" ++ rest)⟩ := by
  have hchars : (name ++ ("(" ++ rest)).toList = name.toList ++ '(' :: rest.toList := by simp
  have hparen : String.ofList ('(' :: rest.toList) = "(" ++ rest := by
    rw [← String.toList_inj]
    simp
  rw [ofMention, hchars, Text.splitFirst_append h]
  simp only [String.ofList_toList, hparen]

theorem mentionedBy_ofMention (owner mention : String) :
    MentionedBy owner mention (ofMention owner mention) := by
  cases hsplit : Text.splitFirst '(' mention.toList with
  | none =>
    have hparen := Text.splitFirst_eq_none_iff.1 hsplit
    rw [ofMention_of_notMem hparen]
    exact ⟨rfl, by simp, hparen, by simp⟩
  | some cut =>
    obtain ⟨front, rest⟩ := cut
    obtain ⟨hchars, hparen⟩ := Text.splitFirst_eq_some_iff.1 hsplit
    have hmention : mention = String.ofList front ++ ("(" ++ String.ofList rest) := by
      rw [← String.toList_inj, hchars]
      simp
    have hname : '(' ∉ (String.ofList front).toList := by simpa using hparen
    rw [hmention, ofMention_append hname]
    exact ⟨rfl, by simp, hname, by simp⟩

theorem ofMention_eq_iff : ofMention owner mention = m ↔ MentionedBy owner mention m := by
  constructor
  · rintro rfl
    exact mentionedBy_ofMention owner mention
  · intro h
    obtain ⟨memberOwner, memberName, memberDescriptor⟩ := m
    obtain ⟨rfl, rfl, hname, hdescriptor⟩ := h
    cases memberDescriptor with
    | none =>
      have hmention : ofMention owner memberName = ⟨ClassName.toBinary owner, memberName, none⟩ :=
        ofMention_of_notMem hname
      simpa using hmention
    | some d =>
      obtain ⟨rest, rfl⟩ := hdescriptor d rfl
      exact ofMention_append hname rest

theorem ofOperand_append (howner : owner ≠ "") (hname : name ≠ "") (hlast : '/' ∉ name.toList)
    (descriptor : Option String) :
    ofOperand (owner ++ "/" ++ name) descriptor =
      some ⟨ClassName.toBinary owner, name, descriptor⟩ :=
  ofOperand_eq_some_iff.2 ⟨owner, name, ⟨rfl, howner, hname, hlast⟩, rfl⟩

/-- An owner, a name and a descriptor make one member as an operand; as a mention they make the same one
exactly if the mention is cut between name and descriptor. The operand of a member is read back, and a member is
shown as it was mentioned. -/
theorem spellings_agree :
    (∀ owner name descriptor, owner ≠ "" → name ≠ "" → '/' ∉ name.toList →
      ofOperand (owner ++ "/" ++ name) descriptor =
        some ⟨ClassName.toBinary owner, name, descriptor⟩ ∧
      (ofMention owner (name ++ descriptor.getD "") = ⟨ClassName.toBinary owner, name, descriptor⟩ ↔
        '(' ∉ name.toList ∧ (descriptor = none ∨ ∃ rest, descriptor = some ("(" ++ rest)))) ∧
    (∀ m : Member, m.owner ≠ "" → '/' ∉ m.owner.toList → m.name ≠ "" → '/' ∉ m.name.toList →
      ofOperand m.operand m.descriptor = some m) ∧
    ∀ owner mention, (ofMention owner mention).display = ClassName.toBinary owner ++ "." ++ mention := by
  refine ⟨fun owner name descriptor howner hname hlast => ⟨?_, ?_⟩, fun m howner hdots hname hlast => ?_,
    fun owner mention => ?_⟩
  · exact ofOperand_append howner hname hlast descriptor
  · rw [ofMention_eq_iff]
    constructor
    · intro h
      refine ⟨h.name, ?_⟩
      cases descriptor with
      | none => exact .inl rfl
      | some d =>
        obtain ⟨rest, rfl⟩ := h.descriptor d rfl
        exact .inr ⟨rest, rfl⟩
    · rintro ⟨hparen, rfl | ⟨rest, rfl⟩⟩
      · exact ⟨rfl, rfl, hparen, by simp⟩
      · exact ⟨rfl, rfl, hparen, by simp⟩
  · have hread := ofOperand_append (ClassName.toInternal_ne_empty howner) hname hlast m.descriptor
    rw [ClassName.toBinary_toInternal, ClassName.toBinary_eq_self hdots] at hread
    exact hread
  · have h := mentionedBy_ofMention owner mention
    rw [display, String.append_assoc, ← h.mention_eq, h.owner_eq]

theorem spellings_agree_nested :
    let m : Member := ⟨"a.b.C$1", "wört.(x", some ")I"⟩
    ("a/b.C$1" ≠ "" ∧ "run.$" ≠ "" ∧ '/' ∉ "run.$".toList) ∧
      ofOperand ("a/b.C$1" ++ "/" ++ "run.$") (some "(La/b;)V") =
        some ⟨ClassName.toBinary "a/b.C$1", "run.$", some "(La/b;)V"⟩ ∧
      ofMention "a/b.C$1" ("run.$" ++ (some "(La/b;)V").getD "") =
        ⟨ClassName.toBinary "a/b.C$1", "run.$", some "(La/b;)V"⟩ ∧
      (m.owner ≠ "" ∧ '/' ∉ m.owner.toList ∧ m.name ≠ "" ∧ '/' ∉ m.name.toList) ∧
      ofOperand m.operand m.descriptor = some m := by
  intro m
  obtain ⟨hspelled, hread, _⟩ := spellings_agree
  have hslash : '/' ∉ "run.$".toList := by decide
  have hparen : '(' ∉ "run.$".toList := by decide
  have howner : '/' ∉ m.owner.toList := by decide
  have hname : '/' ∉ m.name.toList := by decide
  obtain ⟨hoperand, hmention⟩ :=
    hspelled "a/b.C$1" "run.$" (some "(La/b;)V") (by decide) (by decide) hslash
  exact ⟨⟨by decide, by decide, hslash⟩, hoperand, hmention.2 ⟨hparen, .inr ⟨"La/b;)V", rfl⟩⟩,
    ⟨by decide, howner, by decide, hname⟩, hread m (by decide) howner (by decide) hname⟩

end Member
end JvmSymbols
