import JvmSymbols.Descriptor.Parser
import JvmSymbols.Proofs.ClassName
import JvmSymbols.Proofs.Except

/-! The readers of descriptors against the spelling of types. Reading takes a type off the front of a
text exactly if the text goes on from the spelling of that type, so nothing is lost and no text has
two readings. -/
namespace JvmSymbols

theorem Primitive.ofLetter_eq_some_iff {c : Char} {kind : Primitive} :
    ofLetter c = some kind ↔ kind ≠ void ∧ kind.letter = c := by
  constructor
  · intro h
    have hc := List.find?_some h
    simpa using hc
  · rintro ⟨hkind, rfl⟩
    exact ofLetter_letter kind hkind

namespace JType

/-- A type that can stand in a field: its innermost component is a primitive that has values, or a class
whose name a descriptor can hold. -/
def WellFormed : JType → Prop
  | primitive kind => kind ≠ .void
  | array t => t.WellFormed
  | object name => ClassName.IsHoldable name

instance WellFormed.decidable : DecidablePred WellFormed
  | primitive kind => inferInstanceAs (Decidable (kind ≠ .void))
  | array t => WellFormed.decidable t
  | object name => inferInstanceAs (Decidable (ClassName.IsHoldable name))

def IsResult (t : JType) : Prop := t = primitive .void ∨ t.WellFormed

instance : DecidablePred IsResult := fun t =>
  inferInstanceAs (Decidable (t = primitive .void ∨ t.WellFormed))

def names : JType → List String
  | primitive _ => []
  | array t => t.names
  | object name => [name]

def mapNames (f : String → String) : JType → JType
  | primitive kind => primitive kind
  | array t => array (t.mapNames f)
  | object name => object (f name)

/-- The spelling that leaves class names as they are. -/
def verbatim (t : JType) : String := t.spell id

section Spelling

variable (f g : String → String) (t : JType)

@[simp] theorem toList_spell_primitive (kind : Primitive) :
    ((primitive kind).spell f).toList = [kind.letter] := by simp [spell]

@[simp] theorem toList_spell_array : ((array t).spell f).toList = '[' :: (t.spell f).toList := by
  simp [spell]

@[simp] theorem toList_spell_object (name : String) :
    ((object name).spell f).toList = 'L' :: ((f name).toList ++ [';']) := by simp [spell]

theorem spell_mapNames : (t.mapNames g).spell f = t.spell (f ∘ g) := by
  induction t with
  | primitive kind => rfl
  | array t ih => rw [mapNames, spell, spell, ih]
  | object name => rfl

theorem verbatim_mapNames : (t.mapNames f).verbatim = t.spell f := spell_mapNames id f t

/-- Only class names hold dots, so making slashes of all dots in a spelling changes nothing else. -/
theorem toInternal_verbatim : ClassName.toInternal t.verbatim = t.descriptor := by
  unfold verbatim descriptor
  induction t with
  | primitive kind =>
    refine ClassName.toInternal_eq_self ?_
    rw [toList_spell_primitive]
    cases kind <;> decide
  | array t ih =>
    have hbracket : ClassName.toInternal "[" = "[" := ClassName.toInternal_eq_self (by simp)
    rw [spell, spell, ClassName.toInternal_append, ih, hbracket]
  | object name =>
    have hopen : ClassName.toInternal "L" = "L" := ClassName.toInternal_eq_self (by simp)
    have hclose : ClassName.toInternal ";" = ";" := ClassName.toInternal_eq_self (by simp)
    rw [spell, spell, ClassName.toInternal_append, ClassName.toInternal_append, hopen, hclose, id]

end Spelling

section Reading

variable {t : JType} {cs rest : List Char}

theorem read_array : read ('[' :: cs) = (read cs).map fun (t, rest) => (array t, rest) := by
  rw [read]

theorem read_object {name : String} (h : ClassName.IsHoldable name) :
    read ('L' :: (name.toList ++ ';' :: rest)) = .ok (object name, rest) := by
  obtain ⟨c, chars, hchars⟩ := List.exists_cons_of_ne_nil (mt String.toList_eq_nil_iff.1 h.ne_empty)
  rw [read, Text.splitFirst_append h.semicolon, hchars]
  simp [← hchars]

theorem read_primitive {kind : Primitive} (h : kind ≠ .void) :
    read (kind.letter :: cs) = .ok (primitive kind, cs) := by
  have ha : kind.letter ≠ '[' := by cases kind <;> decide
  have ho : kind.letter ≠ 'L' := by cases kind <;> decide
  rw [read, Primitive.ofLetter_letter kind h]
  · exact ha
  · exact ho

theorem read_verbatim_append (h : t.WellFormed) (rest : List Char) :
    read (t.verbatim.toList ++ rest) = .ok (t, rest) := by
  unfold verbatim
  induction t with
  | primitive kind =>
    rw [toList_spell_primitive, List.singleton_append, read_primitive h]
  | array t ih =>
    rw [toList_spell_array, List.cons_append, read_array, ih h]
    rfl
  | object name =>
    rw [toList_spell_object, List.cons_append, List.append_assoc, List.singleton_append]
    exact read_object h

theorem eq_verbatim_append_of_read (h : read cs = .ok (t, rest)) :
    t.WellFormed ∧ cs = t.verbatim.toList ++ rest := by
  unfold verbatim
  fun_induction read cs generalizing t rest with
  | case1 => cases h
  | case2 cs ih =>
    obtain ⟨⟨component, after⟩, hread, heq⟩ := Except.map_eq_ok_iff.1 h
    cases heq
    obtain ⟨hwell, hcs⟩ := ih hread
    exact ⟨hwell, by rw [toList_spell_array, List.cons_append, ← hcs]⟩
  | case3 cs c name after hsplit =>
    cases h
    obtain ⟨hcs, hsemi⟩ := Text.splitFirst_eq_some_iff.1 hsplit
    exact ⟨⟨by simp, by simpa using hsemi⟩, by simp [hcs]⟩
  | case4 => cases h
  | case5 c cs ha ho kind hkind =>
    cases h
    obtain ⟨hvoid, rfl⟩ := Primitive.ofLetter_eq_some_iff.1 hkind
    exact ⟨hvoid, by simp⟩
  | case6 => cases h

/-- Reading is the inverse of spelling in front of a text. -/
theorem read_eq_ok_iff :
    read cs = .ok (t, rest) ↔ t.WellFormed ∧ cs = t.verbatim.toList ++ rest := by
  constructor
  · exact eq_verbatim_append_of_read
  · rintro ⟨h, rfl⟩
    exact read_verbatim_append h rest

theorem exists_verbatim_eq_cons (h : t.WellFormed) :
    ∃ c chars, t.verbatim.toList = c :: chars ∧ c ≠ ')' ∧ c ≠ 'V' := by
  cases t with
  | primitive kind =>
    refine ⟨kind.letter, [], toList_spell_primitive id kind, ?_, ?_⟩
    · cases kind <;> decide
    · cases kind
      case void => exact absurd rfl h
      all_goals decide
  | array t => exact ⟨_, _, toList_spell_array id t, by decide, by decide⟩
  | object name => exact ⟨_, _, toList_spell_object id name, by decide, by decide⟩

theorem parse_eq_ok_iff {descriptor : String} :
    parse descriptor = .ok t ↔ t.WellFormed ∧ descriptor = t.verbatim := by
  rw [← String.toList_inj, ← List.append_nil t.verbatim.toList, ← read_eq_ok_iff]
  unfold parse
  constructor
  · intro h
    split at h
    · rename_i hread
      cases h
      exact hread
    · cases h
    · cases h
  · intro h
    rw [h]

end Reading

end JType

namespace MethodType

/-- A method type that a descriptor can spell: only its result may be `void`. -/
structure WellFormed (m : MethodType) : Prop where
  params : ∀ t ∈ m.params, t.WellFormed
  result : m.result.IsResult

instance : DecidablePred WellFormed := fun m =>
  decidable_of_iff ((∀ t ∈ m.params, t.WellFormed) ∧ m.result.IsResult)
    ⟨fun h => ⟨h.1, h.2⟩, fun h => ⟨h.params, h.result⟩⟩

def names (m : MethodType) : List String := m.params.flatMap JType.names ++ m.result.names

def mapNames (f : String → String) (m : MethodType) : MethodType :=
  ⟨m.params.map (JType.mapNames f), m.result.mapNames f⟩

def spell (f : String → String) (m : MethodType) : String :=
  "(" ++ String.join (m.params.map (JType.spell f)) ++ ")" ++ m.result.spell f

def verbatim (m : MethodType) : String := m.spell id

theorem methodDescriptor_eq_spell (params : List JType) (result : Option JType) :
    methodDescriptor params result =
      spell ClassName.toInternal ⟨params, result.getD (.primitive .void)⟩ := rfl

theorem descriptor_eq_spell (m : MethodType) : m.descriptor = m.spell ClassName.toInternal :=
  methodDescriptor_eq_spell m.params (some m.result)

theorem spell_mapNames (f g : String → String) (m : MethodType) :
    (m.mapNames f).spell g = m.spell (g ∘ f) := by
  have hparams : (m.params.map (JType.mapNames f)).map (JType.spell g) =
      m.params.map (JType.spell (g ∘ f)) := by
    rw [List.map_map]
    exact List.map_congr_left fun t _ => t.spell_mapNames g f
  rw [spell, spell, mapNames, hparams, JType.spell_mapNames]

theorem verbatim_mapNames (f : String → String) (m : MethodType) :
    (m.mapNames f).verbatim = m.spell f := spell_mapNames f id m

theorem toList_verbatim (m : MethodType) :
    m.verbatim.toList =
      '(' :: (m.params.flatMap (fun t => t.verbatim.toList) ++ ')' :: m.result.verbatim.toList) := by
  have hjoin : (String.join (m.params.map (JType.spell id))).toList =
      m.params.flatMap (fun t => t.verbatim.toList) := by
    rw [String.toList_join, List.flatMap_map]
    rfl
  simp [verbatim, spell, hjoin, JType.verbatim]

theorem toInternal_verbatim (m : MethodType) : ClassName.toInternal m.verbatim = m.descriptor := by
  have hopen : ClassName.toInternal "(" = "(" := ClassName.toInternal_eq_self (by simp)
  have hclose : ClassName.toInternal ")" = ")" := ClassName.toInternal_eq_self (by simp)
  have hjoin (ts : List JType) : ClassName.toInternal (String.join (ts.map (JType.spell id))) =
      String.join (ts.map (JType.spell ClassName.toInternal)) := by
    induction ts with
    | nil => exact ClassName.toInternal_eq_self (by simp)
    | cons t ts ih =>
      rw [List.map_cons, List.map_cons, String.join_cons, String.join_cons,
        ClassName.toInternal_append, ih, ← JType.verbatim, JType.toInternal_verbatim]
      rfl
  rw [descriptor_eq_spell, verbatim, spell, spell, ClassName.toInternal_append,
    ClassName.toInternal_append, ClassName.toInternal_append, hopen, hclose, hjoin,
    ← JType.verbatim, JType.toInternal_verbatim]
  rfl

section Reading

variable {cs rest : List Char}

theorem readParams_close : readParams (')' :: cs) = some ([], cs) := by
  rw [readParams]
  rfl

theorem readParams_of_ne (h : cs.head? ≠ some ')') :
    readParams cs = (JType.read cs).toOption.bind fun (t, rest) =>
      (readParams rest).map fun (ts, rest) => (t :: ts, rest) := by
  rw [readParams, if_neg h]
  split <;> rename_i hread <;> rw [hread] <;> rfl

theorem readParams_eq_some_iff {ts : List JType} :
    readParams cs = some (ts, rest) ↔ (∀ t ∈ ts, t.WellFormed) ∧
      cs = ts.flatMap (fun t => t.verbatim.toList) ++ ')' :: rest := by
  constructor
  · intro h
    -- The reader goes on with what the first parameter leaves, so the induction is on the length.
    induction hn : cs.length using Nat.strongRecOn generalizing cs ts with
    | _ n ih =>
      subst hn
      by_cases hclose : cs.head? = some ')'
      · obtain ⟨after, rfl⟩ := List.head?_eq_some_iff.1 hclose
        rw [readParams_close] at h
        cases h
        exact ⟨by simp, rfl⟩
      · rw [readParams_of_ne hclose, Option.bind_eq_some_iff] at h
        obtain ⟨⟨t, after⟩, hfirst, h⟩ := h
        have hread := Except.toOption_eq_some_iff.1 hfirst
        rw [Option.map_eq_some_iff] at h
        obtain ⟨⟨ts', after'⟩, hrest, heq⟩ := h
        cases heq
        obtain ⟨hparams, hafter⟩ := ih _ (JType.read_length_lt hread) hrest rfl
        obtain ⟨hwell, hcs⟩ := JType.read_eq_ok_iff.1 hread
        refine ⟨List.forall_mem_cons.2 ⟨hwell, hparams⟩, ?_⟩
        rw [hcs, hafter, List.flatMap_cons, List.append_assoc]
  · rintro ⟨hwell, rfl⟩
    induction ts with
    | nil => exact readParams_close
    | cons t ts ih =>
      rw [List.forall_mem_cons] at hwell
      obtain ⟨c, chars, hchars, hc, _⟩ := JType.exists_verbatim_eq_cons hwell.1
      have hread (rest : List Char) := Except.toOption_eq_some_iff.2 (JType.read_verbatim_append hwell.1 rest)
      rw [List.flatMap_cons, List.append_assoc, readParams_of_ne (by simp [hchars, hc])]
      simp only [hread, Option.bind_some, ih hwell.2, Option.map_some]

theorem readResult_eq_some_iff {t : JType} :
    readResult cs = some (t, rest) ↔ t.IsResult ∧ cs = t.verbatim.toList ++ rest := by
  constructor
  · intro h
    unfold readResult at h
    split at h
    · cases h
      exact ⟨.inl rfl, by simp [JType.verbatim, Primitive.letter]⟩
    · obtain ⟨hwell, hcs⟩ := JType.read_eq_ok_iff.1 (Except.toOption_eq_some_iff.1 h)
      exact ⟨.inr hwell, hcs⟩
  · rintro ⟨rfl | hwell, rfl⟩
    · rw [JType.verbatim, JType.toList_spell_primitive]
      rfl
    · obtain ⟨c, chars, hchars, _, hc⟩ := JType.exists_verbatim_eq_cons hwell
      have hread := Except.toOption_eq_some_iff.2 (JType.read_verbatim_append hwell rest)
      rw [hchars, List.cons_append] at hread ⊢
      rw [readResult]
      · exact hread
      · exact fun _ he => hc (List.cons.inj he).1

theorem read_eq_some_iff {m : MethodType} :
    read cs = some (m, rest) ↔ m.WellFormed ∧ cs = m.verbatim.toList ++ rest := by
  rw [toList_verbatim]
  constructor
  · intro h
    unfold read at h
    split at h
    · rename_i after
      rw [Option.bind_eq_bind, Option.bind_eq_some_iff] at h
      obtain ⟨⟨params, after'⟩, hparams, h⟩ := h
      rw [Option.bind_eq_bind, Option.bind_eq_some_iff] at h
      obtain ⟨⟨result, after''⟩, hresult, h⟩ := h
      cases h
      obtain ⟨hps, rfl⟩ := readParams_eq_some_iff.1 hparams
      obtain ⟨hr, rfl⟩ := readResult_eq_some_iff.1 hresult
      exact ⟨⟨hps, hr⟩, by simp⟩
    · cases h
  · rintro ⟨h, rfl⟩
    have hparams : readParams (m.params.flatMap (fun t => t.verbatim.toList) ++
        ')' :: (m.result.verbatim.toList ++ rest)) =
          some (m.params, m.result.verbatim.toList ++ rest) :=
      readParams_eq_some_iff.2 ⟨h.params, rfl⟩
    have hresult : readResult (m.result.verbatim.toList ++ rest) = some (m.result, rest) :=
      readResult_eq_some_iff.2 ⟨h.result, rfl⟩
    rw [List.cons_append, List.append_assoc, List.cons_append, read, hparams]
    simp only [Option.bind_eq_bind, Option.bind_some, hresult]
    rfl

theorem parse_eq_ok_iff {descriptor : String} {m : MethodType} :
    parse descriptor = .ok m ↔ m.WellFormed ∧ descriptor = m.verbatim := by
  rw [← String.toList_inj, ← List.append_nil m.verbatim.toList, ← read_eq_some_iff]
  unfold parse
  constructor
  · intro h
    split at h
    · rename_i hread
      cases h
      exact hread
    · cases h
  · intro h
    rw [h]

end Reading

end MethodType
end JvmSymbols
