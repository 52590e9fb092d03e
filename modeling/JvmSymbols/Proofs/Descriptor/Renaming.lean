import JvmSymbols.Descriptor.Renaming
import JvmSymbols.Proofs.Descriptor.RoundTrip

/-! Renaming against parsing. Renaming looks for the next `L` and the next semicolon only, yet on a
descriptor it meets the class names that a parser finds, and replaces each in its place. -/
namespace JvmSymbols

namespace Descriptor

def orSame (f : String → Option String) (name : String) : String := (f name).getD name

namespace Mentions

def push (text : List Char) : Mentions → Mentions
  | plain tail => plain (text ++ tail)
  | unclosed tail => unclosed (text ++ tail)
  | mention lead name rest => mention (text ++ lead) name rest

variable (text : List Char) (ms : Mentions)

@[simp] theorem names_push : (ms.push text).names = ms.names := by cases ms <;> rfl

@[simp] theorem isClosed_push : (ms.push text).isClosed = ms.isClosed := by cases ms <;> rfl

@[simp] theorem render_push (f : String → String) :
    (ms.push text).render f = String.ofList text ++ ms.render f := by
  cases ms <;> simp [push, render, String.ofList_append, String.append_assoc]

theorem run_renderM_noting (f : String → Option String) (noted : List String) :
    (ms.renderM (noting f)).run noted =
      (ms.render (orSame f), noted ++ ms.names) := by
  induction ms generalizing noted with
  | plain text =>
    rw [names, List.append_nil]
    rfl
  | unclosed text =>
    rw [names, List.append_nil]
    rfl
  | mention lead name rest ih =>
    have hrest := ih (noted ++ [name])
    rw [List.append_assoc, List.singleton_append] at hrest
    have hstep : ((mention lead name rest).renderM (noting f)).run noted =
        (fun p => (String.ofList lead ++ "L" ++ orSame f name ++ ";" ++ p.1, p.2))
          ((rest.renderM (noting f)).run (noted ++ [name])) := rfl
    rw [hstep, hrest, render, names]

end Mentions

theorem rename_eq (f : String → Option String) (descriptor : String) :
    rename f descriptor =
      if (mentions descriptor.toList).isClosed then
        .ok ((mentions descriptor.toList).render (orSame f))
      else .error (.invalid descriptor) := rfl

/-- Renaming with a noting replacement is renaming, and notes the names that are looked up. -/
theorem run_renameM_noting (f : String → Option String) (descriptor : String) :
    (renameM (noting f) descriptor).run [] = (rename f descriptor, mentionedNames descriptor) := by
  have hrender := (mentions descriptor.toList).run_renderM_noting f []
  rw [List.nil_append] at hrender
  simp only [renameM, StateT.run_bind, hrender]
  rfl

section Scanning

variable {cs text lead after name rest : List Char}

theorem mentions_eq (cs : List Char) :
    mentions cs =
      match Text.splitFirst 'L' cs with
      | none => .plain cs
      | some (lead, after) =>
        match Text.splitFirst ';' after with
        | none => .unclosed cs
        | some (name, rest) => .mention lead (String.ofList name) (mentions rest) := by
  rw [mentions]
  split
  · rename_i h
    rw [h]
  · rename_i h
    rw [h]
    split <;> rename_i h' <;> simp only [h']

theorem mentions_of_notMem (h : 'L' ∉ cs) : mentions cs = .plain cs := by
  rw [mentions_eq, Text.splitFirst_eq_none_iff.2 h]

theorem mentions_of_unclosed (h : 'L' ∉ lead) (h' : ';' ∉ after) :
    mentions (lead ++ 'L' :: after) = .unclosed (lead ++ 'L' :: after) := by
  rw [mentions_eq, Text.splitFirst_append h]
  simp only [Text.splitFirst_eq_none_iff.2 h']

theorem mentions_of_mention (h : 'L' ∉ lead) (h' : ';' ∉ name) :
    mentions (lead ++ 'L' :: (name ++ ';' :: rest)) =
      .mention lead (String.ofList name) (mentions rest) := by
  rw [mentions_eq, Text.splitFirst_append h]
  simp only [Text.splitFirst_append h']

theorem mentions_append_of_notMem (h : 'L' ∉ text) :
    mentions (text ++ rest) = (mentions rest).push text := by
  cases hopen : Text.splitFirst 'L' rest with
  | none =>
    have hrest := Text.splitFirst_eq_none_iff.1 hopen
    have hall : 'L' ∉ text ++ rest := by simp [h, hrest]
    rw [mentions_of_notMem hall, mentions_of_notMem hrest, Mentions.push]
  | some cut =>
    obtain ⟨lead, after⟩ := cut
    obtain ⟨rfl, hlead⟩ := Text.splitFirst_eq_some_iff.1 hopen
    have hall : 'L' ∉ text ++ lead := by simp [h, hlead]
    cases hclose : Text.splitFirst ';' after with
    | none =>
      have hafter := Text.splitFirst_eq_none_iff.1 hclose
      rw [← List.append_assoc, mentions_of_unclosed hall hafter, mentions_of_unclosed hlead hafter,
        Mentions.push, List.append_assoc]
    | some cut =>
      obtain ⟨name, tail⟩ := cut
      obtain ⟨rfl, hname⟩ := Text.splitFirst_eq_some_iff.1 hclose
      rw [← List.append_assoc, mentions_of_mention hall hname, mentions_of_mention hlead hname,
        Mentions.push]

/-- The text is scanned on its own: whatever follows it, its mentions are `names`, it ends outside of a
mention, and with names written by `f` it becomes `spelled f`. -/
structure Scans (text : List Char) (names : List String) (spelled : (String → String) → String) :
    Prop where
  names_append : ∀ rest, (mentions (text ++ rest)).names = names ++ (mentions rest).names
  isClosed_append : ∀ rest, (mentions (text ++ rest)).isClosed = (mentions rest).isClosed
  render_append : ∀ rest f,
    (mentions (text ++ rest)).render f = spelled f ++ (mentions rest).render f

namespace Scans

variable {text' : List Char} {names names' : List String}
  {spelled spelled' : (String → String) → String}

theorem plain (h : 'L' ∉ text) : Scans text [] fun _ => String.ofList text where
  names_append rest := by rw [mentions_append_of_notMem h, Mentions.names_push, List.nil_append]
  isClosed_append rest := by rw [mentions_append_of_notMem h, Mentions.isClosed_push]
  render_append rest f := by rw [mentions_append_of_notMem h, Mentions.render_push]

theorem mention {name : String} (h : ';' ∉ name.toList) :
    Scans ('L' :: (name.toList ++ [';'])) [name] fun f => "L" ++ f name ++ ";" := by
  have hcut (rest : List Char) : mentions ('L' :: (name.toList ++ [';']) ++ rest) =
      .mention [] name (mentions rest) := by
    have hmention : mentions ([] ++ 'L' :: (name.toList ++ ';' :: rest)) =
        .mention [] (String.ofList name.toList) (mentions rest) := mentions_of_mention (by simp) h
    rw [String.ofList_toList] at hmention
    simpa using hmention
  constructor
  · intro rest
    rw [hcut]
    rfl
  · intro rest
    rw [hcut]
    rfl
  · intro rest f
    rw [hcut, Mentions.render]
    simp

theorem append (h : Scans text names spelled) (h' : Scans text' names' spelled') :
    Scans (text ++ text') (names ++ names') fun f => spelled f ++ spelled' f where
  names_append rest := by
    rw [List.append_assoc, h.names_append, h'.names_append, List.append_assoc]
  isClosed_append rest := by rw [List.append_assoc, h.isClosed_append, h'.isClosed_append]
  render_append rest f := by
    rw [List.append_assoc, h.render_append, h'.render_append, String.append_assoc]

theorem nil : Scans [] [] fun _ => "" := plain (by simp)

/-- A whole text that is scanned on its own is renamed, and its names are what is looked up. -/
theorem rename_eq_ok {descriptor : String} (h : Scans descriptor.toList names spelled)
    (f : String → Option String) :
    rename f descriptor = .ok (spelled (orSame f)) ∧ mentionedNames descriptor = names := by
  have hempty : mentions [] = .plain [] := mentions_of_notMem (by simp)
  have hnames := h.names_append []
  have hclosed := h.isClosed_append []
  have hrender := h.render_append [] (orSame f)
  rw [List.append_nil, hempty] at hnames hclosed hrender
  constructor
  · rw [Descriptor.rename_eq, hclosed, hrender, Mentions.render, String.ofList_nil, String.append_empty]
    rfl
  · rw [mentionedNames, hnames, Mentions.names, List.append_nil]

end Scans

end Scanning

end Descriptor

open Descriptor (Scans)

theorem JType.scans {t : JType} (h : ∀ name ∈ t.names, ClassName.IsHoldable name) :
    Scans t.verbatim.toList t.names fun f => t.spell f := by
  unfold verbatim
  induction t with
  | primitive kind =>
    have hletter : 'L' ∉ [kind.letter] := by cases kind <;> decide
    rw [toList_spell_primitive]
    exact .plain hletter
  | array t ih =>
    have hbracket : 'L' ∉ ['['] := by decide
    rw [toList_spell_array]
    exact (Scans.plain hbracket).append (ih h)
  | object name =>
    rw [toList_spell_object]
    exact .mention (h name (by simp [names])).semicolon

namespace MethodType

theorem scans_params {ts : List JType} (h : ∀ t ∈ ts, t.WellFormed) :
    Scans (ts.flatMap fun t => t.verbatim.toList) (ts.flatMap JType.names)
      fun f => String.join (ts.map (JType.spell f)) := by
  induction ts with
  | nil => exact .nil
  | cons t ts ih =>
    rw [List.forall_mem_cons] at h
    have happend := (JType.scans h.1.isHoldable).append (ih h.2)
    simpa [String.join_cons] using happend

theorem WellFormed.scans {m : MethodType} (h : m.WellFormed) :
    Scans m.verbatim.toList m.names fun f => m.spell f := by
  have hopen : 'L' ∉ ['('] := by decide
  have hclose : 'L' ∉ [')'] := by decide
  have hparams := scans_params h.params
  have hresult := JType.scans h.result.isHoldable
  have happend := ((Scans.plain hopen).append hparams).append ((Scans.plain hclose).append hresult)
  rw [toList_verbatim]
  simpa [names, spell, String.append_assoc] using happend

end MethodType

namespace JType

theorem mapNames_mapNames (f g : String → String) (t : JType) :
    (t.mapNames f).mapNames g = t.mapNames (g ∘ f) := by
  induction t with
  | primitive kind => rfl
  | array t ih => rw [mapNames, mapNames, mapNames, ih]
  | object name => rfl

/-- All of a type but its class name: the primitive, and the dimensions around it. -/
def shape (t : JType) : JType := t.mapNames fun _ => ""

theorem shape_mapNames (f : String → String) (t : JType) : (t.mapNames f).shape = t.shape :=
  mapNames_mapNames f _ t

end JType

theorem MethodType.params_shape_mapNames (f : String → String) (m : MethodType) :
    (m.mapNames f).params.map JType.shape = m.params.map JType.shape := by
  rw [mapNames, List.map_map]
  exact List.map_congr_left fun t _ => t.shape_mapNames f

theorem Descriptor.isHoldable_orSame {f : String → Option String} {name : String}
    (h : ClassName.IsHoldable name) (hf : ∀ name' ∈ f name, ClassName.IsHoldable name') :
    ClassName.IsHoldable (orSame f name) := by
  unfold orSame
  cases hname : f name with
  | none => exact h
  | some name' => exact hf name' hname

/-- On what a parser accepts, renaming looks up the class names that were parsed, each once and from left
to right, and gives the spelling of the parsed type with these names replaced. If the replacements can
stand in a descriptor, that spelling is parsed as the type of the same shape with the new names. -/
theorem Descriptor.rename_of_parse (f : String → Option String) (descriptor : String) :
    (∀ t, JType.parse descriptor = .ok t →
      rename f descriptor = .ok (t.spell (orSame f)) ∧
      (renameM (noting f) descriptor).run [] = (.ok (t.spell (orSame f)), t.names) ∧
      ((∀ name ∈ t.names, ∀ name' ∈ f name, ClassName.IsHoldable name') →
        JType.parse (t.spell (orSame f)) = .ok (t.mapNames (orSame f)) ∧
        (t.mapNames (orSame f)).shape = t.shape)) ∧
    ∀ m, MethodType.parse descriptor = .ok m →
      rename f descriptor = .ok (m.spell (orSame f)) ∧
      (renameM (noting f) descriptor).run [] = (.ok (m.spell (orSame f)), m.names) ∧
      ((∀ name ∈ m.names, ∀ name' ∈ f name, ClassName.IsHoldable name') →
        MethodType.parse (m.spell (orSame f)) = .ok (m.mapNames (orSame f)) ∧
        (m.mapNames (orSame f)).params.map JType.shape = m.params.map JType.shape ∧
        (m.mapNames (orSame f)).result.shape = m.result.shape) := by
  constructor
  · intro t h
    obtain ⟨hwell, rfl⟩ := JType.parse_eq_ok_iff.1 h
    obtain ⟨hrename, hnames⟩ := (JType.scans hwell.isHoldable).rename_eq_ok f
    refine ⟨hrename, ?_, fun hf => ⟨JType.parse_spell hwell fun name hname => ?_, t.shape_mapNames _⟩⟩
    · rw [run_renameM_noting, hrename, hnames]
    · exact isHoldable_orSame (hwell.isHoldable name hname) (hf name hname)
  · intro m h
    obtain ⟨hwell, rfl⟩ := MethodType.parse_eq_ok_iff.1 h
    obtain ⟨hrename, hnames⟩ := hwell.scans.rename_eq_ok f
    refine ⟨hrename, ?_, fun hf => ⟨MethodType.parse_spell hwell fun name hname => ?_,
      m.params_shape_mapNames _, m.result.shape_mapNames _⟩⟩
    · rw [run_renameM_noting, hrename, hnames]
    · exact isHoldable_orSame (hwell.isHoldable name hname) (hf name hname)

/-- A name with the letter that opens mentions is renamed wherever it stands, and one that has no
replacement stays. -/
theorem Descriptor.rename_of_parse_sample :
    let f : String → Option String := fun name => if name = "a/L" then some "x.Y" else none
    rename f "[La/L;" = .ok "[Lx.Y;" ∧
    JType.parse "[Lx.Y;" = .ok (.array (.object "x.Y")) ∧
    (renameM (noting f) "(ILa/L;[L(;)La/L;").run [] =
      (.ok "(ILx.Y;[L(;)Lx.Y;", ["a/L", "(", "a/L"]) ∧
    MethodType.parse "(ILx.Y;[L(;)Lx.Y;" =
      .ok ⟨[.primitive .int, .object "x.Y", .array (.object "(")], .object "x.Y"⟩ := by
  intro f
  obtain ⟨hfield, _⟩ := rename_of_parse f "[La/L;"
  obtain ⟨_, hmethod⟩ := rename_of_parse f "(ILa/L;[L(;)La/L;"
  obtain ⟨hrename, _, hparse⟩ := hfield (.array (.object "a/L"))
    (JType.parse_eq_ok_iff.2 ⟨by decide, by decide⟩)
  obtain ⟨_, hrun, hparse'⟩ :=
    hmethod ⟨[.primitive .int, .object "a/L", .array (.object "(")], .object "a/L"⟩
      (MethodType.parse_eq_ok_iff.2 ⟨by decide, by decide⟩)
  refine ⟨hrename, (hparse ?_).1, hrun, (hparse' ?_).1⟩
  · decide
  · decide

end JvmSymbols
