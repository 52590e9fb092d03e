import JvmSymbols.Proofs.Descriptor.Renaming

/-! Renaming on any text, descriptor or not. Whether a text is renamed and for which names a replacement is
looked up depends on the text alone, a text without replacements stays as it is, and renaming twice is
renaming once with both replacements in turn. -/
namespace JvmSymbols
namespace Descriptor

namespace Mentions

/-- Mentions that a scan has left behind, all of them closed. An `L` opens the mention that it stands before,
and the first semicolon behind it closes it. -/
inductive Closed : Mentions → Prop
  | plain {text : List Char} (h : 'L' ∉ text) : Closed (.plain text)
  | mention {lead : List Char} {name : String} {rest : Mentions} (hlead : 'L' ∉ lead)
    (hname : ';' ∉ name.toList) (hrest : Closed rest) : Closed (.mention lead name rest)

variable {ms : Mentions} {f : String → String}

/-- What was written with names that have no semicolon is scanned into the same mentions again. It does not
matter what else stands in the names, or whether they are empty. -/
theorem Closed.scans (h : Closed ms) (hf : ∀ name ∈ ms.names, ';' ∉ (f name).toList) :
    Scans (ms.render f).toList (ms.names.map f) fun g => ms.render (g ∘ f) := by
  induction h with
  | plain h =>
    have hplain := Scans.plain h
    simpa [render, names] using hplain
  | @mention lead name rest hlead hname hrest ih =>
    have hnames : ∀ other ∈ name :: rest.names, ';' ∉ (f other).toList := hf
    rw [List.forall_mem_cons] at hnames
    have hopen := Scans.plain hlead
    have hclose := Scans.mention hnames.1
    have happend := (hopen.append hclose).append (ih hnames.2)
    simpa [render, names, String.append_assoc] using happend

theorem Closed.semicolon_notMem (h : Closed ms) : ∀ name ∈ ms.names, ';' ∉ name.toList := by
  induction h with
  | plain h => simp [names]
  | mention hlead hname hrest ih =>
    rw [names, List.forall_mem_cons]
    exact ⟨hname, ih⟩

end Mentions

section Scanning

variable {cs : List Char}

theorem closed_mentions (h : (mentions cs).isClosed = true) : (mentions cs).Closed := by
  fun_induction mentions cs with
  | case1 cs hopen => exact .plain (Text.splitFirst_eq_none_iff.1 hopen)
  | case2 cs lead after hopen hclose => simp [Mentions.isClosed] at h
  | case3 cs lead after hopen name rest hclose ih =>
    have hlead := (Text.splitFirst_eq_some_iff.1 hopen).2
    have hname := (Text.splitFirst_eq_some_iff.1 hclose).2
    exact .mention hlead (by simpa using hname) (ih h)

theorem render_mentions (cs : List Char) : (mentions cs).render id = String.ofList cs := by
  fun_induction mentions cs with
  | case1 cs hopen => rfl
  | case2 cs lead after hopen hclose => rfl
  | case3 cs lead after hopen name rest hclose ih =>
    have htext := (Text.splitFirst_eq_some_iff.1 hopen).1
    have hafter := (Text.splitFirst_eq_some_iff.1 hclose).1
    rw [Mentions.render, ih, htext, hafter, ← String.toList_inj]
    simp

end Scanning

/-- A replacement that goes by the names it was asked for before. It notes them in its state. -/
def recalling (f : List String → String → Option String) (name : String) :
    StateM (List String) (Option String) := do
  let asked ← get
  set (asked ++ [name])
  return f asked name

theorem Mentions.names_renderM_recalling (f : List String → String → Option String) (ms : Mentions)
    (asked : List String) : ((ms.renderM (recalling f)).run asked).2 = asked ++ ms.names := by
  induction ms generalizing asked with
  | plain text => exact (List.append_nil asked).symm
  | unclosed text => exact (List.append_nil asked).symm
  | mention lead name rest ih =>
    have hstep : (((mention lead name rest).renderM (recalling f)).run asked).2 =
        ((rest.renderM (recalling f)).run (asked ++ [name])).2 := rfl
    rw [hstep, ih, names, List.append_assoc, List.singleton_append]

theorem run_renameM_recalling (f : List String → String → Option String) (descriptor : String) :
    (renameM (recalling f) descriptor).run [] =
      (if (mentions descriptor.toList).isClosed then
        .ok (((mentions descriptor.toList).renderM (recalling f)).run []).1
      else .error (.invalid descriptor), mentionedNames descriptor) := by
  have hnames := (mentions descriptor.toList).names_renderM_recalling f []
  rw [List.nil_append] at hnames
  rw [mentionedNames, ← hnames]
  rfl

variable {descriptor e : String} {f g : String → Option String}

theorem rename_eq_ok_iff :
    rename f descriptor = .ok e ↔
      (mentions descriptor.toList).isClosed = true ∧ e = (mentions descriptor.toList).render (orSame f) := by
  rw [rename_eq]
  by_cases hclosed : (mentions descriptor.toList).isClosed = true
  · simp [hclosed, eq_comm]
  · simp [hclosed]

theorem rename_none (h : (mentions descriptor.toList).isClosed = true) :
    rename (fun _ => none) descriptor = .ok descriptor := by
  have hsame : orSame (fun _ => none) = id := rfl
  rw [rename_eq_ok_iff, hsame, render_mentions]
  exact ⟨h, String.ofList_toList.symm⟩

theorem rename_rename (hf : ∀ name name', f name = some name' → ';' ∉ name'.toList)
    (h : rename f descriptor = .ok e) :
    rename g e = rename (fun name => some (orSame g (orSame f name))) descriptor := by
  obtain ⟨hopen, rfl⟩ := rename_eq_ok_iff.1 h
  have hclosed := closed_mentions hopen
  have hnames : ∀ name ∈ (mentions descriptor.toList).names, ';' ∉ (orSame f name).toList := by
    intro name hname
    unfold orSame
    cases hreplaced : f name with
    | none => exact hclosed.semicolon_notMem name hname
    | some name' => exact hf name name' hreplaced
  have hsecond := ((hclosed.scans hnames).rename_eq_ok g).1
  have hboth : orSame (fun name => some (orSame g (orSame f name))) = orSame g ∘ orSame f := rfl
  rw [hsecond, eq_comm, rename_eq_ok_iff, hboth]
  exact ⟨hopen, rfl⟩

/-- On any text, neither what the replacement gives nor what it remembers decides whether the text is renamed and
which names it is asked for. Renaming without replacements changes nothing, and renaming what was renamed is
renaming with the one replacement after the other, as long as the first puts no semicolon into a name. -/
theorem rename_functorial (descriptor : String) :
    (∀ f f' : List String → String → Option String,
      ((∃ e, ((renameM (recalling f) descriptor).run []).1 = .ok e) ↔
        ∃ e, ((renameM (recalling f') descriptor).run []).1 = .ok e) ∧
      ((renameM (recalling f) descriptor).run []).2 = ((renameM (recalling f') descriptor).run []).2) ∧
    (∀ f : String → Option String,
      (renameM (recalling fun _ => f) descriptor).run [] = (rename f descriptor, mentionedNames descriptor)) ∧
    (∀ (f : String → Option String) (e : String), rename f descriptor = .ok e →
      rename (fun _ => none) descriptor = .ok descriptor) ∧
    ∀ (f g : String → Option String) (e : String),
      (∀ name name', f name = some name' → ';' ∉ name'.toList) → rename f descriptor = .ok e →
        rename g e = rename (fun name => some (orSame g (orSame f name))) descriptor := by
  refine ⟨fun f f' => ?_, fun f => ?_, fun f e h => ?_, fun f g e hf h => ?_⟩
  · have hsucceeds (f : List String → String → Option String) :
        (∃ e, ((renameM (recalling f) descriptor).run []).1 = .ok e) ↔
          (mentions descriptor.toList).isClosed = true := by
      rw [run_renameM_recalling]
      by_cases hclosed : (mentions descriptor.toList).isClosed = true <;> simp [hclosed]
    constructor
    · rw [hsucceeds f, hsucceeds f']
    · rw [run_renameM_recalling, run_renameM_recalling]
  · exact run_renameM_noting f descriptor
  · exact rename_none (rename_eq_ok_iff.1 h).1
  · exact rename_rename hf h

/-- A text that is no descriptor. The first replacement empties a name and puts an opening letter into another,
and the second splits a name in two. -/
theorem rename_functorial_sample :
    let f : String → Option String := fun name =>
      if name = "(" then some "" else if name = "a/L" then some "L[" else none
    let g : String → Option String := fun name => if name = "" then some "b;c" else none
    (∀ name name', f name = some name' → ';' ∉ name'.toList) ∧
      rename f "xL(;;La/L;LV;L" = .error (.invalid "xL(;;La/L;LV;L") ∧
      rename f "xL(;;La/L;LV;" = .ok "xL;;LL[;LV;" ∧
      rename (fun _ => none) "xL(;;La/L;LV;" = .ok "xL(;;La/L;LV;" ∧
      rename g "xL;;LL[;LV;" = rename (fun name => some (orSame g (orSame f name))) "xL(;;La/L;LV;" ∧
      rename g "xL;;LL[;LV;" = .ok "xLb;c;;LL[;LV;" := by
  intro f g
  have hf : ∀ name name', f name = some name' → ';' ∉ name'.toList := by
    intro name name' h
    by_cases hempty : name = "("
    · obtain rfl : "" = name' := by simpa [f, hempty] using h
      decide
    · by_cases hopening : name = "a/L"
      · obtain rfl : "L[" = name' := by simpa [f, hopening] using h
        decide
      · simp [f, hempty, hopening] at h
  have hunclosed : ¬ (mentions "xL(;;La/L;LV;L".toList).isClosed = true := by decide +kernel
  have hfirst : rename f "xL(;;La/L;LV;" = .ok "xL;;LL[;LV;" :=
    rename_eq_ok_iff.2 ⟨by decide +kernel, by decide +kernel⟩
  have hsecond : rename g "xL;;LL[;LV;" = .ok "xLb;c;;LL[;LV;" :=
    rename_eq_ok_iff.2 ⟨by decide +kernel, by decide +kernel⟩
  obtain ⟨_, _, hnone, htwice⟩ := rename_functorial "xL(;;La/L;LV;"
  exact ⟨hf, by rw [rename_eq, if_neg hunclosed], hfirst, hnone f _ hfirst, htwice f g _ hf hfirst, hsecond⟩

end Descriptor
end JvmSymbols
