import Mathlib.Order.Bounds.Basic
import JvmSymbols.Logging.Filter
import JvmSymbols.Proofs.Text.Words

/-! Which filter the settings and the environment give together. A faulty text of the one does not hide
the other, and two texts without fault reach the more verbose of their levels. Of what reads the texts only
that it goes piece by piece is used. -/
namespace JvmSymbols

namespace Level

/-- The greater of two levels lets more through. -/
instance : LinearOrder Level := LinearOrder.lift' rank fun _ _ => rank_injective

theorem max_eq_sup (l m : Level) : l.max m = l ⊔ m := by cases l <;> cases m <;> rfl

@[simp] theorem off_max (l : Level) : off.max l = l := by cases l <;> rfl

end Level

namespace Filter

/-- A comma belongs to no piece and separates the pieces around it. -/
theorem pieces_append_comma (s t : String) : pieces (s ++ "," ++ t) = pieces s ++ pieces t := by
  have hlist : (s ++ "," ++ t).toList = s.toList ++ ',' :: t.toList := by
    simp [String.toList_append]
  rw [pieces, hlist, List.splitOn, List.splitOnP_append_cons _ _ (by simp), List.filter_append]
  rfl

theorem pieces_append_comma_ne_nil {s : String} (h : pieces s ≠ []) (t : String) :
    pieces (s ++ "," ++ t) ≠ [] := by
  rw [pieces_append_comma]
  exact List.append_ne_nil_of_left_ne_nil h _

end Filter

namespace FilterLanguage

variable {φ : Type} {language : FilterLanguage φ} {piece? : List Char → Option Level}

def named (piece? : List Char → Option Level) (text : String) : Set Level :=
  {l | ∃ piece ∈ Filter.pieces text, piece? piece = some l}

theorem named_append_comma (s t : String) :
    named piece? (s ++ "," ++ t) = named piece? s ∪ named piece? t := by
  ext l
  simp only [named, Filter.pieces_append_comma, List.mem_append, Set.mem_ofPred_eq, Set.mem_union,
    or_and_right, exists_or]

/-- Texts are read piece by piece, where `piece?` is the level that a piece names and faulty pieces name
none. Of texts without pieces nothing is said. -/
structure Lawful (language : FilterLanguage φ) (piece? : List Char → Option Level) : Prop where
  isSome_parse? : ∀ text, Filter.pieces text ≠ [] →
    ((language.parse? text).isSome ↔ ∀ piece ∈ Filter.pieces text, (piece? piece).isSome)
  maxLevel_parse? : ∀ text f, Filter.pieces text ≠ [] → language.parse? text = some f →
    IsGreatest (named piece? text) (language.maxLevel f)
  maxLevel_silent : language.maxLevel language.silent = .off
  maxLevel_add : ∀ f l, language.maxLevel (language.add f l) = (language.maxLevel f).max l

namespace Lawful

variable {s t : String} {f g both : φ}

theorem isSome_parse?_append_comma (h : language.Lawful piece?) (hs : Filter.pieces s ≠ [])
    (ht : Filter.pieces t ≠ []) :
    (language.parse? (s ++ "," ++ t)).isSome ↔
      (language.parse? s).isSome ∧ (language.parse? t).isSome := by
  rw [h.isSome_parse? _ (Filter.pieces_append_comma_ne_nil hs t), h.isSome_parse? s hs,
    h.isSome_parse? t ht, Filter.pieces_append_comma, List.forall_mem_append]

theorem maxLevel_parse?_append_comma (h : language.Lawful piece?) (hs : Filter.pieces s ≠ [])
    (ht : Filter.pieces t ≠ []) (hf : language.parse? s = some f) (hg : language.parse? t = some g)
    (hboth : language.parse? (s ++ "," ++ t) = some both) :
    language.maxLevel both = (language.maxLevel f).max (language.maxLevel g) := by
  have hgreatest := h.maxLevel_parse? _ _ (Filter.pieces_append_comma_ne_nil hs t) hboth
  rw [named_append_comma] at hgreatest
  rw [Level.max_eq_sup]
  exact hgreatest.unique ((h.maxLevel_parse? s f hs hf).union (h.maxLevel_parse? t g ht hg))

theorem maxLevel_add_silent (h : language.Lawful piece?) (l : Level) :
    language.maxLevel (language.add language.silent l) = l := by
  rw [h.maxLevel_add, h.maxLevel_silent, Level.off_max]

end Lawful

end FilterLanguage

theorem mapM_eq_some_iff {α β : Type} {f : α → Option β} {xs : List α} {ys : List β} :
    xs.mapM f = some ys ↔ xs.map f = ys.map some := by
  induction xs generalizing ys with
  | nil => cases ys <;> simp
  | cons x xs ih =>
    rw [List.mapM_cons]
    cases ys with
    | nil => cases f x <;> cases xs.mapM f <;> simp
    | cons y ys =>
      rw [List.map_cons, List.map_cons, List.cons.injEq, ← ih]
      cases f x <;> cases xs.mapM f <;> simp

theorem isSome_mapM_iff {α β : Type} {f : α → Option β} {xs : List α} :
    (xs.mapM f).isSome ↔ ∀ x ∈ xs, (f x).isSome := by
  induction xs with
  | nil => simp
  | cons x xs ih =>
    rw [List.forall_mem_cons, ← ih, List.mapM_cons]
    cases f x <;> cases xs.mapM f <;> simp

namespace Filter

theorem isGreatest_foldl (ds : List Directive) (l : Level) :
    IsGreatest (insert l {m | ∃ d ∈ ds, d.level = m})
      (ds.foldl (fun l d => l.max d.level) l) := by
  induction ds generalizing l with
  | nil => simp
  | cons d ds ih =>
    obtain ⟨hmem, hupper⟩ := ih (l.max d.level)
    rw [Level.max_eq_sup] at hmem hupper
    rw [List.foldl_cons, Level.max_eq_sup]
    constructor
    · rcases hmem with hmem | ⟨e, he, hmem⟩
      · rw [hmem]
        rcases le_total l d.level with hle | hle
        · exact .inr ⟨d, List.mem_cons_self, (sup_of_le_right hle).symm⟩
        · exact .inl (sup_of_le_left hle)
      · exact .inr ⟨e, List.mem_cons_of_mem d he, hmem⟩
    · rintro m (rfl | ⟨e, he, rfl⟩)
      · exact le_sup_left.trans (hupper (Set.mem_insert _ _))
      · rcases List.mem_cons.1 he with rfl | he
        · exact le_sup_right.trans (hupper (Set.mem_insert _ _))
        · exact hupper (Set.mem_insert_of_mem _ ⟨e, he, rfl⟩)

theorem isGreatest_maxLevel {f : Filter} (h : f.directives ≠ []) :
    IsGreatest {l | ∃ d ∈ f.directives, d.level = l} f.maxLevel := by
  obtain ⟨d, ds, hds⟩ := List.exists_cons_of_ne_nil h
  have hlevels : {l | ∃ e ∈ d :: ds, e.level = l} = insert d.level {l | ∃ e ∈ ds, e.level = l} := by
    ext l
    simp [eq_comm]
  rw [maxLevel, hds, hlevels, List.foldl_cons, Level.off_max]
  exact isGreatest_foldl ds d.level

def pieceLevel? (piece : List Char) : Option Level := (Directive.ofPiece? piece).map Directive.level

theorem language_lawful : language.Lawful pieceLevel? where
  isSome_parse? text _ := by
    simp [language, parse?, pieceLevel?, isSome_mapM_iff]
  maxLevel_parse? text f hne hf := by
    obtain ⟨ds, hds, rfl⟩ := Option.map_eq_some_iff.1 hf
    rw [mapM_eq_some_iff] at hds
    have hnamed : FilterLanguage.named pieceLevel? text = {l | ∃ d ∈ ds, d.level = l} := by
      ext l
      calc
        (∃ piece ∈ pieces text, pieceLevel? piece = some l)
            ↔ ∃ d? ∈ (pieces text).map Directive.ofPiece?, d?.map Directive.level = some l := by
              simp [pieceLevel?]
        _ ↔ ∃ d ∈ ds, d.level = l := by simp [hds]
    rw [hnamed]
    refine isGreatest_maxLevel fun hnil => hne ?_
    simpa [show ds = [] from hnil] using hds
  maxLevel_silent := rfl
  maxLevel_add f l := by simp [language, maxLevel, List.foldl_append]

end Filter

namespace LogSettings

variable {φ : Type} {language : FilterLanguage φ} {piece? : List Char → Option Level} {s : LogSettings}
  {environment : Option String}

theorem normalizeLevel_of_mem :
    ∀ name ∈ ["trace", "debug", "info", "warn", "error"], normalizeLevel name = name := by
  decide +kernel

theorem normalizeLevel_normalizeLevel (text : String) :
    normalizeLevel (normalizeLevel text) = normalizeLevel text := by
  -- The first three cases end in one of the five names. The fourth ends in a text without blanks around
  -- it, for which the same tests fail again.
  by_cases hnothing : (Text.trim text).toLower = ""
  · have hinfo : normalizeLevel text = "info" := by rw [normalizeLevel, if_pos hnothing]
    rw [hinfo]
    exact normalizeLevel_of_mem _ (by simp)
  by_cases hwarning : (Text.trim text).toLower = "warning"
  · have hwarn : normalizeLevel text = "warn" := by
      rw [normalizeLevel, if_neg hnothing, if_pos hwarning]
    rw [hwarn]
    exact normalizeLevel_of_mem _ (by simp)
  by_cases hbare : (Text.trim text).toLower ∈ ["trace", "debug", "info", "warn", "error"]
  · have hlower : normalizeLevel text = (Text.trim text).toLower := by
      rw [normalizeLevel, if_neg hnothing, if_neg hwarning, if_pos hbare]
    rw [hlower]
    exact normalizeLevel_of_mem _ hbare
  · have htrim : normalizeLevel text = Text.trim text := by
      rw [normalizeLevel, if_neg hnothing, if_neg hwarning, if_neg hbare]
    rw [htrim, normalizeLevel, Text.trim_trim, if_neg hnothing, if_neg hwarning, if_neg hbare]

def ownFilter? (s : LogSettings) (language : FilterLanguage φ) : Option φ :=
  language.parse? (normalizeLevel s.level)

def askedFilter? (language : FilterLanguage φ) (environment : Option String) : Option φ :=
  (asked? environment).bind language.parse?

/-- The most verbose level of two filters together, of which either may be missing. -/
def merged : Option Level → Option Level → Level
  | some l, some m => l.max m
  | some l, none => l
  | none, some m => m
  | none, none => .info

theorem filterIn_of_asked?_eq_none (h : asked? environment = none) :
    s.filterIn language environment =
      (s.ownFilter? language).getD (language.add language.silent .info) := by
  simp only [filterIn, filterTexts, h, List.findSome?_singleton, ownFilter?]

/-- The two texts together are tried first, then that of the environment, then that of the settings. -/
theorem filterIn_of_asked?_eq_some {text : String} (h : asked? environment = some text) :
    s.filterIn language environment =
      ((language.parse? (normalizeLevel s.level ++ "," ++ text)).or
        ((language.parse? text).or (s.ownFilter? language))).getD
          (language.add language.silent .info) := by
  simp only [filterIn, filterTexts, h, List.findSome?_cons, List.findSome?_nil, ownFilter?]
  cases language.parse? (normalizeLevel s.level ++ "," ++ text) <;> cases language.parse? text <;>
    cases language.parse? (normalizeLevel s.level) <;> rfl

section Lawful

variable (h : language.Lawful piece?) (hlevel : Filter.pieces (normalizeLevel s.level) ≠ [])
  (hasked : ∀ text, asked? environment = some text → Filter.pieces text ≠ [])

include h hlevel hasked

/-- A faulty text spoils both together, and then each is tried by itself. -/
theorem filterIn_eq_getD
    (hfaulty : s.ownFilter? language = none ∨ askedFilter? language environment = none) :
    s.filterIn language environment =
      ((askedFilter? language environment).or (s.ownFilter? language)).getD
        (language.add language.silent .info) := by
  cases hgiven : asked? environment with
  | none =>
    rw [filterIn_of_asked?_eq_none hgiven, askedFilter?, hgiven, Option.bind_none, Option.none_or]
  | some text =>
    rw [askedFilter?, hgiven, Option.bind_some] at hfaulty ⊢
    have htogether : language.parse? (normalizeLevel s.level ++ "," ++ text) = none := by
      rw [← Option.not_isSome_iff_eq_none,
        h.isSome_parse?_append_comma hlevel (hasked text hgiven)]
      rw [ownFilter?] at hfaulty
      rcases hfaulty with hfaulty | hfaulty <;> simp [hfaulty]
    rw [filterIn_of_asked?_eq_some hgiven, htogether, Option.none_or]

theorem maxLevel_filterIn_of_both {f g : φ} (hf : s.ownFilter? language = some f)
    (hg : askedFilter? language environment = some g) :
    language.maxLevel (s.filterIn language environment) =
      (language.maxLevel f).max (language.maxLevel g) := by
  obtain ⟨text, hgiven, hparse⟩ := Option.bind_eq_some_iff.1 hg
  have hne := hasked text hgiven
  have hsome : (language.parse? (normalizeLevel s.level ++ "," ++ text)).isSome := by
    rw [h.isSome_parse?_append_comma hlevel hne, ← ownFilter?, hf, hparse]
    exact ⟨rfl, rfl⟩
  obtain ⟨both, hboth⟩ := Option.isSome_iff_exists.1 hsome
  rw [filterIn_of_asked?_eq_some hgiven, hboth, Option.some_or, Option.getD_some]
  exact h.maxLevel_parse?_append_comma hlevel hne hf hparse hboth

theorem maxLevel_filterIn :
    language.maxLevel (s.filterIn language environment) =
      merged ((s.ownFilter? language).map language.maxLevel)
        ((askedFilter? language environment).map language.maxLevel) := by
  cases hown : s.ownFilter? language with
  | none =>
    rw [filterIn_eq_getD h hlevel hasked (.inl hown), hown, Option.or_none]
    cases askedFilter? language environment with
    | none => exact h.maxLevel_add_silent .info
    | some g => rfl
  | some f =>
    cases hgiven : askedFilter? language environment with
    | none => rw [filterIn_eq_getD h hlevel hasked (.inr hgiven), hgiven, hown]; rfl
    | some g => rw [maxLevel_filterIn_of_both h hlevel hasked hown hgiven]; rfl

end Lawful

/-- The filter is as verbose as the more verbose of the two texts, or as the only one without fault. A faulty
text of the environment changes nothing, a faulty text of the settings does not hide one of the
environment, and beside settings without fault no environment makes the filter less verbose. -/
theorem filterIn_merges (h : language.Lawful piece?)
    (hlevel : Filter.pieces (normalizeLevel s.level) ≠ [])
    (hasked : ∀ text, asked? environment = some text → Filter.pieces text ≠ []) :
    language.maxLevel (s.filterIn language environment) =
      merged ((s.ownFilter? language).map language.maxLevel)
        ((askedFilter? language environment).map language.maxLevel) ∧
    (askedFilter? language environment = none →
      s.filterIn language environment = s.filterIn language none) ∧
    (∀ g, s.ownFilter? language = none → askedFilter? language environment = some g →
      s.filterIn language environment = g) ∧
    ((s.ownFilter? language).isSome →
      language.maxLevel (s.filterIn language none) ≤
        language.maxLevel (s.filterIn language environment)) ∧
    ∀ text, normalizeLevel (normalizeLevel text) = normalizeLevel text := by
  have halone : s.filterIn language none =
      (s.ownFilter? language).getD (language.add language.silent .info) :=
    filterIn_of_asked?_eq_none rfl
  refine ⟨maxLevel_filterIn h hlevel hasked, fun hfaulty => ?_, fun g hown hg => ?_, fun hown => ?_,
    normalizeLevel_normalizeLevel⟩
  · rw [filterIn_eq_getD h hlevel hasked (.inr hfaulty), hfaulty, Option.none_or, halone]
  · rw [filterIn_eq_getD h hlevel hasked (.inl hown), hg, Option.some_or, Option.getD_some]
  · obtain ⟨f, hf⟩ := Option.isSome_iff_exists.1 hown
    rw [maxLevel_filterIn h hlevel hasked, halone, hf, Option.getD_some, Option.map_some]
    cases (askedFilter? language environment).map language.maxLevel with
    | none => exact le_rfl
    | some m =>
      rw [merged, Level.max_eq_sup]
      exact le_sup_left

theorem filterIn_merges_warning :
    Filter.language.maxLevel
      (LogSettings.filterIn { level := " Warning " } Filter.language (some " app=trace,web=off ")) =
        .trace := by
  have hlevel : Filter.pieces (normalizeLevel " Warning ") ≠ [] := by decide +kernel
  have hgiven : asked? (some " app=trace,web=off ") = some "app=trace,web=off" := by decide +kernel
  have hasked (text : String) (htext : asked? (some " app=trace,web=off ") = some text) :
      Filter.pieces text ≠ [] := by
    obtain rfl := Option.some.inj (hgiven.symm.trans htext)
    decide +kernel
  obtain ⟨hlevels, -⟩ := filterIn_merges (s := { level := " Warning " }) Filter.language_lawful
    hlevel hasked
  have hown : ownFilter? { level := " Warning " } Filter.language = some ⟨[⟨none, .warn⟩]⟩ := by
    decide +kernel
  have hother : askedFilter? Filter.language (some " app=trace,web=off ") =
      some ⟨[⟨some "app", .trace⟩, ⟨some "web", .off⟩]⟩ := by decide +kernel
  rw [hlevels, hown, hother]
  decide

end LogSettings
end JvmSymbols
