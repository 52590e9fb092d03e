import Mathlib.Data.List.Forall2
import JvmSymbols.Logging.Session

/-! What the first uses of a session's log settle for good. A step settles at most the capacity of the
shared recent lines and the logger, and only where nothing is settled yet; all else that steps do is
writing. -/
namespace JvmSymbols
namespace Session

variable {α : Type} {s : Session}

/-- A session without what has been written in it. -/
structure Setup where
  environment : Option String
  capacities : List Nat
  shared : Option Nat
  logger : Option Logger

def setup (s : Session) : Setup :=
  ⟨s.environment, s.buffers.map RecentLines.capacity, s.shared, s.logger⟩

/-- The setup after somebody has asked for shared recent lines of a capacity and somebody has brought a
logger. What there is stays. -/
def Setup.settle (u : Setup) (asked : Option Nat) (logger : Option Logger) : Setup where
  environment := u.environment
  capacities := if u.shared.isSome then u.capacities else u.capacities ++ asked.toList
  shared := u.shared.or (asked.map fun _ => u.capacities.length)
  logger := u.logger.or logger

def capacity? (s : Session) : Option Nat :=
  s.shared.bind fun r => s.buffers[r]?.map RecentLines.capacity

/-- The logger that settings choose: a log file that cannot be opened is left out. -/
def chosenLogger (files : FileTree) (environment : Option String) (settings : LogSettings)
    (recent : Nat) : Logger where
  filter := settings.filter environment
  json := settings.json
  stderr := settings.stderr
  file := settings.file.bind fun path => (files.openForAppending path).toOption.map Prod.snd
  recent := recent

namespace Step

def isInstall : Step α → Bool
  | .install _ => true
  | _ => false

def handsOut : Step α → Bool
  | .install _ | .touch => true
  | _ => false

/-- How many lines are to be kept if a step is the first to use the recent lines. -/
def asked : Step α → Option Nat
  | .install settings => some (max settings.bufferLines 1)
  | .touch | .push _ | .last _ => some 1000
  | .perform _ => none

end Step

def brought (s : Session) : Step α → Option Logger
  | .install settings =>
    some (chosenLogger s.files s.environment settings (s.share settings.bufferLines).1)
  | _ => none

@[simp] theorem setup_record (r : Nat) (text : String) : (s.record r text).setup = s.setup := by
  have hcapacities : (s.record r text).buffers.map RecentLines.capacity =
      s.buffers.map RecentLines.capacity := by
    apply List.ext_getElem?
    intro i
    by_cases hi : r = i <;> simp [record, hi, Function.comp_def]
  simp only [setup, hcapacities]
  rfl

@[simp] theorem setup_write (l : Logger) (e : Event) : (s.write l e).setup = s.setup :=
  setup_record (s := s) l.recent (l.text e)

@[simp] theorem setup_emit (e : Event) : (s.emit e).setup = s.setup := by
  unfold emit
  split
  · split
    · exact setup_write _ e
    · rfl
  · rfl

@[simp] theorem setup_perform (x : Activity α) : (s.perform x).2.setup = s.setup := by
  induction x generalizing s with
  | done value => rfl
  | emit event next ih => rw [perform, ih, setup_emit]
  | look next ih => exact ih s.files

theorem share_of_shared {r : Nat} (hs : s.shared = some r) (capacity : Nat) :
    s.share capacity = (r, s) := by
  simp only [share, hs]

@[simp] theorem share_files (capacity : Nat) : (s.share capacity).2.files = s.files := by
  cases hs : s.shared <;> simp [share, hs]

@[simp] theorem share_environment (capacity : Nat) :
    (s.share capacity).2.environment = s.environment := by
  cases hs : s.shared <;> simp [share, hs]

@[simp] theorem share_logger (capacity : Nat) : (s.share capacity).2.logger = s.logger := by
  cases hs : s.shared <;> simp [share, hs]

theorem setup_share (capacity : Nat) :
    (s.share capacity).2.setup = s.setup.settle (some (max capacity 1)) none := by
  cases hs : s.shared <;> simp [share, hs, setup, Setup.settle]

theorem setup_installLogger (settings : LogSettings) (r : Nat) :
    (s.installLogger settings r).setup =
      { s.setup with logger := some (chosenLogger s.files s.environment settings r) } := by
  unfold installLogger chosenLogger
  split
  · rename_i hfile
    simp [hfile, setup, loggerOf]
  · rename_i path hfile
    split
    · rename_i opened
      simp [hfile, opened, setup, loggerOf, Except.toOption]
    · rename_i opened
      rw [setup_emit]
      simp [hfile, opened, setup, loggerOf, Except.toOption]

theorem setup_step (x : Step α) :
    (s.step x).2.setup = s.setup.settle x.asked (s.brought x) := by
  have hdefault := s.setup_share defaultCapacity
  cases x with
  | install settings =>
    -- The recent lines are settled before the logger is, which leaves the files as they were.
    simp only [step, install, share_logger]
    cases hl : s.logger with
    | none =>
      rw [if_neg (by simp), setup_installLogger, setup_share, share_files, share_environment]
      simp [Setup.settle, setup, hl, brought, Step.asked]
    | some l =>
      rw [if_pos Option.isSome_some, setup_share]
      simp [Setup.settle, setup, hl, Step.asked]
  | touch | last _ => exact hdefault
  | push text => exact (setup_record _ text).trans hdefault
  | perform activity => simp [step, Step.asked, brought, Setup.settle]

theorem environment_step (x : Step α) : (s.step x).2.environment = s.environment :=
  congrArg Setup.environment (s.setup_step x)

theorem shared_step (x : Step α) :
    (s.step x).2.shared = s.shared.or (x.asked.map fun _ => s.buffers.length) := by
  have h := congrArg Setup.shared (s.setup_step x)
  simpa [setup, Setup.settle] using h

theorem logger_step (x : Step α) : (s.step x).2.logger = s.logger.or (s.brought x) :=
  congrArg Setup.logger (s.setup_step x)

theorem shared_step_of_some {r : Nat} (hs : s.shared = some r) (x : Step α) :
    (s.step x).2.shared = some r := by
  rw [shared_step, hs, Option.some_or]

theorem logger_step_of_some {l : Logger} (hl : s.logger = some l) (x : Step α) :
    (s.step x).2.logger = some l := by
  rw [logger_step, hl, Option.some_or]

theorem answer_step_of_handsOut {x : Step α} (hx : x.handsOut = true) :
    ∃ r, (s.step x).1 = .recent r ∧ (s.step x).2.shared = some r := by
  refine ⟨s.shared.getD s.buffers.length, ?_, ?_⟩
  · cases x with
    | install _ | touch => cases hs : s.shared <;> simp [step, install, share, hs]
    | push _ | last _ | perform _ => cases hx
  · rw [shared_step]
    cases x with
    | install _ | touch => cases s.shared <;> rfl
    | push _ | last _ | perform _ => cases hx

/-- At most one set of recent lines has been set up, and it is the shared one. -/
inductive Setup.Unified : Setup → Prop
  | unused (environment logger) : Unified ⟨environment, [], none, logger⟩
  | used (environment capacity logger) : Unified ⟨environment, [capacity], some 0, logger⟩

namespace Setup.Unified

variable {u : Setup}

theorem settle (h : u.Unified) (asked : Option Nat) (logger : Option Logger) :
    (u.settle asked logger).Unified := by
  cases h with
  | unused environment =>
    cases asked with
    | none => exact .unused environment _
    | some capacity => exact .used environment capacity _
  | used environment capacity => exact .used environment capacity _

theorem length_capacities_le (h : u.Unified) : u.capacities.length ≤ 1 := by
  cases h <;> simp

theorem capacity_settle (h : u.Unified) (asked : Option Nat) (logger : Option Logger) :
    ((u.settle asked logger).shared.bind fun r => (u.settle asked logger).capacities[r]?) =
      (u.shared.bind fun r => u.capacities[r]?).or asked := by
  cases h with
  | unused => cases asked <;> rfl
  | used => rfl

end Setup.Unified

theorem unified_step (h : s.setup.Unified) (x : Step α) : (s.step x).2.setup.Unified :=
  s.setup_step x ▸ h.settle x.asked (s.brought x)

theorem capacity?_step (h : s.setup.Unified) (x : Step α) :
    (s.step x).2.capacity? = s.capacity?.or x.asked := by
  have hcapacity (t : Session) :
      t.capacity? = t.setup.shared.bind fun r => t.setup.capacities[r]? := by
    simp [capacity?, setup]
  rw [hcapacity, hcapacity, setup_step]
  exact h.capacity_settle x.asked (s.brought x)

theorem run_cons (x : Step α) (steps : List (Step α)) :
    s.run (x :: steps) =
      ((s.step x).1 :: ((s.step x).2.run steps).1, ((s.step x).2.run steps).2) := rfl

theorem run_append (before after : List (Step α)) :
    s.run (before ++ after) =
      ((s.run before).1 ++ ((s.run before).2.run after).1, ((s.run before).2.run after).2) := by
  induction before generalizing s with
  | nil => rfl
  | cons x before ih => rw [List.cons_append, run_cons, ih, run_cons]; rfl

/-- What every step keeps, a run keeps. -/
theorem run_keeps {P : Session → Prop} {steps : List (Step α)}
    (hstep : ∀ t, ∀ x ∈ steps, P t → P (t.step x).2) (hs : P s) : P (s.run steps).2 := by
  induction steps generalizing s with
  | nil => exact hs
  | cons x steps ih =>
    exact ih (fun t y hy => hstep t y (List.mem_cons_of_mem x hy)) (hstep s x List.mem_cons_self hs)

theorem environment_run (steps : List (Step α)) :
    (s.run steps).2.environment = s.environment :=
  run_keeps (P := (·.environment = s.environment))
    (fun _ x _ h => (environment_step x).trans h) rfl

theorem shared_run_of_some {r : Nat} (hs : s.shared = some r) (steps : List (Step α)) :
    (s.run steps).2.shared = some r :=
  run_keeps (P := (·.shared = some r)) (fun _ x _ h => shared_step_of_some h x) hs

theorem logger_run_of_some {l : Logger} (hl : s.logger = some l) (steps : List (Step α)) :
    (s.run steps).2.logger = some l :=
  run_keeps (P := (·.logger = some l)) (fun _ x _ h => logger_step_of_some h x) hl

theorem unified_run (h : s.setup.Unified) (steps : List (Step α)) :
    (s.run steps).2.setup.Unified :=
  run_keeps (P := (·.setup.Unified)) (fun _ x _ h => unified_step h x) h

/-- The first use of the recent lines decides how many are kept. -/
theorem capacity?_run (h : s.setup.Unified) (steps : List (Step α)) :
    (s.run steps).2.capacity? = s.capacity?.or (steps.findSome? Step.asked) := by
  induction steps generalizing s with
  | nil => simp [run]
  | cons x steps ih =>
    rw [run_cons, ih (unified_step h x), capacity?_step h, Option.or_assoc]
    cases hasked : x.asked <;> simp [hasked]

theorem answers_run_of_handsOut (steps : List (Step α)) :
    List.Forall₂ (fun x answer => x.handsOut = true →
      ∃ r, answer = .recent r ∧ (s.run steps).2.shared = some r) steps (s.run steps).1 := by
  induction steps generalizing s with
  | nil => exact .nil
  | cons x steps ih =>
    refine .cons (fun hx => ?_) ih
    obtain ⟨r, hanswer, hshared⟩ := answer_step_of_handsOut hx
    exact ⟨r, hanswer, shared_run_of_some hshared steps⟩

theorem perform_of_logger_eq_none (hl : s.logger = none) (x : Activity α) : (s.perform x).2 = s := by
  induction x with
  | done value => rfl
  | emit event next ih => rw [perform, emit, hl]; exact ih
  | look next ih => exact ih s.files

theorem files_step_of_logger_eq_none (hl : s.logger = none) {x : Step α} (hx : x.isInstall = false) :
    (s.step x).2.files = s.files := by
  cases x with
  | install _ => cases hx
  | touch | push _ | last _ => exact share_files _
  | perform activity => exact congrArg files (perform_of_logger_eq_none hl activity)

theorem run_of_logger_eq_none (hl : s.logger = none) {steps : List (Step α)}
    (hsteps : ∀ x ∈ steps, x.isInstall = false) :
    (s.run steps).2.logger = none ∧ (s.run steps).2.files = s.files := by
  refine run_keeps (P := fun t => t.logger = none ∧ t.files = s.files) ?_ ⟨hl, rfl⟩
  rintro t x hx ⟨hlogger, hfiles⟩
  have hinstall := hsteps x hx
  refine ⟨?_, (files_step_of_logger_eq_none hlogger hinstall).trans hfiles⟩
  rw [logger_step, hlogger]
  cases x with
  | install _ => cases hinstall
  | touch | push _ | last _ | perform _ => rfl

theorem step_install_of_logger_eq_none (hl : s.logger = none) (settings : LogSettings) :
    ∃ r, (s.step (α := α) (.install settings)).2.shared = some r ∧
      (s.step (α := α) (.install settings)).2.logger =
        some (chosenLogger s.files s.environment settings r) := by
  refine ⟨(s.share settings.bufferLines).1, ?_, ?_⟩
  · rw [shared_step]
    cases hs : s.shared <;> simp [share, hs, Step.asked]
  · rw [logger_step, hl]
    rfl

theorem run_of_first_install (hl : s.logger = none) {before : List (Step α)}
    (hbefore : ∀ x ∈ before, x.isInstall = false) (settings : LogSettings) (after : List (Step α)) :
    ∃ r, (s.run (before ++ .install settings :: after)).2.shared = some r ∧
      (s.run (before ++ .install settings :: after)).2.logger =
        some (chosenLogger s.files s.environment settings r) := by
  obtain ⟨hlogger, hfiles⟩ := run_of_logger_eq_none hl hbefore
  obtain ⟨r, hshared, hchosen⟩ := step_install_of_logger_eq_none (α := α) hlogger settings
  rw [hfiles, environment_run] at hchosen
  rw [run_append, run_cons]
  exact ⟨r, shared_run_of_some hshared after, logger_run_of_some hchosen after⟩

/-- The list without the elements with a property that stand behind the first of them. -/
def dropLater {β : Type} (p : β → Bool) : List β → List β
  | [] => []
  | x :: rest => if p x then x :: rest.filter (fun y => !p y) else x :: dropLater p rest

theorem step_install_of_installed {r : Nat} (hs : s.shared = some r) {l : Logger}
    (hl : s.logger = some l) (settings : LogSettings) :
    s.step (α := α) (.install settings) = (.recent r, s) := by
  simp [step, install, share_of_shared hs, hl]

theorem installed_of_isInstall {x : Step α} (hx : x.isInstall = true) :
    ∃ r l, (s.step x).2.shared = some r ∧ (s.step x).2.logger = some l := by
  cases x with
  | install settings =>
    exact ⟨_, _, (shared_step _).trans Option.or_some, (logger_step _).trans Option.or_some⟩
  | touch | push _ | last _ | perform _ => cases hx

theorem run_filter_of_installed {r : Nat} (hs : s.shared = some r) {l : Logger}
    (hl : s.logger = some l) (steps : List (Step α)) :
    s.run (steps.filter fun x => !x.isInstall) =
      (((steps.zip (s.run steps).1).filter fun entry => !entry.1.isInstall).map Prod.snd,
        (s.run steps).2) := by
  induction steps generalizing s with
  | nil => rfl
  | cons x steps ih =>
    cases hx : x.isInstall with
    | false =>
      have hrest := ih (shared_step_of_some hs x) (logger_step_of_some hl x)
      simp [hx, run_cons, hrest]
    | true =>
      -- The step that is left out would have left the session as it is.
      cases x with
      | install settings => simp [hx, run_cons, step_install_of_installed hs hl, ih hs hl]
      | touch | push _ | last _ | perform _ => cases hx

/-- Without the installations behind the first one, all else happens as it did. -/
theorem run_dropLater (steps : List (Step α)) :
    s.run (dropLater Step.isInstall steps) =
      ((dropLater (fun entry => entry.1.isInstall) (steps.zip (s.run steps).1)).map Prod.snd,
        (s.run steps).2) := by
  induction steps generalizing s with
  | nil => rfl
  | cons x steps ih =>
    cases hx : x.isInstall with
    | false => simp [dropLater, hx, run_cons, ih]
    | true =>
      obtain ⟨r, l, hs, hl⟩ := installed_of_isInstall (s := s) hx
      simp [dropLater, hx, run_cons, run_filter_of_installed hs hl]

/-- The first uses of the log decide. All that are handed recent lines are handed the same ones, and the
first use of these says how many are kept; the first installation chooses the logger, also where the recent
lines were there before; and without the later installations all else happens as it did. -/
theorem run_decided_by_first_use (files : FileTree) (environment : Option String)
    (steps : List (Step α)) {answers : List (Answer α)} {final : Session}
    (hrun : (start files environment).run steps = (answers, final)) :
    List.Forall₂ (fun x answer => x.handsOut = true →
      ∃ r, answer = .recent r ∧ final.shared = some r) steps answers ∧
    final.buffers.length ≤ 1 ∧
    final.capacity? = steps.findSome? Step.asked ∧
    (∀ before settings after, steps = before ++ .install settings :: after →
      (∀ x ∈ before, x.isInstall = false) →
      ∃ r, final.shared = some r ∧
        final.logger = some (chosenLogger files environment settings r)) ∧
    (start files environment).run (dropLater Step.isInstall steps) =
      ((dropLater (fun entry => entry.1.isInstall) (steps.zip answers)).map Prod.snd, final) := by
  obtain ⟨rfl, rfl⟩ := Prod.mk.inj hrun.symm
  have hstart : (start files environment).setup.Unified := .unused environment none
  have hunified := unified_run hstart steps
  refine ⟨answers_run_of_handsOut steps, ?_, ?_, ?_, run_dropLater steps⟩
  · simpa [setup] using hunified.length_capacities_le
  · rw [capacity?_run hstart]
    rfl
  · rintro before settings after rfl hbefore
    exact run_of_first_install rfl hbefore settings after

/-- The recent lines are asked for, then a logger is installed that writes to a file, an event is emitted,
and another installation comes too late. -/
def sampleSteps : List (Step Unit) :=
  [.touch, .install { level := "warn", bufferLines := 5, file := some "all.log" },
    .perform (.announce ⟨.warn, "namemap", "beware", []⟩), .install { json := true }, .last 7]

theorem run_decided_by_first_use_sample :
    ∃ final : Session,
      (start (.empty ["work"]) none).run sampleSteps =
        ([.recent 0, .recent 0, .value (), .recent 0, .lines [" WARN namemap: beware"]], final) ∧
      final.capacity? = some 1000 ∧
      (∃ r, final.logger = some ⟨⟨[⟨none, .warn⟩]⟩, false, true, some ["work", "all.log"], r⟩) ∧
      (start (.empty ["work"]) none).run (dropLater Step.isInstall sampleSteps) =
        ([.recent 0, .recent 0, .value (), .lines [" WARN namemap: beware"]], final) := by
  have hanswers : ((start (.empty ["work"]) none).run sampleSteps).1 =
      [.recent 0, .recent 0, .value (), .recent 0, .lines [" WARN namemap: beware"]] := by
    decide +kernel
  have hrun := Prod.ext (y := (_, ((start (.empty ["work"]) none).run sampleSteps).2)) hanswers rfl
  obtain ⟨_, _, hcapacity, hinstalled, hdropped⟩ :=
    run_decided_by_first_use (.empty ["work"]) none sampleSteps hrun
  refine ⟨_, hrun, hcapacity, ?_, hdropped⟩
  obtain ⟨r, _, hlogger⟩ := hinstalled [.touch] _ _ rfl (by simp [Step.isInstall])
  have hchosen : chosenLogger (.empty ["work"]) none
      { level := "warn", bufferLines := 5, file := some "all.log" } 0 =
        ⟨⟨[⟨none, .warn⟩]⟩, false, true, some ["work", "all.log"], 0⟩ := by
    decide +kernel
  exact ⟨r, hlogger.trans (congrArg (fun l : Logger => some { l with recent := r }) hchosen)⟩

end Session
end JvmSymbols
