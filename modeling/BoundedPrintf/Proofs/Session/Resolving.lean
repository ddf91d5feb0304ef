import Mathlib
import BoundedPrintf.Proofs.Rendering.Contract
import BoundedPrintf.Session

/-! Which mode a call is answered in. The calls before it decide: the last mode that was installed, or
the one of the environment, which is read for the first call that needs it and never again. -/
namespace BoundedPrintf

/-- What a caller sees of an outcome: the buffer, the count targets and one number. -/
structure Reply.Tells (reply : Reply) (outcome : Outcome) : Prop where
  buffer : reply.outcome.buffer = outcome.buffer
  targets : ∀ before, reply.outcome.counts before = outcome.counts before
  counted : ∀ written, outcome.result = .ok written →
    reply.returned = some (min (written : Int) maxCount)
  failed : reply.returned = some (-1) ↔ ∃ error, outcome.result = .error error
  crashed : reply.returned = none ↔ outcome.result = .crash

theorem Outcome.returned?_eq_neg_one_iff {outcome : Outcome} :
    outcome.returned? = some (-1) ↔ ∃ error, outcome.result = .error error := by
  rw [returned?]
  cases outcome.result with
  | ok written => simp only [Option.some.injEq, reduceCtorEq, exists_false, iff_false]; omega
  | error error => simp
  | crash => simp

theorem Outcome.tells_toReply (outcome : Outcome) : outcome.toReply.Tells outcome := by
  refine ⟨rfl, fun _ => rfl, ?_, returned?_eq_neg_one_iff, returned?_eq_none_iff⟩
  intro written answered
  rw [toReply, returned?, answered]

/-- A cursor that handed out arguments before renders with those that are left. -/
theorem Cursor.tells_render [Build] (cursor : Cursor) (buffer : Array UInt8) (template : Bytes)
    (mode : Mode) : (cursor.render buffer template mode).toReply.Tells
      (BoundedPrintf.render buffer template cursor.remaining mode) := by
  obtain ⟨-, -, counted, failed, crashed⟩ := (cursor.render buffer template mode).tells_toReply
  exact ⟨rfl, fun _ => rfl, counted, failed, crashed⟩

namespace Session

def Call.installed? : Call → Option Mode
  | .install mode => some mode
  | .ask | .renderInto .. | .renderWith .. | .renderValues .. => none

/-- The mode in force after some calls. -/
def modeAfter (environment : Option String) (past : List Call) : Mode :=
  (past.filterMap Call.installed?).getLast?.getD ((environment.map Mode.ofSetting).getD .compat)

/-- The answer to a call that is made in a mode. -/
inductive AnsweredIn [Build] (mode : Mode) : Call → Answer → Prop
  | ask : AnsweredIn mode .ask (.mode mode)
  | install (installed : Mode) : AnsweredIn mode (.install installed) .installed
  | renderInto {buffer : Array UInt8} {template : Bytes} {args : List Argument} {reply : Reply}
      (tells : reply.Tells (render buffer template args mode)) :
      AnsweredIn mode (.renderInto buffer template args) (.rendered reply)
  | renderWith {buffer : Array UInt8} {template : Bytes} {cursor : Cursor} {reply : Reply}
      (tells : reply.Tells (render buffer template cursor.remaining mode)) :
      AnsweredIn mode (.renderWith buffer template cursor) (.rendered reply)
  | renderValues {buffer : Array UInt8} {template : Bytes} {values : List Value} {reply : Reply}
      (tells : reply.Tells (render buffer template (values.map Value.toArgument) mode)) :
      AnsweredIn mode (.renderValues buffer template values) (.rendered reply)

/-- A setting after some calls. Nothing is known before the first call that needs a mode, and the
mode in force from then on. -/
inductive Follows (environment : Option String) (past : List Call) : Mode.Setting → Prop
  | unresolved (fresh : past.filterMap Call.installed? = []) :
      Follows environment past { environment, cache := .unresolved, readings := 0 }
  | known {mode : Mode} {readings : Nat} (inForce : modeAfter environment past = mode)
      (few : readings ≤ 1) : Follows environment past { environment, cache := .known mode, readings }

variable {environment : Option String} {past : List Call} {setting : Mode.Setting} {call : Call}

theorem Follows.readings_le (follows : Follows environment past setting) : setting.readings ≤ 1 := by
  cases follows with
  | unresolved fresh => exact Nat.zero_le 1
  | known _ few => exact few

theorem modeAfter_of_fresh (fresh : past.filterMap Call.installed? = []) :
    modeAfter environment past = (environment.map Mode.ofSetting).getD .compat := by
  rw [modeAfter, fresh]
  rfl

theorem modeAfter_install (environment : Option String) (past : List Call) (mode : Mode) :
    modeAfter environment (past ++ [.install mode]) = mode := by
  have last : (past ++ [Call.install mode]).filterMap Call.installed? =
      past.filterMap Call.installed? ++ [mode] := by
    rw [List.filterMap_append]
    rfl
  rw [modeAfter, last, List.getLast?_concat, Option.getD_some]

theorem filterMap_installed?_append (other : call.installed? = none) :
    (past ++ [call]).filterMap Call.installed? = past.filterMap Call.installed? := by
  rw [List.filterMap_append, List.filterMap_cons_none other, List.filterMap_nil, List.append_nil]

/-- A call that installs no mode leaves a setting to follow the calls so far. -/
theorem Follows.append (follows : Follows environment past setting)
    (other : call.installed? = none) : Follows environment (past ++ [call]) setting := by
  have same := @filterMap_installed?_append past call other
  cases follows with
  | unresolved fresh => exact .unresolved (same.trans fresh)
  | known inForce few =>
      refine .known ?_ few
      rw [modeAfter, same]
      exact inForce

theorem Follows.install (follows : Follows environment past setting) (mode : Mode) :
    Follows environment (past ++ [.install mode]) (setting.install mode) := by
  have last := modeAfter_install environment past mode
  cases follows with
  | unresolved _ => exact .known last (Nat.zero_le 1)
  | known _ few => exact .known last few

/-- The mode in force is answered, and the environment read only where nothing was known. -/
theorem Follows.current (follows : Follows environment past setting) :
    setting.current.1 = modeAfter environment past ∧ Follows environment past setting.current.2 := by
  cases follows with
  | unresolved fresh =>
      have inForce : modeAfter environment past = _ := modeAfter_of_fresh fresh
      exact ⟨inForce.symm, .known inForce le_rfl⟩
  | known inForce few => exact ⟨inForce.symm, .known inForce few⟩

section Answers

variable [Build]

theorem Follows.answer (follows : Follows environment past setting) (call : Call) :
    AnsweredIn (modeAfter environment past) call (answer setting call).1 ∧
      Follows environment (past ++ [call]) (answer setting call).2 := by
  obtain ⟨mode, later⟩ := follows.current
  cases call with
  | ask => exact ⟨mode ▸ .ask, later.append rfl⟩
  | install installed => exact ⟨.install installed, follows.install installed⟩
  | renderInto buffer template args =>
      refine ⟨.renderInto ?_, later.append rfl⟩
      exact mode ▸ (Cursor.ofList args).tells_render buffer template _
  | renderWith buffer template cursor =>
      refine ⟨.renderWith ?_, later.append rfl⟩
      exact mode ▸ cursor.tells_render buffer template _
  | renderValues buffer template values =>
      refine ⟨.renderValues ?_, later.append rfl⟩
      exact mode ▸ (Cursor.ofList (values.map Value.toArgument)).tells_render buffer template _

theorem Follows.answers (follows : Follows environment past setting) (calls : List Call) :
    Follows environment (past ++ calls) (answers setting calls).2 := by
  -- Each call joins the past for those after it.
  induction calls generalizing past setting with
  | nil => rwa [List.append_nil]
  | cons call rest ih =>
      have later := ih (follows.answer call).2
      rwa [List.append_assoc, List.singleton_append] at later

theorem length_answers (setting : Mode.Setting) (calls : List Call) :
    (answers setting calls).1.length = calls.length := by
  induction calls generalizing setting with
  | nil => rfl
  | cons call rest ih => exact congrArg (· + 1) (ih _)

theorem answers_append (setting : Mode.Setting) (first second : List Call) :
    answers setting (first ++ second) =
      ((answers setting first).1 ++ (answers (answers setting first).2 second).1,
        (answers (answers setting first).2 second).2) := by
  induction first generalizing setting with
  | nil => rfl
  | cons call rest ih =>
      rw [List.cons_append, answers]
      simp only [ih]
      rfl

/-- Every call of a session is answered in the mode that was installed last before it, or in the one
of the environment if none was. The environment is read at most once. -/
theorem answered_in_mode_in_force (environment : Option String) (calls : List Call) :
    (answers { environment } calls).1.length = calls.length ∧
      (∀ past call rest, calls = past ++ call :: rest →
        ∃ answer, (answers { environment } calls).1[past.length]? = some answer ∧
          AnsweredIn (modeAfter environment past) call answer) ∧
      (answers { environment } calls).2.readings ≤ 1 := by
  have start : Follows environment [] { environment } := .unresolved rfl
  refine ⟨length_answers _ calls, ?_, (start.answers calls).readings_le⟩
  rintro past call rest rfl
  have before : Follows environment past (answers { environment } past).2 := start.answers past
  refine ⟨_, ?_, (before.answer call).1⟩
  rw [answers_append, List.getElem?_append_right (length_answers _ past).le, length_answers,
    Nat.sub_self]
  rfl

end Answers

/-- The environment asks for strictness, and the first call reads it. The mode that is installed then
holds for the rendering. -/
theorem installed_behind_reading :
    let _ : Build := .checked
    let past : List Call := [.ask, .install .compat]
    let call : Call := .renderInto (Array.replicate 4 0xAA) (ascii "a%q%n") [.count 0]
    let calls : List Call := [.ask, .install .compat, call, .ask]
    calls = past ++ call :: [.ask] ∧ modeAfter (some " REJECT\n") [] = .strict ∧
      modeAfter (some " REJECT\n") past = .compat ∧
      ∃ answer, (answers { environment := some " REJECT\n" } calls).1[2]? = some answer ∧
        AnsweredIn .compat call answer := by
  intro _ past call calls
  have answered := (answered_in_mode_in_force (some " REJECT\n") calls).2.1 past call [.ask] rfl
  exact ⟨rfl, by decide +kernel, rfl, answered⟩

end Session

end BoundedPrintf
