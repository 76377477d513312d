import LendingRelay.Proofs.Runs

/-!
# Courses

Some runs have a settled course: their calls go out in order until one fails, and their events come
behind the last call. What such a run leaves behind follows from how its calls end, and each fact
about it is one induction on the course.

* `Trace.Announced`: every call has its line in front of it.
* `Trace.effects`: calls and events without the log.
* `Course`: the courses, and `Course.effects_of_ok`, `Course.events_of_error`, `Course.failed_last`,
  `Course.ok_of_all_succeed`: what they keep to.
-/

namespace LendingRelay

/-! ## Announced calls -/

/-- The line that `invoke` logs in front of a call: whom it goes to, and whether seeds go
with it. -/
def Invocation.line (invocation : Invocation) : String :=
  s!"cpi:{invocation.instruction.program} signed={!invocation.seeds.isEmpty}"

theorem line_invocationOf (instruction : Instruction) (infos : List Account)
    (authority : Option RelayAuthority) :
    (invocationOf instruction infos authority).line =
      s!"cpi:{instruction.program} signed={authority.isSome}" := by
  cases authority <;> rfl

namespace Trace

/-- No `.call` entry without its `Invocation.line` directly in front of it. -/
inductive Announced : Trace → Prop
  | nil : Announced []
  | log (line : String) {rest : Trace} (hrest : Announced rest) : Announced (.log line :: rest)
  | data (chunks : List Bytes) {rest : Trace} (hrest : Announced rest) :
      Announced (.data chunks :: rest)
  | call (invocation : Invocation) {rest : Trace} (hrest : Announced rest) :
      Announced (.log invocation.line :: .call invocation :: rest)

theorem Announced.append {first second : Trace} (hfirst : Announced first)
    (hsecond : Announced second) : Announced (first ++ second) := by
  induction hfirst with
  | nil => exact hsecond
  | log line _ ih => exact .log line ih
  | data chunks _ ih => exact .data chunks ih
  | call invocation _ ih => exact .call invocation ih

theorem announced_of_no_calls {trace : Trace} (hnone : calls trace = []) : Announced trace := by
  induction trace with
  | nil => exact .nil
  | cons entry rest ih =>
    cases entry with
    | log line => exact .log line (ih hnone)
    | data chunks => exact .data chunks (ih hnone)
    | call invocation => cases hnone

/-- **The line of a call is the entry before it.** `Announced` puts them side by side, and this
finds the one from the place of the other. -/
theorem Announced.line_before {entries : Trace} (hannounced : Announced entries) {i : Nat}
    {invocation : Invocation} (hcall : entries[i]? = some (.call invocation)) :
    ∃ j, i = j + 1 ∧ entries[j]? = some (.log invocation.line) := by
  -- Induction on the trace: past the first entry both places move along by one.
  induction hannounced generalizing i with
  | nil => cases hcall
  | log line _ ih =>
    cases i with
    | zero => cases hcall
    | succ i =>
      obtain ⟨j, rfl, hline⟩ := ih hcall
      exact ⟨j + 1, rfl, hline⟩
  | data chunks _ ih =>
    cases i with
    | zero => cases hcall
    | succ i =>
      obtain ⟨j, rfl, hline⟩ := ih hcall
      exact ⟨j + 1, rfl, hline⟩
  -- The line itself stands at place 0 and its call at place 1; the rest begins at place 2.
  | call first _ ih =>
    match i with
    | 0 => cases hcall
    | 1 =>
      cases hcall
      exact ⟨0, rfl, rfl⟩
    | i + 2 =>
      obtain ⟨j, rfl, hline⟩ := ih hcall
      exact ⟨j + 2, rfl, hline⟩

/-! ## Calls and events in order -/

/-- The calls and the events of a trace in the order in which they happened: `Trace.calls` and
`Trace.events` lose how the two lie to one another. -/
def effects (trace : Trace) : Trace :=
  trace.filter fun
    | .log _ => false
    | _ => true

@[simp] theorem effects_append (first second : Trace) :
    effects (first ++ second) = effects first ++ effects second :=
  List.filter_append first second

@[simp] theorem effects_log (line : String) (rest : Trace) :
    effects (.log line :: rest) = effects rest := rfl

@[simp] theorem effects_call (invocation : Invocation) (rest : Trace) :
    effects (.call invocation :: rest) = .call invocation :: effects rest := rfl

@[simp] theorem effects_map_log (lines : List String) : effects (lines.map .log) = [] := by
  induction lines with
  | nil => rfl
  | cons line rest ih => exact ih

@[simp] theorem effects_map_data (announced : List (List Bytes)) :
    effects (announced.map .data) = announced.map .data := by
  induction announced with
  | nil => rfl
  | cons chunks rest ih => exact congrArg (TraceEntry.data chunks :: ·) ih

@[simp] theorem calls_map_data (announced : List (List Bytes)) :
    calls (announced.map .data) = [] := by
  induction announced with
  | nil => rfl
  | cons chunks rest ih => exact ih

@[simp] theorem events_map_data (announced : List (List Bytes)) :
    events (announced.map .data) = announced := by
  induction announced with
  | nil => rfl
  | cons chunks rest ih => exact congrArg (chunks :: ·) ih

/-- A trace without calls and events only logs, so `effects` is empty. -/
theorem effects_of_nothing {trace : Trace} (hcalls : calls trace = [])
    (hevents : events trace = []) : effects trace = [] := by
  induction trace with
  | nil => rfl
  | cons entry rest ih =>
    cases entry with
    | log line => exact ih hcalls hevents
    | data chunks => cases hevents
    | call invocation => cases hcalls

end Trace

/-! ## Courses -/

/-- The course of a run with settled calls and events. The calls go out in order, each one behind
its `Invocation.line`, until the `Script` fails one, and its error ends the run; the events come
behind the last call. A called program may log. -/
inductive Course (events : List (List Bytes)) :
    List Invocation → Script → Trace → Except Fault Unit → Prop
  | done (script : Script) : Course events [] script (events.map .data) (.ok ())
  | failed (call : Invocation) (rest : List Invocation) {script : Script} {error : ProgramError}
      (hfails : script.head?.getD none = some error) :
      Course events (call :: rest) script [.log call.line, .call call]
        (.error { cause := .program error })
  | next (call : Invocation) (lines : List String) {rest : List Invocation} {script : Script}
      {trace : Trace} {result : Except Fault Unit} (hsucceeds : script.head?.getD none = none)
      (hrest : Course events rest script.tail trace result) :
      Course events (call :: rest) script
        (.log call.line :: .call call :: (lines.map .log ++ trace)) result

namespace Course

variable {events : List (List Bytes)} {calls : List Invocation} {script : Script} {trace : Trace}
  {result : Except Fault Unit}

theorem announced (hcourse : Course events calls script trace result) : Trace.Announced trace := by
  induction hcourse with
  | done script => exact Trace.announced_of_no_calls (Trace.calls_map_data events)
  | failed call rest hfails => exact .call call .nil
  | next call lines hsucceeds hrest ih =>
    exact .call call ((Trace.announced_of_no_calls (Trace.calls_map_log lines)).append ih)

/-- A course that ends well made all its calls and then announced all its events, as `Trace.effects`
shows. Induction on the course; `failed` cannot end well. -/
theorem effects_of_ok (hcourse : Course events calls script trace result)
    (hok : result = .ok ()) :
    Trace.calls trace = calls ∧ Trace.events trace = events ∧
      Trace.effects trace = calls.map .call ++ events.map .data := by
  induction hcourse with
  | done script => simp
  | failed call rest hfails => cases hok
  | next call lines hsucceeds hrest ih =>
    obtain ⟨hcalls, hevents, heffects⟩ := ih hok
    simp [hcalls, hevents, heffects]

/-- A course that does not end well announces nothing, since only `Course.done` has the events. -/
theorem events_of_error (hcourse : Course events calls script trace result) {fault : Fault}
    (herror : result = .error fault) : Trace.events trace = [] := by
  induction hcourse with
  | done script => cases herror
  | failed call rest hfails => rfl
  | next call lines hsucceeds hrest ih => simp [ih herror]

/-- **A failed call is the last one,** and its error is the result. Induction on the course: `next`
moves both the calls and the `Script` on by one. -/
theorem failed_last (hcourse : Course events calls script trace result) {i : Nat}
    {error : ProgramError} (hmade : i < (Trace.calls trace).length)
    (hfailed : script[i]? = some (some error)) :
    i + 1 = (Trace.calls trace).length ∧ result = .error { cause := .program error } := by
  induction hcourse generalizing i with
  | done script => simp at hmade
  | @failed call rest script error' hfails =>
    have hfirst : i = 0 := by simpa using hmade
    subst hfirst
    rw [List.head?_eq_getElem?, hfailed] at hfails
    cases hfails
    exact ⟨rfl, rfl⟩
  -- The first call succeeded, so the failed one is among the rest, one place earlier there.
  | @next call lines rest script trace result hsucceeds hrest ih =>
    cases i with
    | zero =>
      rw [List.head?_eq_getElem?, hfailed] at hsucceeds
      cases hsucceeds
    | succ i =>
      have hmade' : i < (Trace.calls trace).length := by simpa using hmade
      obtain ⟨hlast, hresult⟩ := ih hmade' (by rw [List.getElem?_tail, hfailed])
      refine ⟨?_, hresult⟩
      simp [hlast]

/-- **Only a failed call ends a course early.** If the `Script` lets every call that was made
succeed, the end is `Course.done`. -/
theorem ok_of_all_succeed (hcourse : Course events calls script trace result)
    (hsucceed : ∀ i, i < (Trace.calls trace).length → (script[i]?).getD none = none) :
    result = .ok () := by
  induction hcourse with
  | done script => rfl
  -- The failed call is in the trace, and the script says that it succeeds.
  | @failed call rest script error hfails =>
    have hfirst := hsucceed 0 (by simp)
    rw [← List.head?_eq_getElem?, hfails] at hfirst
    cases hfirst
  | @next call lines rest script trace result hsucceeds hrest ih =>
    refine ih fun i hmade => ?_
    rw [List.getElem?_tail]
    exact hsucceed (i + 1) (by simpa using hmade)

end Course

end LendingRelay
