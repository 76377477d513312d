import LendingRelay.Invoke

/-!
# How runs compose

What a run leaves behind is read off the runs that it is made of. Most steps of the relay only look
at their arguments: such a run is *quiet*, and a quiet run in front of another one decides whether
the other one starts and nothing else.

* `Run.bind_of_ok`, `Run.bind_of_error`: two runs in a row.
* `Run.Quiet.bind`: a run made of quiet runs is quiet.
* `Run.Refuses.bind`: nothing starts after a refusal.
* `quiet_dummy`: the dummy program makes no calls of its own.
* `calls_invoke`: invoking an instruction makes that one call, whatever comes of it.
* `invoke_apply`: the whole of an invocation of a program whose code is not known here.
-/

namespace LendingRelay

/-! ## Calls and events of a trace

Both are projections of the trace, so they distribute over its parts; log lines have neither. -/

namespace Trace

@[simp] theorem calls_nil : calls [] = [] := rfl

@[simp] theorem calls_append (first second : Trace) :
    calls (first ++ second) = calls first ++ calls second :=
  List.filterMap_append

@[simp] theorem calls_log (line : String) (rest : Trace) :
    calls (.log line :: rest) = calls rest := rfl

@[simp] theorem calls_data (chunks : List Bytes) (rest : Trace) :
    calls (.data chunks :: rest) = calls rest := rfl

@[simp] theorem calls_call (invocation : Invocation) (rest : Trace) :
    calls (.call invocation :: rest) = invocation :: calls rest := rfl

@[simp] theorem events_nil : events [] = [] := rfl

@[simp] theorem events_append (first second : Trace) :
    events (first ++ second) = events first ++ events second :=
  List.filterMap_append

@[simp] theorem events_log (line : String) (rest : Trace) :
    events (.log line :: rest) = events rest := rfl

@[simp] theorem events_data (chunks : List Bytes) (rest : Trace) :
    events (.data chunks :: rest) = chunks :: events rest := rfl

@[simp] theorem events_call (invocation : Invocation) (rest : Trace) :
    events (.call invocation :: rest) = events rest := rfl

/-- `Trace.calls` of lines alone is empty: a `.log` entry is no call. Induction on the lines. -/
@[simp] theorem calls_map_log (lines : List String) : calls (lines.map .log) = [] := by
  induction lines with
  | nil => rfl
  | cons line rest ih => exact ih

/-- `Trace.events` of lines alone is empty as well, by the same induction. -/
@[simp] theorem events_map_log (lines : List String) : events (lines.map .log) = [] := by
  induction lines with
  | nil => rfl
  | cons line rest ih => exact ih

end Trace

/-! ## Two runs in a row

The second run starts with the value of the first one and with what is left of its script. After a
fault it does not start at all. -/

namespace Run

theorem bind_of_ok {run : Run α} {script : Script} {a : α} (next : α → Run β)
    (hok : (run script).result = .ok a) :
    (run >>= next) script =
      { next a (run script).script with
        trace := (run script).trace ++ (next a (run script).script).trace } := by
  show Run.bind run next script = _
  simp only [Run.bind, hok]

theorem bind_of_error {run : Run α} {script : Script} {fault : Fault} (next : α → Run β)
    (herror : (run script).result = .error fault) :
    (run >>= next) script =
      { result := .error fault, trace := (run script).trace, script := (run script).script } := by
  show Run.bind run next script = _
  simp only [Run.bind, herror]

/-- `requireKeysEq` as a choice between going on and `Fault.keysDiffer`; a later proof rewrites with
it instead of unfolding. -/
theorem requireKeysEq_eq (left right : Pubkey) (error : RelayError) :
    requireKeysEq left right error =
      if left = right then Pure.pure () else fail (.keysDiffer error left right) := rfl

/-! ## Quiet runs -/

/-- A run that only looks: it leaves no `Trace.calls` and no `Trace.events`, and uses up nothing of
its `Script`. It may log, and it may fail. -/
structure Quiet (run : Run α) : Prop where
  calls : ∀ script, Trace.calls (run script).trace = []
  events : ∀ script, Trace.events (run script).trace = []
  script : ∀ script, (run script).script = script

theorem quiet_pure (a : α) : Quiet (Pure.pure a : Run α) :=
  ⟨fun _ => rfl, fun _ => rfl, fun _ => rfl⟩

theorem quiet_fail (fault : Fault) : Quiet (fail fault : Run α) :=
  ⟨fun _ => rfl, fun _ => rfl, fun _ => rfl⟩

theorem quiet_log (line : String) : Quiet (log line) :=
  ⟨fun _ => rfl, fun _ => rfl, fun _ => rfl⟩

theorem quiet_ofExcept (result : Except Fault α) : Quiet (ofExcept result) := by
  cases result with
  | ok a => exact quiet_pure a
  | error fault => exact quiet_fail fault

theorem Quiet.bind {run : Run α} {next : α → Run β} (hrun : Quiet run)
    (hnext : ∀ a, Quiet (next a)) : Quiet (run >>= next) := by
  refine ⟨fun script => ?_, fun script => ?_, fun script => ?_⟩
  -- Calls, events and script go the same way: past the first run, and into the second if it starts.
  all_goals
    cases hresult : (run script).result with
    | ok a =>
      rw [bind_of_ok next hresult]
      simp [hrun.calls, hrun.events, hrun.script, (hnext a).calls, (hnext a).events,
        (hnext a).script]
    | error fault =>
      rw [bind_of_error next hresult]
      simp [hrun.calls, hrun.events, hrun.script]

/-- A `Quiet` run that ends in a fault whatever its `Script` says, as every failed check of the
relay does. -/
structure Refuses (run : Run α) : Prop where
  quiet : Quiet run
  fails : ∀ script, ∃ fault, (run script).result = .error fault

theorem refuses_fail (fault : Fault) : Refuses (fail fault : Run α) :=
  ⟨quiet_fail fault, fun _ => ⟨fault, rfl⟩⟩

/-- Nothing behind a refusal starts, so `next` is arbitrary: `bind_of_error` drops it. -/
theorem Refuses.bind {run : Run α} (hrun : Refuses run) (next : α → Run β) :
    Refuses (run >>= next) := by
  have hbind : ∀ script, ∃ fault, (run >>= next) script =
      { result := .error fault, trace := (run script).trace, script := (run script).script } := by
    intro script
    obtain ⟨fault, hfault⟩ := hrun.fails script
    exact ⟨fault, bind_of_error next hfault⟩
  refine ⟨⟨fun script => ?_, fun script => ?_, fun script => ?_⟩, fun script => ?_⟩
  all_goals obtain ⟨fault, hfault⟩ := hbind script
  · rw [hfault, hrun.quiet.calls]
  · rw [hfault, hrun.quiet.events]
  · rw [hfault, hrun.quiet.script]
  · exact ⟨fault, by rw [hfault]⟩

/-- A refusal behind a `Quiet` run makes the whole a refusal. If the first run fails itself, its own
fault does. -/
theorem Quiet.refuses_bind {run : Run α} {next : α → Run β} (hrun : Quiet run)
    (hnext : ∀ a, Refuses (next a)) : Refuses (run >>= next) := by
  refine ⟨hrun.bind fun a => (hnext a).quiet, fun script => ?_⟩
  -- If the first run ends in a value the refusal starts; otherwise it need not.
  cases hresult : (run script).result with
  | ok a =>
    obtain ⟨fault, hfault⟩ := (hnext a).fails (run script).script
    exact ⟨fault, by rw [bind_of_ok next hresult]; exact hfault⟩
  | error fault => exact ⟨fault, by rw [bind_of_error next hresult]⟩

/-- The lines that `Run.conclude` adds for the way in which a run ended: `Fault.lines` for a fault,
none for a value. -/
def closingLines : Except Fault α → List String
  | .ok _ => []
  | .error fault => fault.lines

theorem mem_closingLines {result : Except Fault α} {line : String}
    (hmem : line ∈ closingLines result) : ∃ fault, result = .error fault ∧ line ∈ fault.lines := by
  cases result with
  | ok a => cases hmem
  | error fault => exact ⟨fault, rfl, hmem⟩

/-- `Run.conclude` in one piece: `closingLines` go behind the trace, and `Fault.result` takes the
place of the fault. -/
theorem conclude_eq (run : Run α) (script : Script) :
    run.conclude script =
      { result := (run script).result.mapError Fault.result
        trace := (run script).trace ++ (closingLines (run script).result).map .log
        script := (run script).script } := by
  unfold conclude
  -- `conclude` splits on the same result, so each case only collects the pieces.
  cases hresult : (run script).result with
  | ok a =>
    simp only [hresult, closingLines, List.map_nil, List.append_nil]
    rfl
  | error fault =>
    simp only [hresult, closingLines]
    rfl

/-- `closingLines` are log lines, so a run and its conclusion make the same calls. -/
theorem calls_conclude (run : Run α) (script : Script) :
    Trace.calls (run.conclude script).trace = Trace.calls (run script).trace := by
  rw [conclude_eq, Trace.calls_append, Trace.calls_map_log, List.append_nil]

/-- A run and its conclusion announce the same events, for the reason given at `calls_conclude`. -/
theorem events_conclude (run : Run α) (script : Script) :
    Trace.events (run.conclude script).trace = Trace.events (run script).trace := by
  rw [conclude_eq, Trace.events_append, Trace.events_map_log, List.append_nil]

/-- `Fault.result` is applied to faults only, so a value is a value before and after. -/
theorem mapError_eq_ok_iff {result : Except Fault α} {a : α} :
    result.mapError Fault.result = .ok a ↔ result = .ok a := by
  cases result with
  | ok b =>
    show Except.ok b = .ok a ↔ _
    rw [Except.ok.injEq, Except.ok.injEq]
  | error fault => exact ⟨nofun, nofun⟩

/-- `Run.conclude` ends well exactly when the run has that value. -/
theorem result_conclude_ok_iff (run : Run α) (script : Script) (a : α) :
    (run.conclude script).result = .ok a ↔ (run script).result = .ok a := by
  rw [conclude_eq]
  exact mapError_eq_ok_iff

theorem Quiet.nested {run : Run α} (hrun : Quiet run) : Quiet run.nested := by
  refine ⟨fun script => ?_, fun script => ?_, fun script => ?_⟩
  · show Trace.calls (run.conclude script).trace = []
    rw [calls_conclude, hrun.calls]
  · show Trace.events (run.conclude script).trace = []
    rw [events_conclude, hrun.events]
  · show (run.conclude script).script = script
    rw [conclude_eq, hrun.script]

end Run

/-! ## Calls

The dummy program is the only callee whose code is known here, and it makes no calls. So an
invocation makes one call, and only for the dummy program does anything else follow it. -/

/-- `Dummy.program` only logs, whatever id and data it is called with: each of the steps of
`Program.entryOn` is quiet, and the framework that is left out refuses. -/
theorem quiet_dummy (id : Pubkey) (accounts : List Account) (data : Bytes) :
    Run.Quiet (Dummy.program.entry id accounts data) := by
  refine (Run.quiet_ofExcept _).bind fun destination => ?_
  cases destination with
  | own form =>
    refine (Run.quiet_log _).bind fun _ => ?_
    refine (Run.quiet_ofExcept _).bind fun _ => ?_
    exact (Run.quiet_ofExcept _).bind fun _ => Run.quiet_log _
  | idl => exact Run.quiet_fail _

theorem quiet_runCallee (instruction : Instruction) (infos : List Account) :
    Run.Quiet (runCallee instruction infos) := by
  unfold runCallee
  split
  · exact (quiet_dummy _ _ _).nested
  · exact Run.quiet_pure _

/-- The `Invocation` that `invoke` adds to the trace. -/
def invocationOf (instruction : Instruction) (infos : List Account)
    (authority : Option RelayAuthority) : Invocation :=
  { instruction
    infos := infos.map Account.toMeta
    seeds := authority.toList.map RelayAuthority.signerSeeds }

/-- What the `Script` and the called program together make of a call: a scripted error stands for
the program, otherwise `runCallee` runs. -/
def calleeResult (instruction : Instruction) (infos : List Account) :
    Option ProgramError → Run (Except ProgramError Unit)
  | some error => Pure.pure (.error error)
  | none => runCallee instruction infos

/-- A failed call fails its caller, with the same error. Together with `calleeResult` this is the
tail of `invoke`. -/
def settle : Except ProgramError Unit → Run Unit
  | .ok () => Pure.pure ()
  | .error error => Run.fail { cause := .program error }

/-- `invoke` logs its line, makes its call, and then ends as `calleeResult` and `settle` say. -/
theorem invoke_eq (instruction : Instruction) (infos : List Account)
    (authority : Option RelayAuthority) (script : Script) :
    invoke instruction infos authority script =
      let ended := (calleeResult instruction infos (script.head?.getD none) >>= settle) script.tail
      { ended with
        trace :=
          .log s!"cpi:{instruction.program} signed={authority.isSome}" ::
            .call (invocationOf instruction infos authority) :: ended.trace } := by
  -- Named step by step, the run is a log line, the call, and then nothing but the callee's end.
  have hsteps : invoke instruction infos authority = (do
      Run.log s!"cpi:{instruction.program} signed={authority.isSome}"
      Run.emit (.call (invocationOf instruction infos authority))
      let outcome ← Run.nextCall
      let ended ← calleeResult instruction infos outcome
      settle ended) := by
    unfold invoke
    congr 1
    funext _
    congr 1
    funext _
    congr 1
    funext outcome
    cases outcome with
    | some error => rfl
    | none =>
      show runCallee instruction infos >>= _ = runCallee instruction infos >>= _
      congr 1
  rw [hsteps]
  rfl

theorem quiet_settle (ended : Except ProgramError Unit) : Run.Quiet (settle ended) := by
  cases ended with
  | ok u => exact Run.quiet_pure _
  | error error => exact Run.quiet_fail _

theorem quiet_calleeResult (instruction : Instruction) (infos : List Account)
    (outcome : Option ProgramError) : Run.Quiet (calleeResult instruction infos outcome) := by
  cases outcome with
  | some error => exact Run.quiet_pure _
  | none => exact quiet_runCallee instruction infos

/-- **One invocation, one call.** Whatever the `Script` holds and whatever the callee does, exactly
`invocationOf` is called, since everything behind it is `Quiet`. -/
theorem calls_invoke (instruction : Instruction) (infos : List Account)
    (authority : Option RelayAuthority) (script : Script) :
    Trace.calls (invoke instruction infos authority script).trace =
      [invocationOf instruction infos authority] := by
  have hrest : Run.Quiet (calleeResult instruction infos (script.head?.getD none) >>= settle) :=
    (quiet_calleeResult instruction infos _).bind quiet_settle
  rw [invoke_eq]
  simp only [Trace.calls_log, Trace.calls_call, hrest.calls]

/-- The whole of `invoke` for a program other than `dummyProgram`. `runCallee` is then trivial, and
the head of the `Script` alone decides. -/
theorem invoke_apply (instruction : Instruction) (infos : List Account)
    (authority : Option RelayAuthority) (script : Script)
    (hprogram : instruction.program ≠ dummyProgram) :
    invoke instruction infos authority script =
      { result :=
          match script.head?.getD none with
          | none => .ok ()
          | some error => .error { cause := .program error }
        trace :=
          [.log s!"cpi:{instruction.program} signed={authority.isSome}",
           .call (invocationOf instruction infos authority)]
        script := script.tail } := by
  -- Another program's code is not run here, so only the scripted outcome is left to look at.
  have hended : ∀ outcome, (calleeResult instruction infos outcome >>= settle) script.tail =
      { result :=
          match outcome with
          | none => .ok ()
          | some error => .error { cause := .program error }
        trace := []
        script := script.tail } := by
    intro outcome
    cases outcome with
    | some error => rfl
    | none =>
      have hcallee : calleeResult instruction infos none = Pure.pure (.ok ()) := if_neg hprogram
      rw [hcallee]
      rfl
  rw [invoke_eq, hended]

end LendingRelay
