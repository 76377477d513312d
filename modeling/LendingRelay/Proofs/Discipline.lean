import LendingRelay.Proofs.Courses
import LendingRelay.Proofs.Serving

/-!
# The discipline of a call

Everything that is checked is checked before the first call, and from then on the run has a settled
course. So the caller can tell from the result alone what was called and announced, and a failed
call brings back nothing but its own error.

* `Dummy.runCallee_message`: the dummy program answers every message of the relay.
* `Relay.goes_serve`: a served request stops before its first call, or takes its course.
* `Relay.Disciplined`, `Relay.disciplined`: what a caller of the relay can rely on, whatever is sent
  and however the calls end.
-/

namespace LendingRelay

/-! ## The answer of the dummy program -/

namespace Dummy

/-- The data of `Dummy.message` is read as the one request of `Dummy.program`. -/
theorem reads_message : program.Reads dummyProgram (Selector.instruction messageName) () [] := by
  have hlength : (Selector.instruction messageName).length = Selector.length := by decide +kernel
  have htake : (Selector.instruction messageName).take Selector.length =
      Selector.instruction messageName := List.take_of_length_le (Nat.le_of_eq hlength)
  refine ⟨⟨messageName, pure ()⟩, ?_, ?_⟩
  · rw [Program.route_eq_own_iff, htake]
    refine ⟨rfl, Nat.le_of_eq hlength.symm, ?_⟩
    exact List.find?_cons_of_pos (by simp)
  · rw [List.drop_of_length_le (Nat.le_of_eq hlength)]
    rfl

/-- `Dummy.logKey` logs the key of any account it is given. -/
theorem logKey_singleton (account : Account) :
    ∃ line, logKey [account] = Run.log line :=
  ⟨_, rfl⟩

/-- The one account that `Dummy.message` names is found among the accounts passed along. -/
theorem namedAccounts_message {infos : List Account} {account : Account} (hmem : account ∈ infos) :
    ∃ named, (message dummyProgram account.key).namedAccounts infos = [named] := by
  have hfound : (infos.find? fun info => info.key = account.key).isSome :=
    List.find?_isSome.mpr ⟨account, hmem, by simp⟩
  obtain ⟨found, hfound⟩ := Option.isSome_iff_exists.mp hfound
  refine ⟨{ found with signer := false, writable := false }, ?_⟩
  simp [Instruction.namedAccounts, message, hfound]

/-- **The dummy program never fails** on `Dummy.message`: it logs two lines, its instruction and the
key. -/
theorem runCallee_message {infos : List Account} {account : Account} (hmem : account ∈ infos)
    (script : Script) :
    ∃ lines : List String, runCallee (message dummyProgram account.key) infos script =
      { result := .ok (.ok ()), trace := lines.map .log, script } := by
  obtain ⟨named, hnamed⟩ := namedAccounts_message hmem
  obtain ⟨first, hentry⟩ := Program.entryOn_of_reads .withoutIdl [named] reads_message
  obtain ⟨second, hlog⟩ := logKey_singleton named
  -- Named for one account, the entry of the dummy program is two lines of the log.
  have hcallee : runCallee (message dummyProgram account.key) infos =
      (Run.log first >>= fun _ => Run.log second).nested := by
    rw [← hlog]
    have hrun : program.run () [named] = logKey [named] := rfl
    rw [← hrun, ← hentry, ← hnamed]
    exact if_pos rfl
  exact ⟨[first, second], by rw [hcallee]; rfl⟩

end Dummy

/-! ## The courses of the relay -/

/-- Where a call goes, and the selector it goes with. -/
def Invocation.target (invocation : Invocation) : Pubkey × Bytes :=
  (invocation.instruction.program, invocation.instruction.data.take Selector.length)

namespace Request

/-- The calls that serve a request, in order, each by its `Invocation.target`. -/
def targets : Request → List (Pubkey × Bytes)
  | forward call => [(lendingProgram, Selector.instruction call.name)]
  | accrueThen move =>
    [(lendingProgram, Selector.instruction "accrue_interest"),
     (lendingProgram, Selector.instruction move.name)]
  | report _ => []
  | callDummy => [(dummyProgram, Selector.instruction "msg")]

/-- How many events a served request announces: one for an amount and for an account that is opened
or closed, none for the upkeep of a reserve, a report and the dummy program. -/
def eventCount : Request → Nat
  | forward .refreshReserve => 0
  | forward .refreshPsyfiReserve => 0
  | forward .accrueInterest => 0
  | forward _ => 1
  | accrueThen _ => 1
  | report _ => 0
  | callDummy => 0

/-- `Request.eventCount` and `LendingCall.notice?` are two tables, and they agree. -/
theorem length_notice (call : LendingCall) :
    call.notice?.toList.length = (forward call).eventCount := by
  rcases call with _ | _ | _ | _ | _ | _ | _ | _ | _ | _ | ⟨_ | _, _, _, _⟩ <;> rfl

end Request

/-- A call of the lending program goes to the selector of `LendingCall.name`. -/
theorem LendingCall.target_instruction (call : LendingCall) (keys : Role → Pubkey)
    (infos : List Account) (authority : Option RelayAuthority) :
    (invocationOf (call.instruction lendingProgram keys) infos authority).target =
      (lendingProgram, Selector.instruction call.name) := by
  have hlength : (Selector.instruction call.name).length = Selector.length :=
    Relay.length_selector (.forward call)
  exact congrArg (Prod.mk lendingProgram) (List.take_left' hlength)

/-- The event of an admitted call, if it has a `LendingCall.notice?`. -/
def LendingCall.announced (call : LendingCall) (accounts : List Account)
    (authority : Option RelayAuthority) : List (List Bytes) :=
  call.notice?.toList.map fun notice => [(notice.event (call.seats accounts) authority).data]

namespace Relay

/-- `callLine` is the `Invocation.line` of every call of the lending program. -/
theorem callLine_eq (call : LendingCall) (keys : Role → Pubkey) (infos : List Account)
    (authority : Option RelayAuthority) :
    callLine authority =
      .log (invocationOf (call.instruction lendingProgram keys) infos authority).line := by
  have hprogram : (call.instruction lendingProgram keys).program = lendingProgram := rfl
  rw [line_invocationOf, hprogram]
  rfl

/-- How serving a request goes: it stops before its first call, or the calls and the events are
those of the request and the run takes their `Course`. Only a report ends well without a call. -/
inductive Goes (request : Request) (script : Script) (trace : Trace) (result : Except Fault Unit) :
    Prop
  | quiet (hcalls : Trace.calls trace = []) (hevents : Trace.events trace = [])
      (hnothing : result = .ok () → request.targets = [] ∧ request.eventCount = 0)
  | course {calls : List Invocation} {events : List (List Bytes)}
      (htargets : calls.map Invocation.target = request.targets)
      (hcount : events.length = request.eventCount)
      (hcourse : Course events calls script trace result)

/-- A refused run is `Goes.quiet`, and never ends well. -/
theorem goes_of_refuses {request : Request} {run : Run Unit} (hrefuses : Run.Refuses run)
    (script : Script) : Goes request script (run script).trace (run script).result := by
  refine .quiet (hrefuses.quiet.calls script) (hrefuses.quiet.events script) fun hok => ?_
  obtain ⟨fault, hfault⟩ := hrefuses.fails script
  rw [hfault] at hok
  cases hok

/-- An admitted call takes its `Course`, read off `serve_forward_apply` for each end that its call
can have. -/
theorem course_forward {call : LendingCall} {accounts : List Account}
    {authority : Option RelayAuthority} (hadmits : call.Admits accounts authority)
    (script : Script) :
    Course (call.announced accounts authority) [call.invocation accounts authority] script
      (serve (.forward call) accounts script).trace
      (serve (.forward call) accounts script).result := by
  have hline := callLine_eq call (call.seats accounts).key
    (call.passedAlong (call.seats accounts)) authority
  rw [serve_forward_apply hadmits, hline]
  cases hscript : script.head?.getD none with
  | some error => exact .failed _ [] hscript
  | none =>
    have hdone : Course (call.announced accounts authority) [] script.tail
        ((call.announced accounts authority).map .data) (.ok ()) := .done script.tail
    rw [LendingCall.announced, List.map_map] at hdone
    exact .next _ [] hscript hdone

/-- An admitted composed movement takes its `Course`: the accrual, the movement, and one event. The
two calls can end in three ways. -/
theorem course_accrueThen {move : Custody} {accounts : List Account}
    {authority : Option RelayAuthority} (hadmits : move.AdmitsAccrued accounts authority)
    (script : Script) :
    Course
      [[((Notice.amount move.accruedOperation .depositor move.amount).event
        ((LendingCall.custody move).seats (Custody.ownAccounts accounts)) authority).data]]
      [invocationOf (move.steps accounts).precondition (move.accruedAlong accounts) none,
       invocationOf (move.steps accounts).action (move.accruedAlong accounts) authority] script
      (serve (.accrueThen move) accounts script).trace
      (serve (.accrueThen move) accounts script).result := by
  have haccrual := callLine_eq .accrueInterest (LendingCall.accrueInterest.seats accounts).key
    (move.accruedAlong accounts) none
  have haction := callLine_eq (.custody move)
    ((LendingCall.custody move).seats (Custody.ownAccounts accounts)).key
    (move.accruedAlong accounts) authority
  rw [serve_accrueThen_apply hadmits, haccrual, haction]
  -- One constructor of `Course` for each call: `failed` where the script fails it, `next` past it.
  cases hfirst : script.head?.getD none with
  | some error => exact .failed _ [_] hfirst
  | none =>
    cases hsecond : script.tail.head?.getD none with
    | some error => exact .next _ [] hfirst (.failed _ [] hsecond)
    | none => exact .next _ [] hfirst (.next _ [] hsecond (.done _))

/-- A message to the dummy program takes its `Course`, in which the dummy program logs by
`Dummy.runCallee_message`. -/
theorem course_message {infos : List Account} {account : Account} (hmem : account ∈ infos)
    (script : Script) :
    Course [] [invocationOf (Dummy.message dummyProgram account.key) infos none] script
      (invoke (Dummy.message dummyProgram account.key) infos none script).trace
      (invoke (Dummy.message dummyProgram account.key) infos none script).result := by
  rw [invoke_eq, ← line_invocationOf]
  cases hscript : script.head?.getD none with
  | some error => exact .failed _ [] hscript
  | none =>
    obtain ⟨lines, hcallee⟩ := Dummy.runCallee_message hmem script.tail
    have hended : (calleeResult (Dummy.message dummyProgram account.key) infos none >>= settle)
        script.tail =
          { result := .ok (), trace := lines.map .log ++ [], script := script.tail } := by
      show (runCallee (Dummy.message dummyProgram account.key) infos >>= settle) script.tail = _
      rw [Run.bind_of_ok settle (by rw [hcallee]), hcallee]
      rfl
    rw [hended]
    exact .next _ lines hscript (.done script.tail)

theorem course_callDummy {accounts : List Account}
    (hfits : Seating.Fits relayProgram dummySlots accounts) (script : Script) :
    Course [] [dummyInvocation accounts] script (serve .callDummy accounts script).trace
      (serve .callDummy accounts script).result := by
  rw [serve_callDummy_of_fits hfits]
  exact course_message List.mem_cons_self script

theorem target_dummyInvocation (accounts : List Account) :
    (dummyInvocation accounts).target = (dummyProgram, Selector.instruction "msg") := by
  have hlength : (Selector.instruction "msg").length = Selector.length := by decide +kernel
  exact congrArg (Prod.mk dummyProgram) (List.take_of_length_le (Nat.le_of_eq hlength))

/-- **How every request goes.** Each kind of request is admitted, and takes its `Course`, or is
refused. -/
theorem goes_serve (request : Request) (accounts : List Account) (script : Script) :
    Goes request script (serve request accounts script).trace
      (serve request accounts script).result := by
  -- Whether the accounts are in order decides between a course and a refusal; a report has neither.
  cases request with
  | forward call =>
    by_cases hadmits : ∃ authority, call.Admits accounts authority
    · obtain ⟨authority, hadmits⟩ := hadmits
      refine .course ?_ ?_ (course_forward hadmits script)
      · exact congrArg (fun target => [target]) (call.target_instruction ..)
      · rw [LendingCall.announced, List.length_map, Request.length_notice]
    · exact goes_of_refuses
        (serve_forward_of_not_admits fun authority h => hadmits ⟨authority, h⟩) script
  | accrueThen move =>
    by_cases hadmits : ∃ authority, move.AdmitsAccrued accounts authority
    · obtain ⟨authority, hadmits⟩ := hadmits
      refine .course ?_ rfl (course_accrueThen hadmits script)
      have haccrual := LendingCall.target_instruction .accrueInterest
        (LendingCall.accrueInterest.seats accounts).key (move.accruedAlong accounts) none
      have haction := LendingCall.target_instruction (.custody move)
        ((LendingCall.custody move).seats (Custody.ownAccounts accounts)).key
        (move.accruedAlong accounts) authority
      exact congr (congrArg (fun first second => [first, second]) haccrual) haction
    · exact goes_of_refuses
        (serve_accrueThen_of_not_admits fun authority h => hadmits ⟨authority, h⟩) script
  | report report =>
    have hquiet := (logs_serve_report report accounts).quiet
    exact .quiet (hquiet.calls script) (hquiet.events script) fun _ => ⟨rfl, rfl⟩
  | callDummy =>
    by_cases hfits : Seating.Fits relayProgram dummySlots accounts
    · refine .course ?_ rfl (course_callDummy hfits script)
      exact congrArg (fun target => [target]) (target_dummyInvocation accounts)
    · exact goes_of_refuses ((refuses_takeSeats hfits).bind _) script

/-! ## What the caller can rely on -/

/-- The discipline of a call of the relay: what its result says about its trace, and what becomes of
a failed call.

* Every call has its `Invocation.line` directly in front of it.
* After a success the calls are the `Request.targets`, in order, and behind the last one there are
  `Request.eventCount` events.
* After a failure there is no event.
* A call that failed is the last one made, and the result is its error.
* Once there was a call, nothing but a failed call makes the whole fail. -/
structure Disciplined (id : Pubkey) (data : Bytes) (script : Script) (ended : Outcome Unit) :
    Prop where
  announced : ∀ i invocation, ended.trace[i]? = some (.call invocation) →
    ∃ j, i = j + 1 ∧ ended.trace[j]? = some (.log invocation.line)
  succeeded : ended.result = .ok () → ∃ request tail, program.Reads id data request tail ∧
    (Trace.calls ended.trace).map Invocation.target = request.targets ∧
    (Trace.events ended.trace).length = request.eventCount ∧
    Trace.effects ended.trace =
      (Trace.calls ended.trace).map .call ++ (Trace.events ended.trace).map .data
  silent : ∀ error, ended.result = .error error → Trace.events ended.trace = []
  failed : ∀ i error, i < (Trace.calls ended.trace).length → script[i]? = some (some error) →
    i + 1 = (Trace.calls ended.trace).length ∧ ended.result = .error error
  completed : Trace.calls ended.trace ≠ [] →
    (∀ i, i < (Trace.calls ended.trace).length → (script[i]?).getD none = none) →
    ended.result = .ok ()

/-- A run without calls and events is `Disciplined` if it ends well only for a request that has
none. -/
theorem disciplined_of_nothing {id : Pubkey} {data : Bytes} {script : Script}
    {ended : Outcome Unit} (hcalls : Trace.calls ended.trace = [])
    (hevents : Trace.events ended.trace = [])
    (hnothing : ended.result = .ok () → ∃ request tail, program.Reads id data request tail ∧
      request.targets = [] ∧ request.eventCount = 0) :
    Disciplined id data script ended where
  announced := fun i invocation hcall =>
    (Trace.announced_of_no_calls hcalls).line_before hcall
  succeeded := by
    intro hok
    obtain ⟨request, tail, hreads, htargets, hcount⟩ := hnothing hok
    refine ⟨request, tail, hreads, ?_, ?_, ?_⟩
    · rw [hcalls, htargets]
      rfl
    · rw [hevents, hcount]
      rfl
    · rw [hcalls, hevents, Trace.effects_of_nothing hcalls hevents]
      rfl
  silent := fun _ _ => hevents
  failed := by
    intro i error hmade
    rw [hcalls] at hmade
    cases hmade
  completed := fun hmade => absurd hcalls hmade

/-- What is logged around `serve` is the name of the instruction and the lines of a fault. -/
theorem outcome_eq (framework : Framework) (request : Request) (tail : Bytes)
    (accounts : List Account) (script : Script) :
    ∃ (line : String) (lines : List String),
      (outcome framework relayProgram accounts (request.data ++ tail) script).trace =
          .log line :: ((serve request accounts script).trace ++ lines.map .log) ∧
        (outcome framework relayProgram accounts (request.data ++ tail) script).result =
          (serve request accounts script).result.mapError Fault.result := by
  rw [outcome_served]
  exact ⟨_, _, rfl, rfl⟩

/-- A `Course` stays `Disciplined` between the name of the instruction and the report of a fault. -/
theorem disciplined_of_course {request : Request} {tail : Bytes} {script : Script}
    {ended : Outcome Unit} {calls : List Invocation} {events : List (List Bytes)} {trace : Trace}
    {result : Except Fault Unit} {line : String} {lines : List String}
    (htargets : calls.map Invocation.target = request.targets)
    (hcount : events.length = request.eventCount)
    (hcourse : Course events calls script trace result)
    (htrace : ended.trace = .log line :: (trace ++ lines.map .log))
    (hresult : ended.result = result.mapError Fault.result) :
    Disciplined relayProgram (request.data ++ tail) script ended := by
  have hcalls : Trace.calls ended.trace = Trace.calls trace := by simp [htrace]
  have hevents : Trace.events ended.trace = Trace.events trace := by simp [htrace]
  have heffects : Trace.effects ended.trace = Trace.effects trace := by simp [htrace]
  -- Only log lines were added, so the facts about the course carry over one by one.
  constructor
  case announced =>
    intro i invocation hcall
    rw [htrace] at hcall ⊢
    have hlines := Trace.announced_of_no_calls (Trace.calls_map_log lines)
    exact (Trace.Announced.log line (hcourse.announced.append hlines)).line_before hcall
  case succeeded =>
    intro hok
    have hserved : result = .ok () := by
      rw [hresult] at hok
      cases result with
      | ok u => rfl
      | error fault => cases hok
    obtain ⟨hall, hannounced, hordered⟩ := hcourse.effects_of_ok hserved
    refine ⟨request, tail, reads_data request tail, ?_, ?_, ?_⟩
    · rw [hcalls, hall, htargets]
    · rw [hevents, hannounced, hcount]
    · rw [heffects, hcalls, hevents, hordered, hall, hannounced]
  case silent =>
    intro error herror
    rw [hevents]
    rw [hresult] at herror
    cases result with
    | ok u => cases herror
    | error fault => exact hcourse.events_of_error rfl
  case failed =>
    intro i error hmade hfailed
    rw [hcalls] at hmade ⊢
    obtain ⟨hlast, herror⟩ := hcourse.failed_last hmade hfailed
    refine ⟨hlast, ?_⟩
    rw [hresult, herror]
    rfl
  case completed =>
    intro _ hsucceed
    rw [hcalls] at hsucceed
    rw [hresult, hcourse.ok_of_all_succeed hsucceed]
    rfl

variable {framework : Framework}

/-- A call that reads a request is `Disciplined`, whichever way the request goes by `goes_serve`. -/
theorem disciplined_of_reads {id : Pubkey} {data tail : Bytes} {request : Request}
    (hreads : program.Reads id data request tail) (accounts : List Account) (script : Script) :
    Disciplined id data script (outcome framework id accounts data script) := by
  obtain ⟨rfl, rfl⟩ := (reads_iff ..).mp hreads
  obtain ⟨line, lines, htrace, hresult⟩ := outcome_eq framework request tail accounts script
  rcases goes_serve request accounts script with
    ⟨hcalls, hevents, hnothing⟩ | ⟨htargets, hcount, hcourse⟩
  · refine disciplined_of_nothing ?_ ?_ fun hok => ⟨request, tail, hreads, ?_⟩
    · rw [calls_outcome, hcalls]
    · rw [events_outcome, hevents]
    · exact hnothing ((result_outcome_iff ..).mp hok)
  · exact disciplined_of_course htargets hcount hcourse htrace hresult

/-- A refused call is `Disciplined`: it never succeeds, and it leaves nothing but lines behind. -/
theorem disciplined_of_refuses {id : Pubkey} {accounts : List Account} {data : Bytes}
    (hrefuses : Run.Refuses (program.entryOn framework id accounts data)) (script : Script) :
    Disciplined id data script (outcome framework id accounts data script) := by
  refine disciplined_of_nothing ?_ ?_ fun hok => ?_
  · rw [outcome, Run.calls_conclude, hrefuses.quiet.calls]
  · rw [outcome, Run.events_conclude, hrefuses.quiet.events]
  · obtain ⟨fault, hfault⟩ := hrefuses.fails script
    rw [outcome, Run.result_conclude_ok_iff, hfault] at hok
    cases hok

/-- **Every call of the relay is `Disciplined`,** whatever is sent, whichever accounts come with it
and however the calls that it makes end. Only data that starts with `Program.idlSelector` is no
matter of the relay's: such a call comes to exactly what `Framework.idl` makes of it. -/
theorem disciplined (framework : Framework) (id : Pubkey) (accounts : List Account) (data : Bytes)
    (script : Script) :
    ((∀ rest, ¬program.ReadsIdl id data rest) →
        Disciplined id data script (outcome framework id accounts data script)) ∧
      ∀ rest, program.ReadsIdl id data rest →
        outcome framework id accounts data script =
          (framework.idl id accounts rest).conclude script := by
  refine ⟨fun hown => ?_, fun rest hidl => outcome_of_readsIdl accounts script hidl⟩
  -- The framework is excluded by hypothesis, so the call is served or refused.
  rcases program.entryOn_cases framework id accounts data with
    ⟨request, tail, hreads⟩ | ⟨rest, hidl⟩ | hrefuses
  · exact disciplined_of_reads hreads accounts script
  · exact absurd hidl (hown rest)
  · exact disciplined_of_refuses hrefuses script

/-- The accrual in front of `poolDeposit` succeeds, and then the lending program turns the deposit
down with an error of the runtime. That error comes back, and nothing is announced. -/
theorem disciplined_refusedDeposit :
    (∀ rest, ¬program.ReadsIdl relayProgram ((Request.accrueThen poolMove).data ++ [0xff]) rest) ∧
      (outcome .withoutIdl relayProgram (poolAccrualAccounts ++ poolAccounts)
          ((Request.accrueThen poolMove).data ++ [0xff]) [none, some .illegalOwner]).result =
        .error .illegalOwner ∧
      Trace.events (outcome .withoutIdl relayProgram (poolAccrualAccounts ++ poolAccounts)
          ((Request.accrueThen poolMove).data ++ [0xff]) [none, some .illegalOwner]).trace =
        [] := by
  have hown := not_readsIdl_of_reads (reads_data (.accrueThen poolMove) [0xff])
  have hdisciplined := (disciplined .withoutIdl relayProgram (poolAccrualAccounts ++ poolAccounts)
    ((Request.accrueThen poolMove).data ++ [0xff]) [none, some .illegalOwner]).1 hown
  have htwo : 1 < (Trace.calls (outcome .withoutIdl relayProgram
      (poolAccrualAccounts ++ poolAccounts) ((Request.accrueThen poolMove).data ++ [0xff])
      [none, some .illegalOwner]).trace).length := by
    obtain ⟨authority, hadmits⟩ := admits_poolAccrual
    rw [calls_outcome, calls_serve_accrueThen hadmits]
    exact Nat.one_lt_two
  obtain ⟨-, herror⟩ := hdisciplined.failed 1 .illegalOwner htwo rfl
  exact ⟨hown, herror, hdisciplined.silent _ herror⟩

end Relay

end LendingRelay
