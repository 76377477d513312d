import LendingRelay.Proofs.Reading
import LendingRelay.Proofs.Runs
import LendingRelay.Proofs.Seats

/-!
# Entering the relay

Every call of the relay comes in through one door. The data of a call either starts with a written
request, and then the request is served; or it starts with the selector of the framework's own
instructions, and then the framework takes over; or the call fails without having done anything. So
a statement about all calls of the relay is a statement about served requests, whatever the
framework does with its own.

* `Program.entryOn_of_reads`, `Program.entryOn_of_readsIdl`, `Program.entryOn_of_nothing_read`: the
  three ways a call of any program goes.
* `Relay.selectors_nodup`: no two instructions of the relay share a selector.
* `Relay.reads_iff`, `Relay.readsIdl_iff`: a call of the relay selects a request, or the framework,
  exactly when its data starts that way.
* `Relay.outcome_served`: a call with a written request comes to what serving the request comes to.
-/

namespace LendingRelay

/-! ## Any program -/

namespace Program

/-- The call selects a form of the program by `route`, and the form reads a request from the data
and leaves a tail. -/
def Reads (program : Program ρ) (id : Pubkey) (data : Bytes) (request : ρ) (tail : Bytes) : Prop :=
  ∃ form, program.route id data = .ok (.own form) ∧
    form.arguments (data.drop Selector.length) = .ok (request, tail)

/-- The call goes to `Framework.idl`, with what stands behind the selector. -/
def ReadsIdl (program : Program ρ) (id : Pubkey) (data rest : Bytes) : Prop :=
  program.route id data = .ok .idl ∧ data.drop Selector.length = rest

/-- `route` looks at `Program.forms` first: a form of the program is selected exactly when the data
starts with its selector, whatever `idlSelector` and `eventCallSelector` are. -/
theorem route_eq_own_iff (program : Program ρ) (id : Pubkey) (data : Bytes)
    (form : InstructionForm ρ) :
    program.route id data = .ok (.own form) ↔
      id = program.id ∧ Selector.length ≤ data.length ∧
        program.forms.find? (fun form =>
          Selector.instruction form.name = data.take Selector.length) = some form := by
  unfold route
  by_cases hid : id = program.id
  · by_cases hlength : data.length < Selector.length
    · have hshort : ¬Selector.length ≤ data.length := Nat.not_le_of_lt hlength
      simp [hid, hlength, hshort]
    · have hlength' : Selector.length ≤ data.length := Nat.le_of_not_lt hlength
      simp only [hid, ne_eq, not_true_eq_false, ↓reduceIte, hlength, hlength', true_and]
      cases program.forms.find? (fun form =>
        Selector.instruction form.name = data.take Selector.length) with
      | some found => simp
      | none =>
        -- Without a form the selector is the framework's or an error; neither is `.own`.
        dsimp only
        split
        · simp
        · split <;> simp
  · simp [hid]

/-- `Framework.idl` is selected by `idlSelector`, unless `Program.forms` has a form with this
selector. -/
theorem route_eq_idl_iff (program : Program ρ) (id : Pubkey) (data : Bytes) :
    program.route id data = .ok .idl ↔
      id = program.id ∧ Selector.length ≤ data.length ∧
        program.forms.find? (fun form =>
          Selector.instruction form.name = data.take Selector.length) = none ∧
        data.take Selector.length = idlSelector := by
  unfold route
  by_cases hid : id = program.id
  · by_cases hlength : data.length < Selector.length
    · have hshort : ¬Selector.length ≤ data.length := Nat.not_le_of_lt hlength
      simp [hid, hlength, hshort]
    · have hlength' : Selector.length ≤ data.length := Nat.le_of_not_lt hlength
      simp only [hid, ne_eq, not_true_eq_false, ↓reduceIte, hlength, hlength', true_and]
      cases program.forms.find? (fun form =>
        Selector.instruction form.name = data.take Selector.length) with
      | some found => simp
      | none =>
        dsimp only
        split
        next hidl => simp [hidl]
        next hidl => split <;> simp [hidl]
  · simp [hid]

section

variable {program : Program ρ} (framework : Framework) {id : Pubkey} {data : Bytes}

/-- With an `id` other than `Program.id` the call ends at once, without a look at the data. -/
theorem entryOn_of_id_ne (hid : id ≠ program.id) (accounts : List Account) (data : Bytes) :
    program.entryOn framework id accounts data =
      Run.fail (.framework .declaredProgramIdMismatch) := by
  unfold entryOn route
  rw [if_pos hid]
  rfl

/-- A call that selects a form logs the name of the form, and then `parse` reads the request. -/
theorem entryOn_of_route {form : InstructionForm ρ} (accounts : List Account)
    (hroute : program.route id data = .ok (.own form)) :
    program.entryOn framework id accounts data = (do
      Run.log s!"Instruction: {CamelCase.ofSnakeCase form.name}"
      let request ← Run.ofExcept (parse form data)
      program.run request accounts) := by
  unfold entryOn
  rw [hroute]
  rfl

/-- A call that reads a request logs one line and is then `Program.run`. The framework has no part
in it. -/
theorem entryOn_of_reads {request : ρ} {tail : Bytes} (accounts : List Account)
    (hreads : program.Reads id data request tail) :
    ∃ line, program.entryOn framework id accounts data =
      (Run.log line >>= fun _ => program.run request accounts) := by
  obtain ⟨form, hroute, harguments⟩ := hreads
  have hparse : parse form data = .ok request := by
    unfold parse
    rw [harguments]
  refine ⟨s!"Instruction: {CamelCase.ofSnakeCase form.name}", ?_⟩
  rw [entryOn_of_route framework accounts hroute, hparse]
  rfl

/-- A call with the selector of the framework is what `Framework.idl` makes of it: the program adds
nothing in front of it and nothing behind. -/
theorem entryOn_of_readsIdl {rest : Bytes} (accounts : List Account)
    (hidl : program.ReadsIdl id data rest) :
    program.entryOn framework id accounts data = framework.idl id accounts rest := by
  obtain ⟨hroute, rfl⟩ := hidl
  unfold entryOn
  rw [hroute]
  rfl

/-- A call that reads no request and does not go to `Framework.idl` is refused, by `route` or by
`parse`. -/
theorem entryOn_of_nothing_read (accounts : List Account)
    (hnone : ∀ request tail, ¬program.Reads id data request tail)
    (hidl : ∀ rest, ¬program.ReadsIdl id data rest) :
    Run.Refuses (program.entryOn framework id accounts data) := by
  cases hroute : program.route id data with
  | error fault =>
    unfold entryOn
    rw [hroute]
    exact (Run.refuses_fail fault).bind _
  | ok destination =>
    cases destination with
    | idl => exact absurd ⟨hroute, rfl⟩ (hidl (data.drop Selector.length))
    | own form =>
      cases harguments : form.arguments (data.drop Selector.length) with
      | ok pair => exact absurd ⟨form, hroute, harguments⟩ (hnone pair.1 pair.2)
      | error e =>
        have hparse : parse form data = .error (.framework .instructionDidNotDeserialize) := by
          unfold parse
          rw [harguments]
        rw [entryOn_of_route framework accounts hroute, hparse]
        exact (Run.quiet_log _).refuses_bind fun _ => (Run.refuses_fail _).bind _

/-- **The three ways a call goes:** a request is read, `Framework.idl` takes over, or the call is
refused. Every statement about all calls of a program splits along these. -/
theorem entryOn_cases (program : Program ρ) (framework : Framework) (id : Pubkey)
    (accounts : List Account) (data : Bytes) :
    (∃ request tail, program.Reads id data request tail) ∨
      (∃ rest, program.ReadsIdl id data rest) ∨
      Run.Refuses (program.entryOn framework id accounts data) := by
  by_cases hreads : ∃ request tail, program.Reads id data request tail
  · exact .inl hreads
  · by_cases hidl : ∃ rest, program.ReadsIdl id data rest
    · exact .inr (.inl hidl)
    · refine .inr (.inr (entryOn_of_nothing_read framework accounts ?_ ?_))
      · intro request tail h
        exact hreads ⟨request, tail, h⟩
      · intro rest h
        exact hidl ⟨rest, h⟩

end

end Program

/-! ## Selectors of the relay

The selectors are computed once; everything else about them compares the computed bytes. -/

/-- The data of a call for a request: its selector, and then `Request.arguments`. -/
def Request.data (request : Request) : Bytes :=
  Selector.instruction request.name ++ request.arguments

namespace Relay

theorem selectors_eq :
    Request.forms.map (fun form => Selector.instruction form.name) =
      [[2, 218, 138, 235, 79, 201, 25, 102], [104, 74, 209, 198, 210, 166, 199, 96],
       [47, 40, 115, 198, 91, 12, 222, 49], [251, 10, 231, 76, 27, 11, 159, 96],
       [178, 182, 18, 237, 158, 158, 51, 124], [136, 79, 202, 206, 211, 146, 182, 158],
       [152, 6, 13, 164, 50, 219, 225, 43], [242, 35, 198, 137, 82, 225, 242, 182],
       [183, 18, 70, 156, 148, 109, 161, 34], [176, 83, 229, 18, 191, 143, 176, 150],
       [2, 4, 225, 61, 19, 182, 106, 170], [255, 145, 182, 44, 246, 213, 160, 56],
       [106, 184, 133, 142, 131, 191, 224, 29], [156, 131, 142, 116, 146, 247, 162, 120],
       [115, 135, 168, 106, 139, 214, 138, 150], [194, 102, 166, 130, 91, 74, 188, 81],
       [137, 207, 106, 190, 122, 27, 176, 193], [228, 253, 131, 202, 207, 116, 89, 18],
       [234, 103, 67, 82, 208, 234, 219, 166], [245, 231, 226, 178, 117, 48, 4, 38],
       [190, 39, 168, 27, 64, 254, 136, 97], [151, 223, 56, 201, 226, 1, 213, 4],
       [40, 223, 101, 160, 168, 219, 184, 76], [108, 117, 133, 11, 223, 21, 20, 26],
       [31, 37, 93, 226, 251, 218, 246, 20], [244, 189, 220, 239, 164, 70, 32, 235],
       [127, 124, 243, 168, 135, 24, 186, 147]] := by
  decide +kernel

/-- No two of `Request.forms` share a selector, so the order in which `route` tries them is of no
account. -/
theorem selectors_nodup :
    (Request.forms.map fun form => Selector.instruction form.name).Nodup := by
  rw [selectors_eq]
  decide

/-- No instruction of the relay hides `Framework.idl` behind its own selector, and every selector is
whole. -/
theorem selector_of_mem {form : InstructionForm Request} (hform : form ∈ Request.forms) :
    Selector.instruction form.name ≠ Program.idlSelector ∧
      (Selector.instruction form.name).length = Selector.length := by
  have hall : ∀ selector ∈ Request.forms.map (fun form => Selector.instruction form.name),
      selector ≠ Program.idlSelector ∧ selector.length = Selector.length := by
    rw [selectors_eq]
    decide
  exact hall _ (List.mem_map_of_mem hform)

theorem length_selector (request : Request) :
    (Selector.instruction request.name).length = Selector.length :=
  (selector_of_mem request.form_mem_forms).2

/-! ## Calls of the relay -/

/-- Data that starts with the selector of a form goes to that form. `find?_label` does the search,
by `selectors_nodup`. -/
theorem route_eq {form : InstructionForm Request} (hform : form ∈ Request.forms) (rest : Bytes) :
    program.route relayProgram (Selector.instruction form.name ++ rest) = .ok (.own form) := by
  obtain ⟨-, hlength⟩ := selector_of_mem hform
  have htake : (Selector.instruction form.name ++ rest).take Selector.length =
      Selector.instruction form.name := List.take_left' hlength
  rw [Program.route_eq_own_iff, htake]
  refine ⟨rfl, ?_, find?_label selectors_nodup hform⟩
  rw [List.length_append, hlength]
  exact Nat.le_add_right _ _

/-- Behind the selector of `Request.data` stand the arguments. -/
theorem drop_data (request : Request) (tail : Bytes) :
    (request.data ++ tail).drop Selector.length = request.arguments ++ tail := by
  rw [Request.data, List.append_assoc]
  exact List.drop_left' (length_selector request)

/-- **Calls are read exactly.** `program.Reads` holds precisely when the call names the relay and
its data starts with `Request.data`; the bytes behind it are not looked at. One direction is
`Request.sound_forms`, the other one `Request.decoder_arguments`. -/
theorem reads_iff (id : Pubkey) (data : Bytes) (request : Request) (tail : Bytes) :
    program.Reads id data request tail ↔ id = relayProgram ∧ data = request.data ++ tail := by
  refine ⟨fun hreads => ?_, fun hdata => ?_⟩
  · obtain ⟨form, hroute, harguments⟩ := hreads
    obtain ⟨hid, -, hfind⟩ := (Program.route_eq_own_iff ..).mp hroute
    have hform : form ∈ Request.forms := List.mem_of_find?_eq_some hfind
    -- The selector in front of the data is the one of the form, which is the one of the request.
    have hselector : Selector.instruction form.name = data.take Selector.length := by
      simpa using List.find?_some hfind
    obtain ⟨hname, hrest⟩ := Request.sound_forms form hform _ _ _ harguments
    refine ⟨hid, ?_⟩
    rw [Request.data, hname, List.append_assoc, ← hrest, hselector]
    exact (List.take_append_drop _ _).symm
  · obtain ⟨rfl, rfl⟩ := hdata
    refine ⟨⟨request.name, request.decoder⟩, ?_, ?_⟩
    · rw [Request.data, List.append_assoc]
      exact route_eq request.form_mem_forms _
    · rw [drop_data]
      exact request.decoder_arguments tail

/-- A call with the `Request.data` of a request reads that request. -/
theorem reads_data (request : Request) (tail : Bytes) :
    program.Reads relayProgram (request.data ++ tail) request tail :=
  (reads_iff ..).mpr ⟨rfl, rfl⟩

/-- **The framework keeps its selector.** A call of the relay goes to `Framework.idl` precisely when
it names the relay and its data starts with `Program.idlSelector`, since by `selector_of_mem` no
instruction of the relay is in the way. -/
theorem readsIdl_iff (id : Pubkey) (data rest : Bytes) :
    program.ReadsIdl id data rest ↔
      id = relayProgram ∧ data = Program.idlSelector ++ rest := by
  have hlength : Program.idlSelector.length = Selector.length := rfl
  -- Forward the selector is cut off and put back; backward no form may match it.
  refine ⟨fun hidl => ?_, fun hdata => ?_⟩
  · obtain ⟨hroute, hrest⟩ := hidl
    obtain ⟨hid, -, -, hselector⟩ := (Program.route_eq_idl_iff ..).mp hroute
    refine ⟨hid, ?_⟩
    rw [← hselector, ← hrest, List.take_append_drop]
  · obtain ⟨rfl, rfl⟩ := hdata
    have htake : (Program.idlSelector ++ rest).take Selector.length = Program.idlSelector :=
      List.take_left' hlength
    refine ⟨(Program.route_eq_idl_iff ..).mpr ⟨rfl, ?_, ?_, htake⟩, List.drop_left' hlength⟩
    · rw [List.length_append, hlength]
      exact Nat.le_add_right _ _
    · rw [htake, List.find?_eq_none]
      intro form hform
      simpa using (selector_of_mem hform).1

/-- A call that reads a request does not go to `Framework.idl`: `route` has one answer. -/
theorem not_readsIdl_of_reads {id : Pubkey} {data : Bytes} {request : Request} {tail : Bytes}
    (hreads : program.Reads id data request tail) : ∀ rest, ¬program.ReadsIdl id data rest := by
  rintro rest ⟨hidl, -⟩
  obtain ⟨form, hroute, -⟩ := hreads
  rw [hroute] at hidl
  cases hidl

/-- What a call of the relay comes to for its caller, when the relay is built with `framework`. -/
def outcome (framework : Framework) (id : Pubkey) (accounts : List Account) (data : Bytes)
    (script : Script) : Outcome Unit :=
  (program.entryOn framework id accounts data).conclude script

variable {framework : Framework}

/-- A call with a written request announces the instruction by name and is then `serve`. -/
theorem entry_eq (request : Request) (tail : Bytes) (accounts : List Account) :
    program.entryOn framework relayProgram accounts (request.data ++ tail) =
      (Run.log s!"Instruction: {CamelCase.ofSnakeCase request.name}" >>= fun _ =>
        serve request accounts) := by
  have hroute : program.route relayProgram (request.data ++ tail) =
      .ok (.own ⟨request.name, request.decoder⟩) := by
    rw [Request.data, List.append_assoc]
    exact route_eq request.form_mem_forms _
  -- The form is known by now, so `parse` is the decoder of the request on its own arguments.
  have hparse : Program.parse ⟨request.name, request.decoder⟩ (request.data ++ tail) =
      .ok request := by
    unfold Program.parse
    rw [drop_data]
    dsimp only
    rw [request.decoder_arguments]
  rw [Program.entryOn_of_route framework accounts hroute, hparse]
  rfl

/-- **A call with a written request** logs the name of the instruction, then leaves what `serve`
leaves, and reports a fault by `Run.closingLines`. No other part of the call depends on the tail,
the framework or the way in. -/
theorem outcome_served (request : Request) (tail : Bytes) (accounts : List Account)
    (script : Script) :
    outcome framework relayProgram accounts (request.data ++ tail) script =
      let served := serve request accounts script
      { result := served.result.mapError Fault.result
        trace :=
          .log s!"Instruction: {CamelCase.ofSnakeCase request.name}" ::
            (served.trace ++ (Run.closingLines served.result).map .log)
        script := served.script } := by
  rw [outcome, Run.conclude_eq, entry_eq, Run.bind_of_ok _ rfl]
  rfl

/-- A line in the log is the name of the instruction, was logged by `serve`, or is one of the
`Run.closingLines`. -/
theorem log_mem_outcome_iff (request : Request) (tail : Bytes) (accounts : List Account)
    (script : Script) (line : String) :
    .log line ∈ (outcome framework relayProgram accounts (request.data ++ tail) script).trace ↔
      line = s!"Instruction: {CamelCase.ofSnakeCase request.name}" ∨
        .log line ∈ (serve request accounts script).trace ∨
        line ∈ Run.closingLines (serve request accounts script).result := by
  rw [outcome_served]
  simp

/-- By `outcome_served` a call with a written request makes the calls of `serve`. -/
theorem calls_outcome (request : Request) (tail : Bytes) (accounts : List Account)
    (script : Script) :
    Trace.calls (outcome framework relayProgram accounts (request.data ++ tail) script).trace =
      Trace.calls (serve request accounts script).trace := by
  rw [outcome_served]
  simp

/-- By `outcome_served` a call with a written request announces the events of `serve`. -/
theorem events_outcome (request : Request) (tail : Bytes) (accounts : List Account)
    (script : Script) :
    Trace.events (outcome framework relayProgram accounts (request.data ++ tail) script).trace =
      Trace.events (serve request accounts script).trace := by
  rw [outcome_served]
  simp

/-- By `outcome_served` a call with a written request succeeds exactly when `serve` does. -/
theorem result_outcome_iff (request : Request) (tail : Bytes) (accounts : List Account)
    (script : Script) :
    (outcome framework relayProgram accounts (request.data ++ tail) script).result = .ok () ↔
      (serve request accounts script).result = .ok () := by
  rw [outcome_served]
  exact Run.mapError_eq_ok_iff

/-- A call with `Program.idlSelector` comes to what `Framework.idl` makes of it. -/
theorem outcome_of_readsIdl {id : Pubkey} {data rest : Bytes} (accounts : List Account)
    (script : Script) (hidl : program.ReadsIdl id data rest) :
    outcome framework id accounts data script =
      (framework.idl id accounts rest).conclude script := by
  rw [outcome, Program.entryOn_of_readsIdl framework accounts hidl]

/-- **Whatever is done is done for a request,** or by `Framework.idl`. A call that leaves calls
behind has read the one or gone to the other, since a refused call leaves none. -/
theorem exists_request_of_calls {id : Pubkey} {accounts : List Account} {data : Bytes}
    {script : Script}
    (hcalls : Trace.calls (outcome framework id accounts data script).trace ≠ []) :
    (∃ request tail, program.Reads id data request tail) ∨
      ∃ rest, program.ReadsIdl id data rest := by
  rcases program.entryOn_cases framework id accounts data with hreads | hidl | hrefuses
  · exact .inl hreads
  · exact .inr hidl
  · rw [outcome, Run.calls_conclude, hrefuses.quiet.calls] at hcalls
    exact absurd rfl hcalls

end Relay

end LendingRelay
