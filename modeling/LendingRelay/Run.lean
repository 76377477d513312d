import LendingRelay.Fault
import LendingRelay.Instruction

/-!
# Runs

A run is told in advance how the calls that it makes will end, one outcome a call. It ends with a
value or a fault, leaves a trace in both cases, and hands on the outcomes that it did not use.
-/

namespace LendingRelay

/-- How the calls of a run end, in order. `none`, and every call past the end, is a success. -/
abbrev Script := List (Option ProgramError)

/-- What a run leaves behind. -/
structure Ended (α : Type) where
  result : Except Fault α
  trace : Trace
  script : Script

def Run (α : Type) : Type := Script → Ended α

/-- What the caller of a run sees of it. -/
structure Outcome (α : Type) where
  result : Except ProgramError α
  trace : Trace
  script : Script

namespace Run

def pure (a : α) : Run α := fun script =>
  { result := .ok a, trace := [], script }

def fail (fault : Fault) : Run α := fun script =>
  { result := .error fault, trace := [], script }

/-- Goes on with `next` after a value; a fault ends the run. -/
def bind (run : Run α) (next : α → Run β) : Run β := fun script =>
  let first := run script
  match first.result with
  | .error fault => { result := .error fault, trace := first.trace, script := first.script }
  | .ok a =>
    let second := next a first.script
    { second with trace := first.trace ++ second.trace }

instance : Monad Run where
  pure := Run.pure
  bind := Run.bind

/-- Adds an entry to the trace. -/
def emit (entry : TraceEntry) : Run Unit := fun script =>
  { result := .ok (), trace := [entry], script }

def log (line : String) : Run Unit :=
  emit (.log line)

/-- How the next call ends. -/
def nextCall : Run (Option ProgramError) := fun script =>
  { result := .ok (script.head?.getD none), trace := [], script := script.tail }

def ofExcept : Except Fault α → Run α
  | .ok a => Run.pure a
  | .error fault => fail fault

/-- A failure that the relay raises in a handler. -/
def raise (error : RelayError) : Run α :=
  fail (.thrown error)

/-- A result of the relay's own arithmetic or of one of its readers. -/
def lift : Except RelayError α → Run α
  | .ok a => Run.pure a
  | .error error => raise error

/-- Requires two keys to be equal. -/
def requireKeysEq (left right : Pubkey) (error : RelayError) : Run Unit :=
  if left = right then Run.pure () else fail (.keysDiffer error left right)

/-- What the caller of a run gets: a fault becomes a result after its report was logged. -/
def conclude (run : Run α) (script : Script) : Outcome α :=
  let ended := run script
  match ended.result with
  | .ok a => { result := .ok a, trace := ended.trace, script := ended.script }
  | .error fault =>
    { result := .error fault.result
      trace := ended.trace ++ fault.lines.map .log
      script := ended.script }

/-- Runs another program's code and goes on with its result. -/
def nested (run : Run α) : Run (Except ProgramError α) := fun script =>
  let outcome := run.conclude script
  { result := .ok outcome.result, trace := outcome.trace, script := outcome.script }

private theorem run_bind_pure (run : Run α) : Run.bind run Run.pure = run := by
  funext script
  unfold Run.bind
  cases h : run script with
  | mk result trace rest => cases result <;> simp [Run.pure]

private theorem run_bind_assoc (run : Run α) (f : α → Run β) (g : β → Run γ) :
    Run.bind (Run.bind run f) g = Run.bind run (fun a => Run.bind (f a) g) := by
  funext script
  unfold Run.bind
  cases h : run script with
  | mk result trace rest =>
    cases result with
    | error fault => rfl
    | ok a =>
      dsimp only
      cases h' : f a rest with
      | mk result' trace' rest' => cases result' <;> simp

instance : LawfulMonad Run :=
  LawfulMonad.mk' Run run_bind_pure (fun _ _ => rfl) run_bind_assoc

end Run

end LendingRelay
