import LendingRelay.Account

/-!
# Instructions and traces

An instruction names a program, the accounts it touches and its data. A run leaves a trace: the
lines it logged, the events it emitted and the calls it made, in order.
-/

namespace LendingRelay

structure Instruction where
  program : Pubkey
  accounts : List AccountMeta
  data : Bytes
  deriving DecidableEq

/-- A call of another program: the instruction, the accounts passed along with it, and the seed
lists of the addresses that the caller signs for. -/
structure Invocation where
  instruction : Instruction
  infos : List AccountMeta
  seeds : List (List Bytes)
  deriving DecidableEq

inductive TraceEntry
  | log (line : String)
  | data (chunks : List Bytes)
  | call (invocation : Invocation)
  deriving DecidableEq

abbrev Trace := List TraceEntry

namespace Trace

/-- The calls of a trace in order. -/
def calls (trace : Trace) : List Invocation :=
  trace.filterMap fun
    | .call invocation => some invocation
    | _ => none

/-- The event data of a trace in order. -/
def events (trace : Trace) : List (List Bytes) :=
  trace.filterMap fun
    | .data chunks => some chunks
    | _ => none

end Trace

end LendingRelay
