import LendingRelay.Account
import LendingRelay.Run
import LendingRelay.Text.CamelCase
import LendingRelay.Wire.Decoder
import LendingRelay.Wire.Selector

/-!
# Entering a program

A call of a program names the program, its accounts and its data. The data selects one of the
program's instructions and holds its arguments; bytes behind the arguments are not looked at.

The framework that a program is built with adds instructions of its own, which keep a description of
the program's interface (its IDL) in an account. Their code is the framework's. So here they are a
parameter, `Framework.idl`, and only what leads to them is spelled out.
-/

namespace LendingRelay

/-- What the framework does in every program that is built with it: its own instructions, given the
called id, the accounts, and the bytes behind their selector. -/
structure Framework where
  idl : Pubkey → List Account → Bytes → Run Unit

/-- The framework without these instructions, as a program can ask for it when it is built. -/
def Framework.withoutIdl : Framework where
  idl := fun _ _ _ => Run.fail (.framework .idlInstructionStub)

/-- An instruction as a program offers it: its name, and how its arguments are read. -/
structure InstructionForm (ρ : Type) where
  name : String
  arguments : Decoder ρ

/-- A program whose instructions are requests of type `ρ`. -/
structure Program (ρ : Type) where
  id : Pubkey
  forms : List (InstructionForm ρ)
  run : ρ → List Account → Run Unit

/-- Where a call leads: to an instruction of the program's own, or to those of the framework. -/
inductive Destination (ρ : Type)
  | own (form : InstructionForm ρ)
  | idl

namespace Program

/-- The selector of the framework's instructions. -/
def idlSelector : Bytes :=
  [0x40, 0xf4, 0xbc, 0x78, 0xa7, 0xe9, 0x69, 0x0a]

/-- The selector that is kept for events sent as calls, which no program here offers. -/
def eventCallSelector : Bytes :=
  [0xe4, 0x45, 0xa5, 0x2e, 0x51, 0xcb, 0x9a, 0x1d]

/-- Where a call leads. The program's own instructions come first, so a `form` whose selector is
`idlSelector` or `eventCallSelector` would hide what the framework does with it. -/
def route (program : Program ρ) (id : Pubkey) (data : Bytes) : Except Fault (Destination ρ) :=
  let selector := data.take Selector.length
  if id ≠ program.id then .error (.framework .declaredProgramIdMismatch)
  else if data.length < Selector.length then .error (.framework .instructionMissing)
  else
    match program.forms.find? (fun form => Selector.instruction form.name = selector) with
    | some form => .ok (.own form)
    | none =>
      if selector = idlSelector then .ok .idl
      else if selector = eventCallSelector then .error (.framework .eventInstructionStub)
      else .error (.framework .instructionFallbackNotFound)

/-- The request that the bytes behind the selector stand for. -/
def parse (form : InstructionForm ρ) (data : Bytes) : Except Fault ρ :=
  match form.arguments (data.drop Selector.length) with
  | .ok (request, _) => .ok request
  | .error _ => .error (.framework .instructionDidNotDeserialize)

/-- A call of a program that is built with `framework`. -/
def entryOn (program : Program ρ) (framework : Framework) (id : Pubkey) (accounts : List Account)
    (data : Bytes) : Run Unit := do
  match ← Run.ofExcept (program.route id data) with
  | .own form =>
    -- The instruction is announced even when its arguments turn out to be unreadable.
    Run.log s!"Instruction: {CamelCase.ofSnakeCase form.name}"
    let request ← Run.ofExcept (parse form data)
    program.run request accounts
  | .idl => framework.idl id accounts (data.drop Selector.length)

/-- A call of a program that is built without the instructions of the framework. -/
def entry (program : Program ρ) (id : Pubkey) (accounts : List Account) (data : Bytes) : Run Unit :=
  program.entryOn .withoutIdl id accounts data

end Program

end LendingRelay
