import LendingRelay.Address.Authority
import LendingRelay.Dummy

/-!
# Calling a program

A call is announced in the log, goes out once, and its failure is passed on unchanged. With an
authority the call is signed with its seeds.
-/

namespace LendingRelay

/-- The accounts that an instruction names, found among those passed along, with its flags. -/
def Instruction.namedAccounts (instruction : Instruction) (infos : List Account) : List Account :=
  instruction.accounts.filterMap fun named =>
    (infos.find? (fun account => account.key = named.key)).map fun account =>
      { account with signer := named.signer, writable := named.writable }

/-- The called program's own code. Only the dummy program's is known here; every other program ends
as the script says. The relay sends it nothing but `Dummy.message`, so `Program.entry` without the
instructions of the framework is all of it that a call can reach. -/
def runCallee (instruction : Instruction) (infos : List Account) : Run (Except ProgramError Unit) :=
  if instruction.program = dummyProgram then
    (Dummy.program.entry instruction.program (instruction.namedAccounts infos)
      instruction.data).nested
  else pure (.ok ())

def invoke (instruction : Instruction) (infos : List Account)
    (authority : Option RelayAuthority) : Run Unit := do
  Run.log s!"cpi:{instruction.program} signed={authority.isSome}"
  Run.emit (.call
    { instruction
      infos := infos.map Account.toMeta
      seeds := authority.toList.map RelayAuthority.signerSeeds })
  -- A scripted failure stands for the called program, whichever it is.
  let ended ← match ← Run.nextCall with
    | some error => pure (.error error)
    | none => runCallee instruction infos
  match ended with
  | .ok () => pure ()
  | .error error => Run.fail { cause := .program error }

end LendingRelay
