import LendingRelay.Entry
import LendingRelay.Seating

/-!
# The dummy program

A program that logs the key of the one account it is given. It shows that calls arrive.
-/

namespace LendingRelay.Dummy

/-- The name of its only instruction. -/
def messageName : String := "msg"

def slots : List Slot :=
  [.readOnly .dummyAcc]

def logKey (accounts : List Account) : Run Unit := do
  let (seating, _) ← Run.ofExcept (Seating.take dummyProgram slots accounts)
  Run.log s!"dummy_acc: {seating.key .dummyAcc}"

def program : Program Unit where
  id := dummyProgram
  forms := [{ name := messageName, arguments := pure () }]
  run := fun _ accounts => logKey accounts

/-- The instruction that has the program log a key. -/
def message (program account : Pubkey) : Instruction :=
  { program
    accounts := [{ key := account, signer := false, writable := false }]
    data := Selector.instruction messageName }

end LendingRelay.Dummy
