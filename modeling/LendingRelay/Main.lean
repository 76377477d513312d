import LendingRelay.Golden

/-!
# Command line

Prints the golden vectors of the active network.
-/

open LendingRelay in
def main : IO UInt32 := do
  match Golden.activeVectors with
  | .ok vectors =>
    IO.println vectors.render
    return 0
  | .error error =>
    IO.eprintln error.message
    return 1
