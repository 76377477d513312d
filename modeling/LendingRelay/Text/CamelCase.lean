/-!
# Camel case

Instruction names are written in snake case and logged in camel case.
-/

namespace LendingRelay.CamelCase

/-- Drops underscores; the letter after one, and the first if `upper`, becomes a capital. -/
def joinWords (upper : Bool) : List Char → List Char
  | [] => []
  | c :: rest =>
    if c = '_' then joinWords true rest
    else (if upper then c.toUpper else c) :: joinWords false rest

def ofSnakeCase (name : String) : String :=
  String.ofList (joinWords true name.toList)

end LendingRelay.CamelCase
