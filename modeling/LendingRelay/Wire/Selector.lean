import LendingRelay.Hash.Sha256

/-!
# Selectors

Eight bytes in front of instruction and event data say what follows. They are the first bytes of the
hash of a namespace and a name.
-/

namespace LendingRelay.Selector

def length : Nat := 8

/-- The selector of a name within a namespace. -/
def ofName (space name : String) : Bytes :=
  (sha256 (Bytes.ofText (space ++ ":" ++ name))).take length

/-- The selector of an instruction. -/
def instruction (name : String) : Bytes :=
  ofName "global" name

/-- The selector of an event. -/
def event (name : String) : Bytes :=
  ofName "event" name

end LendingRelay.Selector
