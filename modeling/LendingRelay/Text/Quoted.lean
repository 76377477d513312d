/-!
# Quoted text

A text as error lines show it: between double quotes, with what cannot stand there escaped.
-/

namespace LendingRelay.Quoted

/-- One character between the quotes. Quotes, backslashes and the control characters of ASCII are
escaped; every other character stands for itself, whether or not it can be printed. -/
def escape (c : Char) : String :=
  match c.toNat with
  | 0 => "\\0"
  | 9 => "\\t"
  | 10 => "\\n"
  | 13 => "\\r"
  | 34 => "\\\""
  | 92 => "\\\\"
  | code =>
    if code < 32 ∨ code = 127 then
      "\\u\x7b" ++ String.ofList (Nat.toDigits 16 code) ++ "\x7d"
    else String.singleton c

def ofText (text : String) : String :=
  "\"" ++ String.join (text.toList.map escape) ++ "\""

end LendingRelay.Quoted
