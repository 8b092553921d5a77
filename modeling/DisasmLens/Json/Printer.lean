import DisasmLens.Json.Basic
import DisasmLens.Decimal.Shortest

/-!
# Writing JSON

A value is written in ASCII: a code outside the printable range is escaped with four digits in base
sixteen, and one above `0xFFFF` as a surrogate pair. `Json.compact` writes one line, `Json.indented` one
line per item with four blanks for each level.
-/

namespace DisasmLens.Json

/-! ### Strings -/

def escapeUnit (n : Nat) : Text := '\\' :: 'u' :: Text.hexPadded 4 n

def escapeRune (r : Rune) : Text :=
  let n := r.code
  if n = 0x22 then ['\\', '"']
  else if n = 0x5C then ['\\', '\\']
  else if n = 0x0A then ['\\', 'n']
  else if n = 0x0D then ['\\', 'r']
  else if n = 0x09 then ['\\', 't']
  else if n = 0x0C then ['\\', 'f']
  else if n = 0x08 then ['\\', 'b']
  else if 0x20 ≤ n ∧ n ≤ 0x7E then [Char.ofNat n]
  else if n < 0x10000 then escapeUnit n
  else
    let (high, low) := Rune.splitPair n
    escapeUnit high ++ escapeUnit low

def quote (s : List Rune) : Text := '"' :: s.flatMap escapeRune ++ ['"']

/-! ### Numbers -/

def floatText : Binary64 → Text
  | .nan => "NaN"
  | .infinite negative => if negative then "-Infinity" else "Infinity"
  | x => (Shortest.text? x).getD []

/-! ### Values -/

mutual

def compact : Json → Text
  | null => "null"
  | bool b => if b then "true" else "false"
  | int n => Text.decimalInt n
  | float x => floatText x
  | string s => quote s
  | array items => '[' :: Text.joinWith ", " (compactItems items) ++ [']']
  | object fields => '{' :: Text.joinWith ", " (compactFields fields) ++ ['}']

def compactItems : List Json → List Text
  | [] => []
  | v :: rest => compact v :: compactItems rest

def compactFields : List (List Rune × Json) → List Text
  | [] => []
  | (n, v) :: rest => (quote n ++ ": " ++ compact v) :: compactFields rest

end

def breakTo (level : Nat) : Text := '\n' :: List.replicate (4 * level) ' '

/-- Items between brackets, one per line, a level below `level`. -/
def block (level : Nat) (opening closing : Char) (items : List Text) : Text :=
  if items = [] then [opening, closing]
  else
    opening :: breakTo (level + 1) ++ Text.joinWith (',' :: breakTo (level + 1)) items ++
      breakTo level ++ [closing]

mutual

/-- A value over several lines, its first line standing at `level`. -/
def indentedAt (level : Nat) : Json → Text
  | array items => block level '[' ']' (indentedItems (level + 1) items)
  | object fields => block level '{' '}' (indentedFields (level + 1) fields)
  | v => compact v

def indentedItems (level : Nat) : List Json → List Text
  | [] => []
  | v :: rest => indentedAt level v :: indentedItems level rest

def indentedFields (level : Nat) : List (List Rune × Json) → List Text
  | [] => []
  | (n, v) :: rest => (quote n ++ ": " ++ indentedAt level v) :: indentedFields level rest

end

def indented (v : Json) : Text := indentedAt 0 v

end DisasmLens.Json
