import DisasmLens.Json.Printer
import DisasmLens.Text.Quoted

/-!
# Values in messages

How a value shows inside a message: a string as it is, and everything else, also a string inside an array or
an object, in the notation of a literal.
-/

namespace DisasmLens.Json

mutual

def literal : Json → Text
  | null => "None"
  | bool b => if b then "True" else "False"
  | int n => Text.decimalInt n
  | float .nan => "nan"
  | float (.infinite negative) => if negative then "-inf" else "inf"
  | float x => floatText x
  | string s => Quoted.ofRunes s
  | array items => '[' :: Text.joinWith ", " (literalItems items) ++ [']']
  | object fields => '{' :: Text.joinWith ", " (literalFields fields) ++ ['}']

def literalItems : List Json → List Text
  | [] => []
  | v :: rest => literal v :: literalItems rest

def literalFields : List (List Rune × Json) → List Text
  | [] => []
  | (n, v) :: rest => (Quoted.ofRunes n ++ ": " ++ literal v) :: literalFields rest

end

def str : Json → List Rune
  | string s => s
  | v => Text.runes (literal v)

def display (v : Json) : Text := Text.shown v.str

end DisasmLens.Json
