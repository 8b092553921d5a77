import DisasmLens.Text.Printable
import DisasmLens.Text.Rune

/-!
# Quoted text

A text inside a message stands between quotes: apostrophes, unless the text has an apostrophe and no
double quote. The quote and the backslash are escaped, as are line feed, carriage return and tab; every
other code that is not printable is written in base sixteen with two, four or eight digits.
-/

namespace DisasmLens.Quoted

def quoteOf (s : List Rune) : Char :=
  if .scalar '\'' ∈ s ∧ .scalar '"' ∉ s then '"' else '\''

def escape (quote : Char) (r : Rune) : Text :=
  let n := r.code
  if n = quote.toNat ∨ n = 0x5C then ['\\', Char.ofNat n]
  else if n = 0x0A then ['\\', 'n']
  else if n = 0x0D then ['\\', 'r']
  else if n = 0x09 then ['\\', 't']
  else if Text.isPrintableCode n then [Char.ofNat n]
  else if n < 0x100 then '\\' :: 'x' :: Text.hexPadded 2 n
  else if n < 0x10000 then '\\' :: 'u' :: Text.hexPadded 4 n
  else '\\' :: 'U' :: Text.hexPadded 8 n

def ofRunes (s : List Rune) : Text :=
  let q := quoteOf s
  q :: s.flatMap (escape q) ++ [q]

def ofText (t : Text) : Text := ofRunes t.runes

def ofTexts (ts : List Text) : Text := '[' :: Text.joinWith ", " (ts.map ofText) ++ [']']

example : ofTexts ["it's".toList, "a\"'\n".toList] = "[\"it's\", 'a\"\\'\\n']".toList := by
  decide +kernel

end DisasmLens.Quoted
