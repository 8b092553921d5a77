import DisasmLens.Text.Basic

/-!
# Styled text

Text for a terminal with styles on parts of it. Control characters that would move the cursor are not part
of the plain text. A span covers a nonempty part of the plain text; it is cut at the end of the text and
left out if nothing of it remains.
-/

namespace DisasmLens

inductive Style where
  | label | location | address | bytes | mnemonic | size | number | register | symbol
deriving DecidableEq, Repr

def Style.description : Style → String
  | label => "bold yellow"
  | location => "italic dim cyan"
  | address => "dim cyan"
  | bytes => "dim"
  | mnemonic => "blue"
  | size => "magenta"
  | number => "cyan"
  | register => "bold red"
  | symbol => "yellow"

/-- A style on the characters from `start` up to, but not including, `stop`. -/
structure Span where
  start : Nat
  stop : Nat
  style : Style
deriving DecidableEq, Repr

def Span.shift (distance : Nat) (s : Span) : Span :=
  { s with start := s.start + distance, stop := s.stop + distance }

/-- Text with styles, later ones over earlier ones. -/
structure Styled where
  plain : Text
  spans : List Span
deriving DecidableEq, Repr

namespace Styled

/-- Bell, backspace, vertical tab, form feed and carriage return are not shown. -/
def isShown (c : Char) : Bool := !([7, 8, 11, 12, 13].contains c.toNat)

def ofText (t : Text) : Styled := ⟨t.filter isShown, []⟩

def mark (s : Styled) (style : Style) (start stop : Nat) : Styled :=
  if start < s.plain.length ∧ start < stop then
    { s with spans := s.spans ++ [⟨start, min stop s.plain.length, style⟩] }
  else s

def markAll (s : Styled) (style : Style) : Styled := s.mark style 0 s.plain.length

def append (a b : Styled) : Styled where
  plain := a.plain ++ b.plain
  spans := a.spans ++ b.spans.map (Span.shift a.plain.length)

instance : Append Styled := ⟨append⟩

theorem plain_append (a b : Styled) : (a ++ b).plain = a.plain ++ b.plain := rfl

theorem spans_append (a b : Styled) :
    (a ++ b).spans = a.spans ++ b.spans.map (Span.shift a.plain.length) := rfl

theorem plain_mark (s : Styled) (style : Style) (start stop : Nat) :
    (s.mark style start stop).plain = s.plain := by
  simp only [mark]
  split <;> rfl

end Styled

end DisasmLens
