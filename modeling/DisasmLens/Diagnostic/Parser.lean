import DisasmLens.Diagnostic.Basic
import DisasmLens.Text.Blank
import DisasmLens.Text.Case
import DisasmLens.Text.DecimalDigit

/-!
# Finding diagnostics in a report

A compiler's report is free text in which a diagnostic has the form

    path:line,column: severity: message

with a comma or a colon between the numbers. The severity is `error` or `warning` in any case. What stands
before the first number may hold anything but a line feed, and where a line could be cut in several ways
the one with the longest such lead counts. The blanks around the severity may contain line feeds, so a
diagnostic can go on in a later line; the search for the next one begins where it ends.
-/

namespace DisasmLens.Diagnostic

structure Parts where
  line : Text
  column : Text
  severity : Text
  message : Text
deriving DecidableEq, Repr

/-- A nonempty run of characters of a class at the start of a text, and the rest. -/
def run? (p : Char → Bool) (t : Text) : Option (Text × Text) :=
  match t.takeWhile p with
  | [] => none
  | cs => some (cs, t.dropWhile p)

/-- The severity word at the start of a text, as it stands there, and the rest. -/
def severity? (t : Text) : Option (Text × Text) :=
  if Text.foldCase (t.take 5) = "error".toList then some (t.take 5, t.drop 5)
  else if Text.foldCase (t.take 7) = "warning".toList then some (t.take 7, t.drop 7)
  else none

def parts? : Text → Option (Parts × Text)
  | ':' :: t => do
    let (line, t) ← run? Text.isDecimalDigit t
    let sep :: t := t | none
    guard (sep = ',' ∨ sep = ':')
    let (column, t) ← run? Text.isDecimalDigit t
    let ':' :: t := t | none
    let (_, t) ← run? Text.isBlank t
    let (severity, t) ← severity? t
    let ':' :: t := t | none
    let (_, t) ← run? Text.isBlank t
    return (⟨line, column, severity, t.takeWhile (· ≠ '\n')⟩, t.dropWhile (· ≠ '\n'))
  | _ => none

/-- The diagnostic that starts in the line at the front of a text, with the longest lead, and the rest of
the text behind it. -/
def inLine? : Text → Option (Parts × Text)
  | [] => none
  | c :: t =>
    if c = '\n' then none
    else
      match inLine? t with
      | some found => some found
      | none => parts? (c :: t)

/-- The diagnostics of a text after its first `skip` characters. A diagnostic is looked for at the start of
each line only, and `atStart` says whether the text begins with one. -/
def scan : (skip : Nat) → (atStart : Bool) → Text → List Parts
  | _, _, [] => []
  | skip + 1, _, c :: t => scan skip (c = '\n') t
  | 0, false, c :: t => scan 0 (c = '\n') t
  | 0, true, c :: t =>
    match inLine? (c :: t) with
    | some (parts, rest) => parts :: scan (t.length - rest.length) (c = '\n') t
    | none => scan 0 (c = '\n') t

/-- The diagnostic of its parts, unless one of its numbers is too long. -/
def ofParts (p : Parts) : Except Text.LongNumeral Diagnostic := do
  let line ← Text.boundedValue p.line
  let column ← Text.boundedValue p.column
  return { line, column, severity := Text.lower p.severity, message := Text.strip p.message }

/-- The diagnostics of a report, in order. The first number that is too long spoils them all. -/
def parseAll (report : Text) : Except Text.LongNumeral (List Diagnostic) :=
  (scan 0 true report).mapM ofParts

example : (parseAll "/a/main.jai:10,5: Error: Undeclared 'x'. ".toList).toOption =
    some [⟨10, 5, "error".toList, "Undeclared 'x'.".toList⟩] := by decide +kernel

end DisasmLens.Diagnostic
