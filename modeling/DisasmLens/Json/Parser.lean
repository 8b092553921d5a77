import DisasmLens.Json.Basic
import DisasmLens.Text.DecimalDigit

/-!
# Reading JSON

`Json.parse` reads one value with blanks around it. Beyond the standard it takes `NaN`, `Infinity` and
`-Infinity`; of several fields with one name the last value counts, at the place of the first.

A text that holds no value is refused with a defect and the position where it shows. The readers below
return the rest of the text, and a position is told by how much of the text was left there. An integer
of more than `Text.maxDigits` digits is refused as well, and so are arrays and objects that stand deeper inside
each other than there is room for.
-/

namespace DisasmLens.Json

inductive Defect where
  | byteOrderMark
  | noValue
  | noName
  | noColon
  | noComma
  | extraText
  | openString
  | controlCharacter
  | badEscape
  | badCode
deriving DecidableEq, Repr

inductive Container where
  | array
  | object
deriving DecidableEq, Repr

/-- Why a text is refused. Lines and columns count from one, and a string that does not end has its defect at its
opening quote. Of the containers that stand too deep the innermost one is given. -/
inductive ReadError where
  | malformed (defect : Defect) (line column position : Nat)
  | longInteger (numeral : Text.LongNumeral)
  | deepNesting (innermost : Container)
deriving DecidableEq, Repr

namespace Parser

/-- Why a reader stopped: a defect with the length of the text left there, an integer too long, or a value too
deep. -/
inductive Stop where
  | at (defect : Defect) (left : Nat)
  | longInteger (numeral : Text.LongNumeral)
  | deepNesting (innermost : Container)

abbrev Result (α : Type) := Except Stop (α × Text)

def isBlank (c : Char) : Bool := c = ' ' || c = '\t' || c = '\n' || c = '\r'

def skipBlanks (s : Text) : Text := s.dropWhile isBlank

/-! ### Strings -/

def code? (a b c d : Char) : Option Nat := do
  let a ← Text.hexValue? a
  let b ← Text.hexValue? b
  let c ← Text.hexValue? c
  let d ← Text.hexValue? d
  return ((a * 16 + b) * 16 + c) * 16 + d

def escape? : Char → Option Char
  | '"' => some '"'
  | '\\' => some '\\'
  | '/' => some '/'
  | 'b' => some '\x08'
  | 'f' => some '\x0c'
  | 'n' => some '\n'
  | 'r' => some '\r'
  | 't' => some '\t'
  | _ => none

/-- Puts a rune in front of a string. The first half of a surrogate pair and the second half at the front
of the string become one character. -/
def pushRune (r : Rune) (s : List Rune) : List Rune :=
  match s with
  | .surrogate k :: rest =>
    if Rune.isHigh r.code ∧ Rune.isLow (Rune.surrogate k).code then
      .ofCode (Rune.joinPair r.code (Rune.surrogate k).code) :: rest
    else r :: s
  | s => r :: s

def push (r : Rune) (result : Result (List Rune)) : Result (List Rune) :=
  result.map fun (s, rest) => (pushRune r s, rest)

/-- Reads a string behind its opening quote, at which `left` of the text was left. -/
def stringBody (left : Nat) : Text → Result (List Rune)
  | [] => .error (.at .openString left)
  | '"' :: rest => .ok ([], rest)
  | ['\\'] => .error (.at .openString left)
  | '\\' :: 'u' :: a :: b :: c :: d :: rest =>
    match code? a b c d, rest with
    | some n, _ :: _ => push (.ofCode n) (stringBody left rest)
    | _, rest => .error (.at .badCode (rest.length + 5))
  | '\\' :: 'u' :: rest => .error (.at .badCode (rest.length + 1))
  | '\\' :: c :: rest =>
    match escape? c with
    | some e => push (.scalar e) (stringBody left rest)
    | none => .error (.at .badEscape (rest.length + 2))
  | c :: rest =>
    if c.toNat ≤ 0x1F then .error (.at .controlCharacter (rest.length + 1))
    else push (.scalar c) (stringBody left rest)

/-! ### Numbers -/

def isDigit (c : Char) : Bool := '0' ≤ c && c ≤ '9'

/-- The digits of a number's whole part: a lone zero, or digits of which the first is none. -/
def wholePart? : Text → Option (Text × Text)
  | '0' :: rest => some (['0'], rest)
  | c :: rest =>
    if isDigit c then some (c :: rest.takeWhile isDigit, rest.dropWhile isDigit) else none
  | [] => none

/-- The digits of a fraction, if a point with a digit after it comes next. -/
def fraction : Text → Text × Text
  | '.' :: c :: rest =>
    if isDigit c then (c :: rest.takeWhile isDigit, rest.dropWhile isDigit) else ([], '.' :: c :: rest)
  | s => ([], s)

def exponentDigits (negative : Bool) (s : Text) : Option (Int × Text) :=
  match s.takeWhile isDigit with
  | [] => none
  | ds =>
    let n : Int := Text.digitsValue ds
    some (if negative then -n else n, s.dropWhile isDigit)

def exponent? : Text → Option (Int × Text)
  | e :: rest =>
    if e = 'e' ∨ e = 'E' then
      match rest with
      | '+' :: rest' => exponentDigits false rest'
      | '-' :: rest' => exponentDigits true rest'
      | rest => exponentDigits false rest
    else none
  | [] => none

/-- Reads a number, of which `left` of the text was left at the start. -/
def number (s : Text) : Result Json :=
  let (negative, unsigned) := match s with
    | '-' :: rest => (true, rest)
    | s => (false, s)
  match wholePart? unsigned with
  | none => .error (.at .noValue s.length)
  | some (whole, rest) =>
    let (part, rest) := fraction rest
    match part, exponent? rest with
    | [], none =>
      match Text.boundedValue whole with
      | .error numeral => .error (.longInteger numeral)
      | .ok n => .ok (.int (if negative then -(n : Int) else n), rest)
    | part, power =>
      let (e, rest) := power.getD (0, rest)
      .ok (.float (.ofDecimal negative (Text.digitsValue (whole ++ part)) (e - part.length)), rest)

/-! ### Values -/

mutual

/-- Reads a value that has room for so many arrays and objects inside each other. Each level of nesting and
each further item takes one or two off the bound, and at least as many characters off the text. -/
def value : (bound room : Nat) → Text → Result Json
  | 0, _, s => .error (.at .noValue s.length)
  | bound + 1, room, s =>
    match s with
    | '"' :: rest => (stringBody s.length rest).map fun (t, rest) => (.string t, rest)
    | '[' :: rest =>
      match room, skipBlanks rest with
      | 0, _ => .error (.deepNesting .array)
      | _ + 1, ']' :: rest => .ok (.array [], rest)
      | room + 1, rest => (items bound room rest).map fun (vs, rest) => (.array vs, rest)
    | '{' :: rest =>
      match room, skipBlanks rest with
      | 0, _ => .error (.deepNesting .object)
      | _ + 1, '}' :: rest => .ok (.object [], rest)
      | room + 1, rest => (fields bound room [] rest).map fun (fs, rest) => (.object fs, rest)
    | 'n' :: 'u' :: 'l' :: 'l' :: rest => .ok (.null, rest)
    | 't' :: 'r' :: 'u' :: 'e' :: rest => .ok (.bool true, rest)
    | 'f' :: 'a' :: 'l' :: 's' :: 'e' :: rest => .ok (.bool false, rest)
    | 'N' :: 'a' :: 'N' :: rest => .ok (.float .nan, rest)
    | 'I' :: 'n' :: 'f' :: 'i' :: 'n' :: 'i' :: 't' :: 'y' :: rest =>
      .ok (.float (.infinite false), rest)
    | '-' :: 'I' :: 'n' :: 'f' :: 'i' :: 'n' :: 'i' :: 't' :: 'y' :: rest =>
      .ok (.float (.infinite true), rest)
    | s => number s

def items : (bound room : Nat) → Text → Result (List Json)
  | 0, _, s => .error (.at .noValue s.length)
  | bound + 1, room, s =>
    match value bound room s with
    | .error stop => .error stop
    | .ok (v, rest) =>
      match skipBlanks rest with
      | ']' :: rest => .ok ([v], rest)
      | ',' :: rest => (items bound room (skipBlanks rest)).map fun (vs, rest) => (v :: vs, rest)
      | rest => .error (.at .noComma rest.length)

/-- Reads the fields of an object up to its closing brace and writes them to those read before. -/
def fields : (bound room : Nat) → Fields → Text → Result Fields
  | 0, _, _, s => .error (.at .noName s.length)
  | bound + 1, room, before, s =>
    match s with
    | '"' :: rest =>
      match stringBody s.length rest with
      | .error stop => .error stop
      | .ok (name, rest) =>
        match skipBlanks rest with
        | ':' :: rest =>
          match value bound room (skipBlanks rest) with
          | .error stop => .error stop
          | .ok (v, rest) =>
            let sofar := before.insert name v
            match skipBlanks rest with
            | '}' :: rest => .ok (sofar, rest)
            | ',' :: rest => fields bound room sofar (skipBlanks rest)
            | rest => .error (.at .noComma rest.length)
        | rest => .error (.at .noColon rest.length)
    | s => .error (.at .noName s.length)

end

def document (room : Nat) (s : Text) : Except Stop Json :=
  match s with
  | '\uFEFF' :: _ => .error (.at .byteOrderMark s.length)
  | s =>
    match value (2 * s.length + 2) room (skipBlanks s) with
    | .error stop => .error stop
    | .ok (v, rest) =>
      match skipBlanks rest with
      | [] => .ok v
      | rest => .error (.at .extraText rest.length)

end Parser

/-- The line and column of a position, counted from one. -/
def lineColumn (s : Text) (position : Nat) : Nat × Nat :=
  let before := s.take position
  (before.count '\n' + 1, (before.reverse.takeWhile (· ≠ '\n')).length + 1)

/-- Reads a JSON value with room for so many arrays and objects inside each other. -/
def parse (room : Nat) (s : Text) : Except ReadError Json :=
  match Parser.document room s with
  | .ok v => .ok v
  | .error (.longInteger numeral) => .error (.longInteger numeral)
  | .error (.deepNesting innermost) => .error (.deepNesting innermost)
  | .error (.at defect left) =>
    let position := s.length - left
    let (line, column) := lineColumn s position
    .error (.malformed defect line column position)

end DisasmLens.Json
