import DisasmLens.Listing.Line
import DisasmLens.Markup.Styled
import DisasmLens.Markup.Token
import DisasmLens.Text.Blank

/-!
# Styling a listing

Labels and source locations are styled as a whole. An instruction has an address, then perhaps its bytes,
then its operands; in the operands mnemonics, sizes, numbers and registers are styled word by word, and
symbol references last, so that they win over what they contain.

The address and the bytes are numbers too, which is why the words are looked for behind them only.
-/

namespace DisasmLens.Markup

/-! ### Address and bytes -/

/-- Where the address of an instruction starts and stops: digits in base sixteen behind the blanks at the
start of the line, with a colon after them. -/
def address? (line : Text) : Option (Nat × Nat) :=
  let start := (line.takeWhile Text.isBlank).length
  let rest := line.drop start
  let size := (rest.takeWhile fun c => (Text.hexValue? c).isSome).length
  if 0 < size ∧ (rest.drop size).head? = some ':' then some (start, start + size) else none

def isLowerHex (c : Char) : Bool := ('0' ≤ c && c ≤ '9') || ('a' ≤ c && c ≤ 'f')

/-- The length of the bytes at the start of a text, each written with two digits and a blank. -/
def bytesLength : Text → Nat
  | a :: b :: ' ' :: rest => if isLowerHex a && isLowerHex b then bytesLength rest + 3 else 0
  | _ => 0

/-- The length of the bytes behind an address and of the blanks after them, if a tab and at least one byte
come next. -/
def bytes? : Text → Option (Nat × Nat)
  | '\t' :: rest =>
    let size := bytesLength rest
    if 0 < size then some (size, ((rest.drop size).takeWhile Text.isBlank).length) else none
  | _ => none

/-! ### Operands -/

def wordClasses : List (Style × (Text → Bool)) :=
  [(.mnemonic, Token.isMnemonic), (.size, Token.isSize), (.number, Token.isNumber),
   (.register, Token.isRegister)]

def operandSpans (operands : Text) : List Span :=
  let words := Token.words operands
  (wordClasses.flatMap fun (style, isMember) =>
      (words.filter fun w => isMember w.letters).map fun w => ⟨w.start, w.stop, style⟩)
    ++ (Token.symbols operands).map fun (start, stop) => ⟨start, stop, .symbol⟩

/-- The spans in front of the operands, and where the operands start. -/
def leadingSpans (line : Text) : List Span × Nat :=
  match address? line with
  | none => ([], 0)
  | some (start, stop) =>
    match bytes? (line.drop (stop + 1)) with
    | none => ([⟨start, stop, .address⟩], stop + 1)
    | some (size, blanks) =>
      ([⟨start, stop, .address⟩, ⟨stop + 2, stop + 2 + size, .bytes⟩], stop + 2 + size + blanks)

def instructionSpans (line : Text) : List Span :=
  let (leading, start) := leadingSpans line
  leading ++ (operandSpans (line.drop start)).map (Span.shift start)

/-! ### Lines and listings -/

def line (l : Text) : Styled :=
  let s := Styled.ofText l
  match LineKind.of l with
  | .empty => s
  | .label => s.markAll .label
  | .text => s.markAll .location
  | .instruction => (instructionSpans l).foldl (fun s p => s.mark p.style p.start p.stop) s

def joined : List Text → Styled
  | [] => ⟨[], []⟩
  | [l] => line l
  | l :: ls => line l ++ Styled.ofText ['\n'] ++ joined ls

def listing (t : Text) : Styled := if t = [] then ⟨[], []⟩ else joined t.lines

example : (line "  401131:\t48 89 e5 \tmov    rbp,rsp".toList).spans =
    [⟨2, 8, .address⟩, ⟨10, 19, .bytes⟩, ⟨20, 23, .mnemonic⟩, ⟨27, 30, .register⟩,
     ⟨31, 34, .register⟩] := by decide +kernel

end DisasmLens.Markup
