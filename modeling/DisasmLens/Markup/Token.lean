import DisasmLens.Text.Case
import DisasmLens.Text.Word

/-!
# Tokens of an instruction

The operands of an instruction are read as words, that is, maximal runs of word characters. A word is styled
by the class that it belongs to as a whole; mnemonics and registers are recognised in any case. A symbol
reference is what stands between angle brackets.
-/

namespace DisasmLens.Token

/-! ### Words -/

structure Word where
  start : Nat
  letters : Text
deriving DecidableEq, Repr

def Word.stop (w : Word) : Nat := w.start + w.letters.length

/-- The words of a text at a position; `letters` holds the characters of the word that reaches up to it. -/
def wordsFrom (position : Nat) (letters : Text) : Text → List Word
  | [] => if letters = [] then [] else [⟨position - letters.length, letters⟩]
  | c :: rest =>
    if Text.isWord c then wordsFrom (position + 1) (letters ++ [c]) rest
    else if letters = [] then wordsFrom (position + 1) [] rest
    else ⟨position - letters.length, letters⟩ :: wordsFrom (position + 1) [] rest

def words (t : Text) : List Word := wordsFrom 0 [] t

/-! ### Classes of words -/

def mnemonics : List Text :=
  ["mov", "movx", "movz", "movb", "movw", "movd", "movq",
   "movs", "movsx", "movsz", "movsb", "movsw", "movsd", "movsq", "movss",
   "movabs", "lea", "add", "sub", "imul", "idiv", "mul", "div", "inc", "dec", "neg",
   "addss", "addsd", "subss", "subsd", "mulss", "mulsd", "divss", "divsd",
   "cmp", "test", "and", "or", "xor", "not", "shl", "shr", "sar", "sal",
   "jmp", "je", "jne", "jz", "jnz", "jg", "jge", "jl", "jle", "ja", "jae", "jb", "jbe",
   "call", "ret", "push", "pop", "nop", "int", "int3", "syscall", "leave", "enter",
   "endbr64"].map String.toList

/-- Names of operations: the single words, and the families of conditional moves, conditional sets and
conversions. -/
def isMnemonic (word : Text) : Bool :=
  let w := Text.foldCase word
  mnemonics.contains w
    || (w.take 4 = "cmov".toList && 4 < w.length)
    || (w.take 3 = "cvt".toList && 3 < w.length)
    || (w.take 3 = "set".toList && (w.length = 4 || w.length = 5))

def sizes : List Text :=
  ["DWORD", "QWORD", "WORD", "BYTE", "XMMWORD", "YMMWORD", "PTR"].map String.toList

/-- Sizes of operands, in capital letters only. -/
def isSize (word : Text) : Bool := sizes.contains word

def isDigit (c : Char) : Bool := '0' ≤ c && c ≤ '9'

/-- Numbers: decimal digits, or digits in base sixteen behind `0x`. -/
def isNumber (word : Text) : Bool :=
  match word with
  | '0' :: 'x' :: d :: rest => (d :: rest).all fun c => (Text.hexValue? c).isSome
  | word => word ≠ [] && word.all isDigit

def registers : List Text :=
  ["rax", "rbx", "rcx", "rdx", "rsi", "rdi", "rbp", "rsp", "rip",
   "eax", "ebx", "ecx", "edx", "esi", "edi", "ebp", "esp",
   "ax", "bx", "cx", "dx", "ah", "bh", "ch", "dh", "al", "bl", "cl", "dl",
   "si", "di", "sil", "dil", "bp", "sp", "bpl", "spl"].map String.toList

def registerNumbers : List Text :=
  ["8", "9", "10", "11", "12", "13", "14", "15"].map String.toList

/-- The rest of a numbered general register's name: a number, perhaps with the letter of a size. -/
def isRegisterNumber (t : Text) : Bool :=
  registerNumbers.contains t
    || (registerNumbers.contains t.dropLast && [some 'd', some 'w', some 'b'].contains t.getLast?)

def isRegister (word : Text) : Bool :=
  let w := Text.foldCase word
  registers.contains w
    || (w.take 1 = ['r'] && isRegisterNumber (w.drop 1))
    || (["xmm".toList, "ymm".toList, "zmm".toList].contains (w.take 3)
        && w.drop 3 ≠ [] && (w.drop 3).all isDigit)

/-! ### Symbol references -/

/-- The symbol references of a text at a position, each with its start and stop; `opened` is the place of an
angle bracket that waits for its partner. A pair with nothing between it is no reference. -/
def symbolsFrom : (position : Nat) → (opened : Option Nat) → Text → List (Nat × Nat)
  | _, _, [] => []
  | p, none, c :: rest => symbolsFrom (p + 1) (if c = '<' then some p else none) rest
  | p, some start, c :: rest =>
    if c = '>' then
      if start + 1 < p then (start, p + 1) :: symbolsFrom (p + 1) none rest
      else symbolsFrom (p + 1) none rest
    else symbolsFrom (p + 1) (some start) rest

def symbols (t : Text) : List (Nat × Nat) := symbolsFrom 0 none t

example : (words "mov rax, <f+0x1>".toList).map Word.start = [0, 4, 10, 12] := by decide +kernel

end DisasmLens.Token
