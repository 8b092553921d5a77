import DisasmLens.Text.Basic

/-!
# Lines of a disassembly listing

A listing is read line by line. What a line is can be told from its first two characters and its
last one, and every line is of exactly one kind.
-/

namespace DisasmLens

/-- What a line of a listing is: a label ends in a colon, an instruction is indented by two spaces, and what is
neither is text, for most listings a source location. -/
inductive LineKind where
  | empty
  | label
  | instruction
  | text
deriving DecidableEq, Repr

/-- The kind of a line. A colon at the end outweighs the indentation. -/
def LineKind.of (line : Text) : LineKind :=
  if line = [] then .empty
  else if line.getLast? = some ':' then .label
  else if line.take 2 = [' ', ' '] then .instruction
  else .text

example : LineKind.of "main():".toList = .label := by decide

example : LineKind.of "  loop:".toList = .label := by decide

example : LineKind.of "  401131:\tret".toList = .instruction := by decide

end DisasmLens
