import DisasmLens.Text.Basic

/-!
# Shell words

Splitting a line of arguments into words and writing words as such a line. Words stand between blanks;
apostrophes keep what is between them, double quotes all but a backslash before a backslash or a double
quote, and a backslash outside quotes the character after it. `join` writes a word bare if it has safe
characters only, and between apostrophes otherwise.
-/

namespace DisasmLens.ShellWords

inductive Defect where
  | openQuote
  | openEscape
deriving DecidableEq, Repr

/-- Where a reader stands in a line: between words, in a bare word, in single or double quotes, or behind a backslash.
-/
inductive Mode where
  | between
  | bare
  | single
  | double
  | escaped
  | escapedInDouble
deriving DecidableEq, Repr

def isSpace (c : Char) : Bool := c = ' ' || c = '\t' || c = '\r' || c = '\n'

/-- Reads the words of the rest of a line; `word` holds the characters of the word begun. -/
def splitFrom : Mode → (word : Text) → Text → Except Defect (List Text)
  | .between, _, [] => .ok []
  | .bare, word, [] => .ok [word]
  | .single, _, [] => .error .openQuote
  | .double, _, [] => .error .openQuote
  | .escaped, _, [] => .error .openEscape
  | .escapedInDouble, _, [] => .error .openEscape
  | .between, _, c :: rest =>
    if isSpace c then splitFrom .between [] rest
    else if c = '\\' then splitFrom .escaped [] rest
    else if c = '\'' then splitFrom .single [] rest
    else if c = '"' then splitFrom .double [] rest
    else splitFrom .bare [c] rest
  | .bare, word, c :: rest =>
    if isSpace c then (splitFrom .between [] rest).map (word :: ·)
    else if c = '\\' then splitFrom .escaped word rest
    else if c = '\'' then splitFrom .single word rest
    else if c = '"' then splitFrom .double word rest
    else splitFrom .bare (word ++ [c]) rest
  | .single, word, c :: rest =>
    if c = '\'' then splitFrom .bare word rest else splitFrom .single (word ++ [c]) rest
  | .double, word, c :: rest =>
    if c = '"' then splitFrom .bare word rest
    else if c = '\\' then splitFrom .escapedInDouble word rest
    else splitFrom .double (word ++ [c]) rest
  | .escaped, word, c :: rest => splitFrom .bare (word ++ [c]) rest
  | .escapedInDouble, word, c :: rest =>
    if c = '\\' ∨ c = '"' then splitFrom .double (word ++ [c]) rest
    else splitFrom .double (word ++ ['\\', c]) rest

def split (line : Text) : Except Defect (List Text) := splitFrom .between [] line

def isSafe (c : Char) : Bool :=
  c.isAlphanum || ['_', '@', '%', '+', '=', ':', ',', '.', '/', '-'].contains c

/-- A character between apostrophes. An apostrophe is written between double quotes of its own. -/
def quoteChar (c : Char) : Text := if c = '\'' then ['\'', '"', '\'', '"', '\''] else [c]

def quote (word : Text) : Text :=
  if word ≠ [] ∧ word.all isSafe then word else '\'' :: word.flatMap quoteChar ++ ['\'']

def join (words : List Text) : Text := Text.joinWith [' '] (words.map quote)

example : join ["-plug".toList, "it's".toList, []] = "-plug 'it'\"'\"'s' ''".toList := by decide

end DisasmLens.ShellWords
