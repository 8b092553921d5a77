import DisasmLens.Json.Parser
import DisasmLens.Text.Quoted
import DisasmLens.Text.ShellWords
import DisasmLens.Text.Utf8

/-!
# Faults

Why an activity was broken off. A fault is a value with its cause; `Fault.message` is the one place where it
is put into words.
-/

namespace DisasmLens

/-- In what way a tool can fail to run: the system refuses to start it, it is given up after its start, it is started in
a way that makes no sense, or something else goes wrong around it. -/
inductive RunFailure where
  | system
  | abandoned
  | other
  | badRequest
deriving DecidableEq, Repr

inductive Fault where
  | missing (path : Text)
  | denied (path : Text)
  | occupied (path : Text)
  | directory (path : Text)
  | run (failure : RunFailure) (message : Text)
  | encoding (failure : Utf8.Failure)
  | longNumeral (numeral : Text.LongNumeral)
  | deepNesting (innermost : Json.Container)
  | noHome
  | notAList (kind : Json.Kind)
  | notGrowable (kind : Json.Kind)
  | notAText (index : Nat) (kind : Json.Kind)
  | notAName (kind : Json.Kind)
  | surrogates (stray : Text.Stray)
  | words (defect : ShellWords.Defect)
  | noWords
  | nothingToWatch (path : Text)
  | notASource (path : Text)
  | markup (message : Text)
deriving DecidableEq, Repr

namespace Fault

def kindName : Json.Kind → Text
  | .null => "NoneType"
  | .bool => "bool"
  | .int => "int"
  | .float => "float"
  | .string => "str"
  | .array => "list"
  | .object => "dict"

def encodingDefect : Utf8.Defect → Text
  | .badStart => "invalid start byte"
  | .badContinuation => "invalid continuation byte"
  | .truncated => "unexpected end of data"

def encodingMessage (f : Utf8.Failure) : Text :=
  let subject :=
    if f.first = f.last then
      "byte 0x" ++ Text.hexPadded 2 f.byte.toNat ++ " in position " ++ Text.decimal f.first
    else "bytes in position " ++ Text.decimal f.first ++ "-" ++ Text.decimal f.last
  "'utf-8' codec can't decode " ++ subject ++ ": " ++ encodingDefect f.defect

def wordsDefect : ShellWords.Defect → Text
  | .openQuote => "No closing quotation"
  | .openEscape => "No escaped character"

def containerName : Json.Container → Text
  | .array => "array"
  | .object => "object"

def surrogatesMessage (stray : Text.Stray) : Text :=
  let subject :=
    if stray.first = stray.last then
      "character '\\u" ++ Text.hexPadded 4 stray.code ++ "' in position " ++ Text.decimal stray.first
    else "characters in position " ++ Text.decimal stray.first ++ "-" ++ Text.decimal stray.last
  "'utf-8' codec can't encode " ++ subject ++ ": surrogates not allowed"

def message : Fault → Text
  | missing path => "[Errno 2] No such file or directory: " ++ Quoted.ofText path
  | denied path => "[Errno 13] Permission denied: " ++ Quoted.ofText path
  | occupied path => "[Errno 17] File exists: " ++ Quoted.ofText path
  | directory path => "[Errno 21] Is a directory: " ++ Quoted.ofText path
  | run _ message => message
  | encoding failure => encodingMessage failure
  | longNumeral numeral =>
    "Exceeds the limit (4300 digits) for integer string conversion: value has "
      ++ Text.decimal numeral.digits
      ++ " digits; use sys.set_int_max_str_digits() to increase the limit"
  | deepNesting innermost =>
    "maximum recursion depth exceeded while decoding a JSON " ++ containerName innermost
      ++ " from a unicode string"
  | noHome => "Could not determine home directory."
  | notAList kind => "'" ++ kindName kind ++ "' object is not iterable"
  | notGrowable kind => "'" ++ kindName kind ++ "' object has no attribute 'append'"
  | notAText index kind =>
    "sequence item " ++ Text.decimal index ++ ": expected str instance, " ++ kindName kind ++ " found"
  | notAName kind => "expected str, bytes or os.PathLike object, not " ++ kindName kind
  | surrogates stray => surrogatesMessage stray
  | words defect => wordsDefect defect
  | noWords => "'list' object has no attribute 'read'"
  | nothingToWatch path => "Cannot watch non-existent file: " ++ path
  | notASource path => "Not a .jai source file: " ++ path
  | markup message => message

/-- Whether a fault comes from the system: from the file system, or from starting a tool. -/
def isSystem : Fault → Bool
  | missing _ | denied _ | occupied _ | directory _ => true
  | run .system _ => true
  | _ => false

/-- Whether a fault is one that a build reports as its result: any fault of the system, and a tool that was
given up. -/
def isReported (f : Fault) : Bool :=
  f.isSystem || match f with
    | run .abandoned _ => true
    | _ => false

end Fault

def Json.Defect.message : Json.Defect → Text
  | byteOrderMark => "Unexpected UTF-8 BOM (decode using utf-8-sig)"
  | noValue => "Expecting value"
  | noName => "Expecting property name enclosed in double quotes"
  | noColon => "Expecting ':' delimiter"
  | noComma => "Expecting ',' delimiter"
  | extraText => "Extra data"
  | openString => "Unterminated string starting at"
  | controlCharacter => "Invalid control character at"
  | badEscape => "Invalid \\escape"
  | badCode => "Invalid \\uXXXX escape"

end DisasmLens
