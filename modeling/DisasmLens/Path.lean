import DisasmLens.Text.Basic

/-!
# Paths

A path is a text; its components stand between slashes. Seen from a working directory a path is absolute: it
leads to a location, the list of the names on the way from the root, by its text alone. An empty component and
`.` stand for nothing, and `..` takes the name before it away.

The root is written as one slash. A path may also start with exactly two, which lead to the same place; they
stay in the absolute form of the path (`Path.absolute`), but resolving a path that is absolute already makes
them one (`Path.resolve`).

A source file is known by its extension. The executable that is built from it lies beside it and has the
same name without the extension.
-/

namespace DisasmLens

/-- A place in the file system: the names on the way from the root. -/
abbrev Location := List Text

namespace Location

def text (l : Location) : Text := '/' :: Text.joinWith ['/'] l

/-- The directory that holds a location. The root holds itself. -/
def parent (l : Location) : Location := l.dropLast

def way (l : Location) : List Location := (List.range l.length).map fun n => l.take n

end Location

structure AbsolutePath where
  location : Location
  hasTwoSlashes : Bool
deriving DecidableEq, Repr

namespace AbsolutePath

def text (p : AbsolutePath) : Text :=
  if p.hasTwoSlashes then '/' :: p.location.text else p.location.text

def parent (p : AbsolutePath) : AbsolutePath := { p with location := p.location.parent }

end AbsolutePath

namespace Path

/-! ### Components -/

/-- The components of a path that name something. -/
def components (p : Text) : List Text := (p.splitOn '/').filter fun c => c ≠ [] ∧ c ≠ ['.']

def isAbsolute (p : Text) : Bool := p.head? = some '/'

/-- A path as seen from a directory. One slash stands between the two, unless the directory ends in one. -/
def within (directory p : Text) : Text :=
  if isAbsolute p ∨ directory = [] then p
  else if directory.getLast? = some '/' then directory ++ p
  else directory ++ '/' :: p

def follow (start : Location) (cs : List Text) : Location :=
  cs.foldl (fun l c => if c = ['.', '.'] then l.dropLast else l ++ [c]) start

def hasTwoSlashes (p : Text) : Bool := p.take 2 = ['/', '/'] && (p.drop 2).head? ≠ some '/'

def absolute (directory p : Text) : AbsolutePath :=
  let q := within directory p
  ⟨follow [] (components q), hasTwoSlashes q⟩

/-- The absolute form of a path as seen from a directory. Two slashes can only come from the directory. -/
def resolve (directory p : Text) : AbsolutePath :=
  let q := absolute directory p
  if isAbsolute p then { q with hasTwoSlashes := false } else q

/-! ### Texts of components -/

def root (p : Text) : Text := if hasTwoSlashes p then ['/', '/'] else if isAbsolute p then ['/'] else []

/-- The path of components behind a root. With neither it is the working directory's. -/
def ofComponents (root : Text) (cs : List Text) : Text :=
  if root = [] ∧ cs = [] then ['.'] else root ++ Text.joinWith ['/'] cs

def tidy (p : Text) : Text := ofComponents (root p) (components p)

/-- The paths that are left of a path when components are taken from its end, the longest first. -/
def above (p : Text) : List Text :=
  let cs := components p
  (List.range cs.length).reverse.map fun n => ofComponents (root p) (cs.take n)

def join (directory name : Text) : Text := tidy (within directory name)

def baseName (p : Text) : Text := (p.reverse.takeWhile (· ≠ '/')).reverse

/-! ### Source files -/

/-- The extension of a path, from the last point of its last component on. A point at the start or the end
of the component begins none. -/
def extension (p : Text) : Text :=
  let name := (components p).getLast?.getD []
  let part := (name.reverse.takeWhile (· ≠ '.')).length
  if part = 0 ∨ name.length ≤ part + 1 then [] else name.drop (name.length - (part + 1))

def sourceExtension : Text := ".jai".toList

def isSource (p : Text) : Bool := extension p = sourceExtension

/-- The path of the executable of a source file: the path without the extension. -/
def executable (p : Text) : Text :=
  if sourceExtension <:+ p then p.take (p.length - sourceExtension.length) else p

example : (resolve "/work".toList "sub//../x.jai".toList).text = "/work/x.jai".toList := by
  decide +kernel

example : (resolve "//work".toList "x.jai".toList).text = "//work/x.jai".toList := by decide +kernel

example : (resolve "/work".toList "//a/./b".toList).text = "/a/b".toList := by decide +kernel

example : isSource "a/.jai".toList = false := by decide +kernel

example : (absolute "/work".toList "//a/./b".toList).text = "//a/b".toList := by decide +kernel

example : above "a/b".toList = ["a".toList, ".".toList] := by decide +kernel

end Path

end DisasmLens
