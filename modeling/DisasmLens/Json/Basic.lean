import DisasmLens.Decimal.Binary64
import DisasmLens.Text.Rune

/-!
# JSON values

Integers are exact, and a number written with a fraction or an exponent is a binary floating point
number. An object is the list of its fields in the order in which their names first appeared; writing to
a name that is already there keeps its place (`Fields.insert`).
-/

namespace DisasmLens

/-- A JSON value. A number with a fraction or an exponent is a float, as are the three values that are no decimals. -/
inductive Json where
  | null
  | bool (b : Bool)
  | int (n : Int)
  | float (x : Binary64)
  | string (s : List Rune)
  | array (items : List Json)
  | object (fields : List (List Rune × Json))

abbrev Fields := List (List Rune × Json)

namespace Fields

/-- Gives a name a value. A name that is there keeps its place, a new one goes to the end. -/
def insert (name : List Rune) (value : Json) : Fields → Fields
  | [] => [(name, value)]
  | (n, v) :: rest => if n = name then (n, value) :: rest else (n, v) :: insert name value rest

def get? (name : List Rune) : Fields → Option Json
  | [] => none
  | (n, v) :: rest => if n = name then some v else get? name rest

/-- Writes all fields of `top` to `base`, in order. -/
def layer (base top : Fields) : Fields := top.foldl (fun fs (n, v) => fs.insert n v) base

def names (fs : Fields) : List (List Rune) := fs.map Prod.fst

theorem get?_insert_self (name : List Rune) (value : Json) (fs : Fields) :
    (insert name value fs).get? name = some value := by
  induction fs with
  | nil => simp [insert, get?]
  | cons f rest ih =>
    obtain ⟨n, v⟩ := f
    by_cases h : n = name <;> simp [insert, get?, h, ih]

theorem get?_insert_of_ne {name other : List Rune} (h : name ≠ other) (value : Json) (fs : Fields) :
    (insert name value fs).get? other = fs.get? other := by
  induction fs with
  | nil => simp [insert, get?, h]
  | cons f rest ih =>
    obtain ⟨n, v⟩ := f
    by_cases hn : n = name
    · subst hn; simp [insert, get?, h]
    · by_cases ho : n = other
      · simp [insert, get?, ho, h.symm]
      · simp [insert, get?, hn, ho, ih]

theorem insert_of_not_mem {name : List Rune} {fs : Fields} (h : name ∉ fs.names) (v : Json) :
    fs.insert name v = fs ++ [(name, v)] := by
  induction fs with
  | nil => rfl
  | cons f fs ih =>
    obtain ⟨n, w⟩ := f
    rw [names, List.map_cons, List.mem_cons, not_or] at h
    rw [insert, if_neg (Ne.symm h.1), ih h.2, List.cons_append]

/-- Inserting adds a name at the end, or none if it is there. -/
theorem names_insert (name : List Rune) (value : Json) (fs : Fields) :
    (insert name value fs).names = if name ∈ fs.names then fs.names else fs.names ++ [name] := by
  induction fs with
  | nil => simp [insert, names]
  | cons f rest ih =>
    obtain ⟨n, v⟩ := f
    by_cases hn : n = name
    · subst hn; simp [insert, names]
    · have hn' : name ≠ n := fun h => hn h.symm
      simp only [names] at ih
      by_cases hm : name ∈ rest.map Prod.fst <;> simp [insert, names, hn, hn', hm, ih]

end Fields

namespace Json

def ofText (t : Text) : Json := .string t.runes

inductive Kind where
  | null | bool | int | float | string | array | object
deriving DecidableEq, Repr

def kind : Json → Kind
  | null => .null
  | bool _ => .bool
  | int _ => .int
  | float _ => .float
  | string _ => .string
  | array _ => .array
  | object _ => .object

/-- Whether a value counts as a yes where a yes or no is asked for: null, false, the zeros and whatever
is empty count as a no. -/
def isTruthy : Json → Bool
  | null => false
  | bool b => b
  | int n => n != 0
  | float x => !x.isZero
  | string s => !s.isEmpty
  | array items => !items.isEmpty
  | object fields => !fields.isEmpty

end Json

end DisasmLens
