import DisasmLens.Fault
import DisasmLens.Path

/-!
# Files

The files that the program can see, as a list of entries by location. Putting an entry somewhere makes the
directories on the way there, unless something else is in their place (`Files.insert`). They have entries of
their own: they stay when what is in them is taken away, and can be taken away from above what is in them.
-/

namespace DisasmLens

/-- What can be at a location. What is sealed may not be opened. -/
inductive Entry where
  | file (bytes : List UInt8)
  | directory
  | sealed
deriving DecidableEq, Repr

abbrev Files := List (Location × Entry)

namespace Files

def get? (l : Location) : Files → Option Entry
  | [] => none
  | (k, e) :: rest => if k = l then some e else get? l rest

def put (l : Location) (e : Entry) : Files → Files
  | [] => [(l, e)]
  | (k, d) :: rest => if k = l then (l, e) :: rest else (k, d) :: put l e rest

def erase (l : Location) (fs : Files) : Files := fs.filter fun f => f.1 ≠ l

/-- Makes a directory at a location, unless something is there. -/
def ensure (fs : Files) (l : Location) : Files := if (fs.get? l).isSome then fs else fs.put l .directory

/-- Gives a location an entry, and makes the directories on the way there. -/
def insert (l : Location) (e : Entry) (fs : Files) : Files := (l.way.foldl ensure fs).put l e

def insertDirectory (l : Location) (fs : Files) : Files := (l.way ++ [l]).foldl ensure fs

theorem get?_put_self (l : Location) (e : Entry) (fs : Files) : (fs.put l e).get? l = some e := by
  induction fs with
  | nil => simp [put, get?]
  | cons f rest ih =>
    obtain ⟨k, d⟩ := f
    by_cases h : k = l <;> simp [put, get?, h, ih]

theorem get?_put_of_ne {l k : Location} (h : l ≠ k) (e : Entry) (fs : Files) :
    (fs.put l e).get? k = fs.get? k := by
  induction fs with
  | nil => simp [put, get?, h]
  | cons f rest ih =>
    obtain ⟨n, d⟩ := f
    by_cases hn : n = l
    · subst hn; simp [put, get?, h]
    · by_cases ho : n = k
      · simp [put, get?, ho, h.symm]
      · simp [put, get?, hn, ho, ih]

theorem get?_ensure {fs : Files} {k : Location} {d : Entry} (h : fs.get? k = some d) (l : Location) :
    (fs.ensure l).get? k = some d := by
  by_cases hl : (fs.get? l).isSome
  · simp [ensure, hl, h]
  · have hne : l ≠ k := fun e => hl (by simp [e, h])
    simp [ensure, hl, get?_put_of_ne hne, h]

theorem get?_foldl_ensure {fs : Files} {k : Location} {d : Entry} (h : fs.get? k = some d)
    (ls : List Location) : (ls.foldl ensure fs).get? k = some d := by
  induction ls generalizing fs with
  | nil => exact h
  | cons l ls ih => exact ih (get?_ensure h l)

theorem get?_insert_self (l : Location) (e : Entry) (fs : Files) : (fs.insert l e).get? l = some e :=
  get?_put_self l e _

theorem get?_insert_of_ne {fs : Files} {l k : Location} {d : Entry} (hne : l ≠ k)
    (h : fs.get? k = some d) (e : Entry) : (fs.insert l e).get? k = some d := by
  rw [insert, get?_put_of_ne hne]
  exact get?_foldl_ensure h l.way

end Files

end DisasmLens
