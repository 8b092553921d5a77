import DisasmLens.Text.Case
import DisasmLens.Text.Word

/-!
# Patterns

The language of a pattern (`Pattern.Accepts`), and a matcher that goes back to the last choice when it is stuck. The
matcher tries the alternatives in their order and takes as many characters as it can; all that it can take in the end are
the beginnings of the text that the language holds (`Pattern.mem_lengths_iff`).

Two patterns with the same language differ in the order of preference only. Where the end of the match is settled by
what surrounds it, the order does not matter, and the language says everything.
-/

namespace DisasmLens

inductive CharClass where
  | among (cs : Text)
  | except (cs : Text)
  | word
deriving DecidableEq, Repr

/-- A pattern; `many` takes one character of its class or more. -/
inductive Pattern where
  | text (s : Text)
  | one (k : CharClass)
  | many (k : CharClass)
  | next (p q : Pattern)
  | either (p q : Pattern)
  | opt (p : Pattern)
deriving DecidableEq, Repr

namespace Pattern

instance : Append Pattern := ⟨next⟩

/-- The first of several patterns that fits. Without patterns there is none. -/
def anyOf (ps : List Pattern) : Pattern := ps.foldr either (one (.among []))

def word (s : String) : Pattern := text s.toList

def oneOf (s : String) : Pattern := one (.among s.toList)

end Pattern

-- Characters are compared in the form that `fold` gives them.
variable (fold : Char → Char)

def CharClass.has : CharClass → Char → Bool
  | among cs, c => cs.contains (fold c)
  | except cs, c => !cs.contains (fold c)
  | word, c => Text.isWord c

namespace Pattern

/-- The texts that a pattern matches from their start to their end. -/
def Accepts : Pattern → Text → Prop
  | text s, t => t.map fold = s
  | one k, t => ∃ c, t = [c] ∧ k.has fold c = true
  | many k, t => t ≠ [] ∧ ∀ c ∈ t, k.has fold c = true
  | next p q, t => ∃ u v, t = u ++ v ∧ p.Accepts u ∧ q.Accepts v
  | either p q, t => p.Accepts t ∨ q.Accepts t
  | opt p, t => p.Accepts t ∨ t = []

/-- How many characters at the start of a text a pattern can take, in the order in which it tries them. -/
def lengths : Pattern → Text → List Nat
  | text s, t => if s.isPrefixOf (t.map fold) then [s.length] else []
  | one _, [] => []
  | one k, c :: _ => if k.has fold c then [1] else []
  | many k, t => (List.range (t.takeWhile (k.has fold)).length).reverse.map (· + 1)
  | next p q, t => (p.lengths t).flatMap fun m => (q.lengths (t.drop m)).map (m + ·)
  | either p q, t => p.lengths t ++ q.lengths t
  | opt p, t => p.lengths t ++ [0]

/-! ### Matcher and language -/

variable {fold}

theorem mem_lengths_text {s t : Text} {n : Nat} :
    n ∈ (text s).lengths fold t ↔ n ≤ t.length ∧ (text s).Accepts fold (t.take n) := by
  simp only [lengths, Accepts, List.map_take]
  constructor
  · intro h
    split at h
    · rename_i hprefix
      obtain rfl := List.mem_singleton.mp h
      have hprefix := List.isPrefixOf_iff_prefix.mp hprefix
      have hle := hprefix.length_le
      rw [List.length_map] at hle
      exact ⟨hle, (List.prefix_iff_eq_take.mp hprefix).symm⟩
    · cases h
  · rintro ⟨hle, htake⟩
    have hlength : s.length = n := by
      rw [← htake, List.length_take, List.length_map, Nat.min_eq_left hle]
    have hprefix : s <+: t.map fold := by
      rw [← htake]
      exact List.take_prefix n (t.map fold)
    rw [if_pos (List.isPrefixOf_iff_prefix.mpr hprefix), hlength]
    exact List.mem_singleton_self n

theorem mem_lengths_one {k : CharClass} {t : Text} {n : Nat} :
    n ∈ (one k).lengths fold t ↔ n ≤ t.length ∧ (one k).Accepts fold (t.take n) := by
  cases t with
  | nil => simp [lengths, Accepts]
  | cons c t =>
    constructor
    · intro h
      simp only [lengths] at h
      split at h
      · obtain rfl := List.mem_singleton.mp h
        exact ⟨Nat.succ_pos _, c, rfl, ‹_›⟩
      · cases h
    · rintro ⟨hle, d, htake, hd⟩
      have hn : n = 1 := by
        have hlength := congrArg List.length htake
        rw [List.length_take, Nat.min_eq_left hle] at hlength
        exact hlength
      subst hn
      obtain rfl : c = d := by simpa using htake
      simp [lengths, hd]

theorem mem_lengths_many {k : CharClass} {t : Text} {n : Nat} :
    n ∈ (many k).lengths fold t ↔ n ≤ t.length ∧ (many k).Accepts fold (t.take n) := by
  induction t generalizing n with
  | nil => simp [lengths, Accepts]
  | cons c t ih =>
    cases n with
    | zero => simp [lengths, Accepts]
    | succ n =>
      by_cases hc : k.has fold c = true
      · cases n with
        | zero => simp [lengths, Accepts, hc]
        | succ n =>
          have htail : n + 1 + 1 ∈ (many k).lengths fold (c :: t) ↔ n + 1 ∈ (many k).lengths fold t := by
            simp [lengths, hc]
          rw [htail, ih]
          cases t with
          | nil => simp
          | cons d t => simp [Accepts, hc]
      · simp [lengths, Accepts, hc]

theorem mem_lengths_next {p q : Pattern} {t : Text} {n : Nat}
    (hp : ∀ {t n}, n ∈ p.lengths fold t ↔ n ≤ t.length ∧ p.Accepts fold (t.take n))
    (hq : ∀ {t n}, n ∈ q.lengths fold t ↔ n ≤ t.length ∧ q.Accepts fold (t.take n)) :
    n ∈ (next p q).lengths fold t ↔ n ≤ t.length ∧ (next p q).Accepts fold (t.take n) := by
  simp only [lengths, List.mem_flatMap, List.mem_map]
  constructor
  · rintro ⟨m, hm, i, hi, rfl⟩
    obtain ⟨hm, hpm⟩ := hp.mp hm
    obtain ⟨hi, hqi⟩ := hq.mp hi
    rw [List.length_drop] at hi
    exact ⟨by omega, t.take m, (t.drop m).take i, List.take_add, hpm, hqi⟩
  · rintro ⟨hle, u, v, htake, hpu, hqv⟩
    have ht : t = u ++ (v ++ t.drop n) := by
      rw [← List.append_assoc, ← htake, List.take_append_drop]
    have hn : u.length + v.length = n := by
      rw [← List.length_append, ← htake, List.length_take, Nat.min_eq_left hle]
    have hdrop : t.drop u.length = v ++ t.drop n := (congrArg (List.drop u.length) ht).trans List.drop_left
    refine ⟨u.length, hp.mpr ⟨by omega, ?_⟩, v.length, hq.mpr ⟨?_, ?_⟩, hn⟩
    · rw [ht, List.take_left]
      exact hpu
    · rw [hdrop, List.length_append]
      omega
    · rw [hdrop, List.take_left]
      exact hqv

/-- What a matcher can take of a text are the beginnings in the language of its pattern. -/
theorem mem_lengths_iff {p : Pattern} {t : Text} {n : Nat} :
    n ∈ p.lengths fold t ↔ n ≤ t.length ∧ p.Accepts fold (t.take n) := by
  induction p generalizing t n with
  | text s => exact mem_lengths_text
  | one k => exact mem_lengths_one
  | many k => exact mem_lengths_many
  | next p q ihp ihq => exact mem_lengths_next ihp ihq
  | either p q ihp ihq =>
    rw [lengths, List.mem_append, ihp, ihq, ← and_or_left]
    rfl
  | opt p ih =>
    rw [lengths, List.mem_append, List.mem_singleton, ih, Accepts, and_or_left, List.take_eq_nil_iff]
    constructor
    · rintro (h | rfl)
      · exact .inl h
      · exact .inr ⟨Nat.zero_le _, .inl rfl⟩
    · rintro (h | ⟨hle, rfl | rfl⟩)
      · exact .inl h
      · exact .inr rfl
      · exact .inr (Nat.le_zero.mp hle)

def accepts (fold : Char → Char) (p : Pattern) (t : Text) : Bool := (p.lengths fold t).contains t.length

theorem accepts_iff {p : Pattern} {t : Text} : p.accepts fold t = true ↔ p.Accepts fold t := by
  rw [accepts, List.contains_iff_mem, mem_lengths_iff, List.take_length]
  exact and_iff_right (Nat.le_refl _)

/-! ### Alternatives -/

theorem accepts_anyOf {ps : List Pattern} {t : Text} :
    (anyOf ps).Accepts fold t ↔ ∃ p ∈ ps, p.Accepts fold t := by
  induction ps with
  | nil => simp [anyOf, Accepts, CharClass.has]
  | cons p ps ih =>
    simp only [List.mem_cons, exists_eq_or_imp, ← ih]
    rfl

/-- The texts of a pattern, if they are finitely many because no class with infinitely many characters occurs in it. -/
def texts? : Pattern → Option (List Text)
  | text s => some [s]
  | one (.among cs) => some (cs.map ([·]))
  | next p q => do
    let us ← p.texts?
    let vs ← q.texts?
    some (us.flatMap fun u => vs.map (u ++ ·))
  | either p q => do
    let us ← p.texts?
    let vs ← q.texts?
    some (us ++ vs)
  | opt p => do
    let us ← p.texts?
    some (us ++ [[]])
  | _ => none

theorem accepts_iff_of_texts? {p : Pattern} {ts : List Text} (h : p.texts? = some ts) {t : Text} :
    p.Accepts fold t ↔ t.map fold ∈ ts := by
  induction p generalizing ts t with
  | text s =>
    cases h
    rw [List.mem_singleton]
    rfl
  | one k =>
    cases k with
    | among cs =>
      cases h
      constructor
      · rintro ⟨c, rfl, hc⟩
        exact List.mem_map_of_mem (List.contains_iff_mem.mp hc)
      · intro ht
        obtain ⟨d, hd, hdt⟩ := List.mem_map.mp ht
        obtain ⟨c, rfl, rfl⟩ := List.map_eq_singleton_iff.mp hdt.symm
        exact ⟨c, rfl, List.contains_iff_mem.mpr hd⟩
    | except cs => cases h
    | word => cases h
  | many k => cases h
  | next p q ihp ihq =>
    obtain ⟨us, hus, vs, hvs, hts⟩ : ∃ us, p.texts? = some us ∧ ∃ vs, q.texts? = some vs ∧
        some (us.flatMap fun u => vs.map (u ++ ·)) = some ts := by
      simpa only [texts?, Option.bind_eq_bind, Option.bind_eq_some_iff] using h
    cases hts
    simp only [Accepts, List.mem_flatMap, List.mem_map]
    constructor
    · rintro ⟨u, v, rfl, hu, hv⟩
      exact ⟨_, (ihp hus).mp hu, _, (ihq hvs).mp hv, List.map_append.symm⟩
    · rintro ⟨u', hu', v', hv', ht⟩
      obtain ⟨u, v, rfl, rfl, rfl⟩ := List.map_eq_append_iff.mp ht.symm
      exact ⟨u, v, rfl, (ihp hus).mpr hu', (ihq hvs).mpr hv'⟩
  | either p q ihp ihq =>
    obtain ⟨us, hus, vs, hvs, hts⟩ : ∃ us, p.texts? = some us ∧ ∃ vs, q.texts? = some vs ∧
        some (us ++ vs) = some ts := by
      simpa only [texts?, Option.bind_eq_bind, Option.bind_eq_some_iff] using h
    cases hts
    rw [Accepts, ihp hus, ihq hvs, List.mem_append]
  | opt p ih =>
    obtain ⟨us, hus, hts⟩ : ∃ us, p.texts? = some us ∧ some (us ++ [[]]) = some ts := by
      simpa only [texts?, Option.bind_eq_bind, Option.bind_eq_some_iff] using h
    cases hts
    rw [Accepts, ih hus, List.mem_append, List.mem_singleton, List.map_eq_nil_iff]

end Pattern

end DisasmLens
