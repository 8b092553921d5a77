import DisasmLens.Markup.Token
import DisasmLens.Proofs.Patterns

/-!
# Searching for words

The words of a text are its maximal runs of word characters, from left to right (`Token.mem_words_iff`,
`Token.pairwise_words`). A search for a pattern with a word boundary at both ends goes through the text from left to
right, takes the first way that the matcher finds at a place, and goes on behind what it took. If the pattern matches
nothing but words, it finds the words that the pattern matches from their start to their end
(`Token.search_wordMatch`), whatever the order of the pattern's alternatives.
-/

namespace DisasmLens

namespace Token

open Text (isWord)

/-! ### Runs -/

/-- `letters` is a maximal run of word characters between `left` and `right`. -/
structure IsRun (left letters right : Text) : Prop where
  ne_nil : letters ≠ []
  all_word : ∀ c ∈ letters, isWord c = true
  left_end : ∀ c ∈ left.getLast?, isWord c = false
  right_start : ∀ c ∈ right.head?, isWord c = false

theorem not_forall_head? {letters : Text} (hne : letters ≠ []) (h : ∀ c ∈ letters, isWord c = true) (rest : Text) :
    ¬∀ c ∈ (letters ++ rest).head?, isWord c = false := by
  obtain ⟨c, cs, rfl⟩ := List.exists_cons_of_ne_nil hne
  intro hhead
  have hc := hhead c rfl
  rw [h c List.mem_cons_self] at hc
  cases hc

/-- A text is read run by run; what is left behind a run does not start with a word character. -/
theorem run_induction {P : Text → Prop} (nil : P [])
    (gap : ∀ c rest, isWord c = false → P rest → P (c :: rest))
    (run : ∀ letters rest, letters ≠ [] → (∀ c ∈ letters, isWord c = true) →
      (∀ c ∈ rest.head?, isWord c = false) → P rest → P (letters ++ rest)) (t : Text) : P t := by
  generalize hn : t.length = n
  induction n using Nat.strongRecOn generalizing t with
  | ind n ih =>
    cases t with
    | nil => exact nil
    | cons c rest =>
      cases hc : isWord c with
      | false => exact gap c rest hc (ih rest.length (by rw [← hn]; exact Nat.lt_succ_self _) rest rfl)
      | true =>
        have hsplit : (c :: rest).takeWhile isWord ++ (c :: rest).dropWhile isWord = c :: rest :=
          List.takeWhile_append_dropWhile
        have hne : (c :: rest).takeWhile isWord ≠ [] := by
          rw [List.takeWhile_cons_of_pos hc]
          exact List.cons_ne_nil _ _
        have hlt : ((c :: rest).dropWhile isWord).length < n := by
          have hlength := congrArg List.length hsplit
          have hpos := List.length_pos_iff.mpr hne
          rw [List.length_append] at hlength
          omega
        rw [← hsplit]
        exact run _ _ hne (List.all_eq_true.mp List.all_takeWhile) (fun _ => Text.eq_false_of_mem_head?_dropWhile)
          (ih _ hlt _ rfl)

/-! ### Words -/

theorem wordsFrom_letters (p : Nat) (letters : Text) {run : Text} (h : ∀ c ∈ run, isWord c = true) (rest : Text) :
    wordsFrom p letters (run ++ rest) = wordsFrom (p + run.length) (letters ++ run) rest := by
  induction run generalizing p letters with
  | nil => rw [List.append_nil, List.nil_append, List.length_nil, Nat.add_zero]
  | cons c run ih =>
    rw [List.forall_mem_cons] at h
    rw [List.cons_append, wordsFrom, if_pos h.1, ih _ _ h.2, List.append_assoc, List.singleton_append,
      List.length_cons, Nat.add_assoc, Nat.add_comm 1]

theorem wordsFrom_gap (p : Nat) {c : Char} (h : isWord c = false) (rest : Text) :
    wordsFrom p [] (c :: rest) = wordsFrom (p + 1) [] rest := by
  rw [wordsFrom, h, if_neg Bool.false_ne_true, if_pos rfl]

theorem wordsFrom_run (p : Nat) {run rest : Text} (hne : run ≠ []) (h : ∀ c ∈ run, isWord c = true)
    (hrest : ∀ c ∈ rest.head?, isWord c = false) :
    wordsFrom p [] (run ++ rest) = ⟨p, run⟩ :: wordsFrom (p + run.length) [] rest := by
  rw [wordsFrom_letters p [] h, List.nil_append]
  cases rest with
  | nil => rw [wordsFrom, if_neg hne, Nat.add_sub_cancel, wordsFrom, if_pos rfl]
  | cons c rest =>
    have hc : isWord c = false := hrest c rfl
    rw [wordsFrom_gap _ hc, wordsFrom, hc, if_neg Bool.false_ne_true, if_neg hne, Nat.add_sub_cancel]

/-- Words do not reach over the end of a text that is no word character. -/
theorem wordsFrom_append (p : Nat) {letters left : Text} (rest : Text) (hend : ∀ c ∈ left.getLast?, isWord c = false)
    (hletters : left = [] → letters = []) :
    wordsFrom p letters (left ++ rest) = wordsFrom p letters left ++ wordsFrom (p + left.length) [] rest := by
  induction left generalizing p letters with
  | nil =>
    obtain rfl := hletters rfl
    rfl
  | cons c left ih =>
    have hend' : ∀ d ∈ left.getLast?, isWord d = false := by
      intro d hd
      refine hend d ?_
      rw [Option.mem_def] at hd ⊢
      rw [List.getLast?_cons, hd]
      rfl
    have hlength : p + (c :: left).length = p + 1 + left.length := by
      rw [List.length_cons]
      omega
    rw [List.cons_append, wordsFrom, wordsFrom, hlength]
    cases hc : isWord c with
    | true =>
      have hne : left ≠ [] := by
        rintro rfl
        rw [hend c rfl] at hc
        cases hc
      exact ih (p + 1) hend' fun h => absurd h hne
    | false =>
      rw [if_neg Bool.false_ne_true, if_neg Bool.false_ne_true, ih (p + 1) hend' fun _ => rfl]
      split
      · rfl
      · rfl

theorem exists_run_of_mem_wordsFrom {w : Word} {left t : Text} (hw : w ∈ wordsFrom left.length [] t)
    (hcut : (∀ c ∈ left.getLast?, isWord c = false) ∨ ∀ c ∈ t.head?, isWord c = false) :
    ∃ before after, t = before ++ w.letters ++ after ∧ w.start = (left ++ before).length ∧
      IsRun (left ++ before) w.letters after := by
  induction t using run_induction generalizing left with
  | nil => cases hw
  | gap c rest hc ih =>
    have hend : ∀ d ∈ (left ++ [c]).getLast?, isWord d = false := by
      intro d hd
      rw [List.getLast?_concat, Option.mem_some_iff] at hd
      rw [← hd]
      exact hc
    have hw : w ∈ wordsFrom (left ++ [c]).length [] rest := by
      rw [wordsFrom_gap _ hc] at hw
      rw [List.length_append]
      exact hw
    obtain ⟨before, after, hrest, hstart, hrun⟩ := ih hw (.inl hend)
    rw [List.append_assoc, List.singleton_append] at hstart hrun
    exact ⟨c :: before, after, by rw [hrest]; rfl, hstart, hrun⟩
  | run letters rest hne hall hrest ih =>
    rw [wordsFrom_run _ hne hall hrest, List.mem_cons] at hw
    rcases hw with rfl | hw
    · have hleft : ∀ c ∈ left.getLast?, isWord c = false := by
        rcases hcut with hcut | hcut
        · exact hcut
        · exact absurd hcut (not_forall_head? hne hall rest)
      exact ⟨[], rest, rfl, by rw [List.append_nil], hne, hall, by rwa [List.append_nil], hrest⟩
    · rw [← List.length_append] at hw
      obtain ⟨before, after, hsplit, hstart, hrun⟩ := ih hw (.inr hrest)
      rw [List.append_assoc] at hstart hrun
      exact ⟨letters ++ before, after, by rw [hsplit]; simp only [List.append_assoc], hstart, hrun⟩

/-- The words of a text are its maximal runs of word characters. -/
theorem mem_words_iff {w : Word} {t : Text} :
    w ∈ words t ↔ ∃ left right, t = left ++ w.letters ++ right ∧ w.start = left.length ∧ IsRun left w.letters right := by
  constructor
  · intro hw
    exact @exists_run_of_mem_wordsFrom w [] t hw (.inl fun c hc => absurd hc (Option.not_mem_none c))
  · rintro ⟨left, right, rfl, hstart, hrun⟩
    rw [words, List.append_assoc, wordsFrom_append 0 _ hrun.left_end fun _ => rfl,
      wordsFrom_run _ hrun.ne_nil hrun.all_word hrun.right_start, Nat.zero_add, ← hstart]
    exact List.mem_append_right _ List.mem_cons_self

theorem pairwise_wordsFrom (p : Nat) (t : Text) :
    (wordsFrom p [] t).Pairwise (fun v w => v.stop < w.start) ∧ (∀ w ∈ wordsFrom p [] t, p ≤ w.start) ∧
      ((∀ c ∈ t.head?, isWord c = false) → ∀ w ∈ wordsFrom p [] t, p < w.start) := by
  induction t using run_induction generalizing p with
  | nil => exact ⟨.nil, List.forall_mem_nil _, fun _ => List.forall_mem_nil _⟩
  | gap c rest hc ih =>
    obtain ⟨hpair, hle, -⟩ := ih (p + 1)
    rw [wordsFrom_gap _ hc]
    exact ⟨hpair, fun w hw => Nat.le_of_succ_le (hle w hw), fun _ => hle⟩
  | run letters rest hne hall hrest ih =>
    obtain ⟨hpair, hle, hlt⟩ := ih (p + letters.length)
    rw [wordsFrom_run _ hne hall hrest]
    refine ⟨List.pairwise_cons.mpr ⟨hlt hrest, hpair⟩, List.forall_mem_cons.mpr ⟨Nat.le_refl p, ?_⟩, ?_⟩
    · intro w hw
      exact Nat.le_trans (Nat.le_add_right _ _) (hle w hw)
    · intro hhead
      exact absurd hhead (not_forall_head? hne hall rest)

theorem pairwise_words (t : Text) : (words t).Pairwise fun v w => v.stop < w.start := (pairwise_wordsFrom 0 t).1

end Token

/-! ### Searching -/

open Text (isWord)

/-- Looks for matches from left to right. A matcher is told the character before the place and the text behind it, and
answers how many characters it takes. The next `skip` characters belong to the last match, and a match without
characters does not count. -/
def search (matcher : Option Char → Text → Option Nat) : (position skip : Nat) → (before : Option Char) → Text →
    List (Nat × Nat)
  | _, _, _, [] => []
  | p, skip + 1, _, c :: rest => search matcher (p + 1) skip (some c) rest
  | p, 0, before, c :: rest =>
    match matcher before (c :: rest) with
    | some (n + 1) => (p, p + (n + 1)) :: search matcher (p + 1) n (some c) rest
    | _ => search matcher (p + 1) 0 (some c) rest

/-- Whether a word starts or stops between two characters, or at an end of the text. -/
def isWordBoundary (left right : Option Char) : Bool := left.any isWord != right.any isWord

namespace Pattern

def wordMatch (fold : Char → Char) (p : Pattern) (before : Option Char) (t : Text) : Option Nat :=
  if isWordBoundary before t.head? then
    (p.lengths fold t).find? fun n => isWordBoundary ((t.take n).getLast?.or before) (t.drop n).head?
  else none

/-- Every text of the pattern is made of word characters, and of at least one. -/
def MatchesWords (fold : Char → Char) (p : Pattern) : Prop :=
  ∀ t, p.Accepts fold t → t ≠ [] ∧ ∀ c ∈ t, isWord c = true

end Pattern

section Search

variable {matcher : Option Char → Text → Option Nat}

theorem getLast?_cons_or (c : Char) (cs : Text) (before : Option Char) :
    (c :: cs).getLast?.or before = cs.getLast?.or (some c) := by
  rw [List.getLast?_cons]
  cases cs.getLast? <;> rfl

theorem search_skip (p : Nat) (before : Option Char) (skipped rest : Text) :
    search matcher p skipped.length before (skipped ++ rest) =
      search matcher (p + skipped.length) 0 (skipped.getLast?.or before) rest := by
  induction skipped generalizing p before with
  | nil => rfl
  | cons c skipped ih =>
    rw [List.cons_append, List.length_cons, search, ih, getLast?_cons_or, Nat.add_assoc, Nat.add_comm 1]

theorem search_of_eq_none {p : Nat} {before : Option Char} {c : Char} {rest : Text}
    (h : matcher before (c :: rest) = none) :
    search matcher p 0 before (c :: rest) = search matcher (p + 1) 0 (some c) rest := by
  rw [search, h]

theorem search_of_eq_some {p : Nat} {before : Option Char} {found rest : Text} (hne : found ≠ [])
    (h : matcher before (found ++ rest) = some found.length) :
    search matcher p 0 before (found ++ rest) =
      (p, p + found.length) :: search matcher (p + found.length) 0 (found.getLast?.or before) rest := by
  obtain ⟨c, cs, rfl⟩ := List.exists_cons_of_ne_nil hne
  rw [List.cons_append, List.length_cons] at h
  rw [List.cons_append, search, h]
  dsimp only
  rw [search_skip, getLast?_cons_or, List.length_cons, Nat.add_assoc, Nat.add_comm 1]

theorem exists_of_mem_search {p skip : Nat} {before : Option Char} {t : Text} {place : Nat × Nat}
    (h : place ∈ search matcher p skip before t) :
    ∃ left right n, t = left ++ right ∧ skip ≤ left.length ∧ place = (p + left.length, p + left.length + (n + 1)) ∧
      matcher (left.getLast?.or before) right = some (n + 1) := by
  induction t generalizing p skip before with
  | nil => cases skip <;> cases h
  | cons c rest ih =>
    have hlater {k : Nat} (hk : skip ≤ k + 1) (h : place ∈ search matcher (p + 1) k (some c) rest) :
        ∃ left right n, c :: rest = left ++ right ∧ skip ≤ left.length ∧
          place = (p + left.length, p + left.length + (n + 1)) ∧
            matcher (left.getLast?.or before) right = some (n + 1) := by
      obtain ⟨left, right, n, rfl, hleft, rfl, hmatch⟩ := ih h
      rw [← getLast?_cons_or c left before] at hmatch
      rw [Nat.add_assoc p 1, Nat.add_comm 1]
      exact ⟨c :: left, right, n, rfl, Nat.le_trans hk (Nat.succ_le_succ hleft), rfl, hmatch⟩
    cases skip with
    | succ skip => exact hlater (Nat.le_refl _) h
    | zero =>
      rw [search] at h
      split at h
      · rename_i n hmatch
        rcases List.mem_cons.mp h with rfl | h
        · exact ⟨[], c :: rest, n, rfl, Nat.le_refl 0, rfl, hmatch⟩
        · exact hlater (Nat.zero_le _) h
      · exact hlater (Nat.zero_le _) h

/-- Matches do not overlap, and they are in order. -/
theorem pairwise_search (p skip : Nat) (before : Option Char) (t : Text) :
    (search matcher p skip before t).Pairwise fun place next => place.2 ≤ next.1 := by
  induction t generalizing p skip before with
  | nil => cases skip <;> exact .nil
  | cons c rest ih =>
    cases skip with
    | succ skip => exact ih ..
    | zero =>
      rw [search]
      split
      · rename_i n _
        refine List.pairwise_cons.mpr ⟨fun place hplace => ?_, ih ..⟩
        obtain ⟨left, right, m, -, hleft, rfl, -⟩ := exists_of_mem_search hplace
        dsimp only
        omega
      · exact ih ..

end Search

namespace Token

variable {fold : Char → Char} {p : Pattern}

/-- Where a word goes on there is no boundary, so nothing is found. -/
theorem search_inside_word (position : Nat) {before : Option Char} (hbefore : before.any isWord = true) {letters : Text}
    (h : ∀ c ∈ letters, isWord c = true) (rest : Text) :
    search (p.wordMatch fold) position 0 before (letters ++ rest) =
      search (p.wordMatch fold) (position + letters.length) 0 (letters.getLast?.or before) rest := by
  induction letters generalizing position before with
  | nil => rfl
  | cons c letters ih =>
    rw [List.forall_mem_cons] at h
    have hc : (some c).any isWord = true := h.1
    have hnone : p.wordMatch fold before (c :: (letters ++ rest)) = none := by
      have hboundary : isWordBoundary before (some c) = false := by
        rw [isWordBoundary, hbefore, hc]
        rfl
      rw [Pattern.wordMatch, List.head?_cons, hboundary]
      rfl
    rw [List.cons_append, search_of_eq_none hnone, ih _ hc h.2, getLast?_cons_or, List.length_cons, Nat.add_assoc,
      Nat.add_comm 1]

theorem wordMatch_gap (hp : p.MatchesWords fold) (before : Option Char) {c : Char} (hc : isWord c = false)
    (rest : Text) : p.wordMatch fold before (c :: rest) = none := by
  have hfind : ((p.lengths fold (c :: rest)).find? fun n =>
      isWordBoundary (((c :: rest).take n).getLast?.or before) ((c :: rest).drop n).head?) = none := by
    rw [List.find?_eq_none]
    intro n hn
    exfalso
    obtain ⟨-, haccepts⟩ := Pattern.mem_lengths_iff.mp hn
    obtain ⟨hne, hall⟩ := hp _ haccepts
    cases n with
    | zero => exact hne rfl
    | succ n =>
      have hword := hall c List.mem_cons_self
      rw [hc] at hword
      cases hword
  rw [Pattern.wordMatch, hfind, ite_self]

section Run

variable {run rest : Text} (hrun : ∀ c ∈ run, isWord c = true) (hrest : ∀ c ∈ rest.head?, isWord c = false)
include hrest

theorem le_of_take_isWord {n : Nat} (hle : n ≤ (run ++ rest).length)
    (h : ∀ c ∈ (run ++ rest).take n, isWord c = true) : n ≤ run.length := by
  refine Nat.le_of_not_lt fun hlt => ?_
  cases rest with
  | nil =>
    rw [List.append_nil] at hle
    omega
  | cons d rest =>
    have hd : d ∈ (run ++ d :: rest).take n := by
      obtain ⟨k, hk⟩ := Nat.exists_eq_succ_of_ne_zero (Nat.sub_ne_zero_of_lt hlt)
      rw [List.take_append, hk]
      exact List.mem_append_right _ List.mem_cons_self
    have hword := h d hd
    rw [hrest d rfl] at hword
    cases hword

include hrun

/-- Behind word characters at the start of a run, the only boundary is at the end of the run. -/
theorem isWordBoundary_take_iff {n : Nat} (before : Option Char) (hle : n ≤ (run ++ rest).length)
    (hne : (run ++ rest).take n ≠ []) (h : ∀ c ∈ (run ++ rest).take n, isWord c = true) :
    isWordBoundary (((run ++ rest).take n).getLast?.or before) ((run ++ rest).drop n).head? = true ↔
      n = run.length := by
  have hn := le_of_take_isWord hrest hle h
  have hlast : (((run ++ rest).take n).getLast?.or before).any isWord = true := by
    rw [List.getLast?_eq_some_getLast hne]
    exact h _ (List.getLast_mem hne)
  rw [isWordBoundary, hlast, List.drop_append_of_le_length hn]
  constructor
  · intro hboundary
    refine Nat.le_antisymm hn (Nat.le_of_not_lt fun hlt => ?_)
    have hnext : ((run.drop n ++ rest).head?).any isWord = true := by
      rw [List.drop_eq_getElem_cons hlt]
      exact hrun _ (List.getElem_mem hlt)
    rw [hnext] at hboundary
    cases hboundary
  · rintro rfl
    rw [List.drop_length, List.nil_append]
    cases hhead : rest.head? with
    | none => rfl
    | some c =>
      rw [Option.any_some, hrest c hhead]
      rfl

/-- At the start of a run a match must reach to the end of it, however many other ways the pattern has. -/
theorem wordMatch_run (hp : p.MatchesWords fold) {before : Option Char} (hbefore : before.any isWord = false)
    (hne : run ≠ []) :
    p.wordMatch fold before (run ++ rest) = if p.accepts fold run then some run.length else none := by
  have hhead : isWordBoundary before (run ++ rest).head? = true := by
    obtain ⟨c, cs, rfl⟩ := List.exists_cons_of_ne_nil hne
    have hc : (some c).any isWord = true := hrun c List.mem_cons_self
    rw [isWordBoundary, hbefore, List.cons_append, List.head?_cons, hc]
    rfl
  have hstop : ∀ n ∈ p.lengths fold (run ++ rest),
      (isWordBoundary (((run ++ rest).take n).getLast?.or before) ((run ++ rest).drop n).head? = true ↔
        n = run.length) := by
    intro n hn
    obtain ⟨hle, haccepts⟩ := Pattern.mem_lengths_iff.mp hn
    obtain ⟨htaken, hall⟩ := hp _ haccepts
    exact isWordBoundary_take_iff hrun hrest before hle htaken hall
  have hmem : run.length ∈ p.lengths fold (run ++ rest) ↔ p.accepts fold run = true := by
    rw [Pattern.mem_lengths_iff, List.take_left, Pattern.accepts_iff, List.length_append]
    exact and_iff_right (Nat.le_add_right _ _)
  rw [Pattern.wordMatch, if_pos hhead]
  split
  · rename_i haccepts
    cases hfind : (p.lengths fold (run ++ rest)).find? fun n =>
        isWordBoundary (((run ++ rest).take n).getLast?.or before) ((run ++ rest).drop n).head? with
    | none =>
      have hlength := hmem.mpr haccepts
      exact absurd ((hstop _ hlength).mpr rfl) (List.find?_eq_none.mp hfind _ hlength)
    | some n =>
      have hboundary := List.find?_some hfind
      exact congrArg some ((hstop n (List.mem_of_find?_eq_some hfind)).mp hboundary)
  · rename_i haccepts
    rw [List.find?_eq_none]
    intro n hn hboundary
    obtain rfl := (hstop n hn).mp hboundary
    exact haccepts (hmem.mp hn)

end Run

theorem search_wordMatch_from (hp : p.MatchesWords fold) (position : Nat) (before : Option Char) (t : Text)
    (hcut : before.any isWord = false ∨ ∀ c ∈ t.head?, isWord c = false) :
    search (p.wordMatch fold) position 0 before t =
      ((wordsFrom position [] t).filter fun w => p.accepts fold w.letters).map fun w => (w.start, w.stop) := by
  induction t using run_induction generalizing position before with
  | nil => rfl
  | gap c rest hc ih =>
    rw [search_of_eq_none (wordMatch_gap hp before hc rest), wordsFrom_gap _ hc]
    exact ih _ _ (.inl hc)
  | run letters rest hne hall hrest ih =>
    have hbefore : before.any isWord = false := by
      rcases hcut with h | h
      · exact h
      · exact absurd h (not_forall_head? hne hall rest)
    have hmatch := wordMatch_run hall hrest hp hbefore hne
    rw [wordsFrom_run _ hne hall hrest]
    by_cases haccepts : p.accepts fold letters = true
    · rw [if_pos haccepts] at hmatch
      rw [search_of_eq_some hne hmatch, ih _ _ (.inr hrest), List.filter_cons, if_pos haccepts]
      rfl
    · rw [if_neg haccepts] at hmatch
      obtain ⟨c, cs, rfl⟩ := List.exists_cons_of_ne_nil hne
      rw [List.forall_mem_cons] at hall
      have hc : (some c).any isWord = true := hall.1
      have hskip : search (p.wordMatch fold) position 0 before (c :: cs ++ rest) =
          search (p.wordMatch fold) (position + (c :: cs).length) 0 (cs.getLast?.or (some c)) rest := by
        rw [List.cons_append] at hmatch ⊢
        rw [search_of_eq_none hmatch, search_inside_word _ hc hall.2, List.length_cons, Nat.add_assoc, Nat.add_comm 1]
      rw [hskip, ih _ _ (.inr hrest), List.filter_cons, if_neg haccepts]

/-- A search between word boundaries finds the words that the pattern matches as a whole. -/
theorem search_wordMatch (hp : p.MatchesWords fold) (t : Text) :
    search (p.wordMatch fold) 0 0 none t =
      ((words t).filter fun w => p.accepts fold w.letters).map fun w => (w.start, w.stop) :=
  search_wordMatch_from hp 0 none t (.inl rfl)

end Token

end DisasmLens
