import DisasmLens.Markup.Line

/-!
# Styles line by line

A styled listing is its styled lines, one after another (`Markup.listing_feed`). Each of its spans is a span of one line,
moved to where the line stands, and covers what it covers there (`Markup.exists_line_of_mem_spans`). Both hold although the
spans are looked for in lines with control characters, and counted in lines without them: a span is cut at the end of
its line.
-/

namespace DisasmLens

/-! ### Spans -/

namespace Span

def part (p : Span) (t : Text) : Text := (t.drop p.start).take (p.stop - p.start)

def Fits (p : Span) (t : Text) : Prop := p.start < p.stop ∧ p.stop ≤ t.length

theorem shift_shift (m n : Nat) (p : Span) : (p.shift m).shift n = p.shift (n + m) := by
  simp only [shift, Nat.add_comm n m, Nat.add_assoc]

theorem Fits.shift {p : Span} {t : Text} (h : p.Fits t) (above below : Text) :
    (p.shift above.length).Fits (above ++ t ++ below) := by
  obtain ⟨hlt, hle⟩ := h
  simp only [Fits, Span.shift, List.length_append]
  omega

theorem Fits.part_shift {p : Span} {t : Text} (h : p.Fits t) (above below : Text) :
    (p.shift above.length).part (above ++ t ++ below) = p.part t := by
  obtain ⟨hlt, hle⟩ := h
  have hdrop : (above ++ t ++ below).drop (p.start + above.length) = t.drop p.start ++ below := by
    rw [Nat.add_comm, ← List.drop_drop, List.append_assoc, List.drop_left, List.drop_append_of_le_length (by omega)]
  have hlen : p.stop - p.start ≤ (t.drop p.start).length := by
    rw [List.length_drop]
    omega
  have hsize : p.stop + above.length - (p.start + above.length) = p.stop - p.start := by omega
  simp only [part, Span.shift]
  rw [hdrop, hsize, List.take_append_of_le_length hlen]

theorem mem_of_mem_part {p : Span} {t : Text} {c : Char} (h : c ∈ p.part t) : c ∈ t :=
  List.mem_of_mem_drop (List.mem_of_mem_take h)

end Span

/-! ### Styled texts -/

namespace Styled

def shown (t : Text) : Text := t.filter isShown

theorem shown_append (t u : Text) : shown (t ++ u) = shown t ++ shown u := List.filter_append t u

theorem shown_feed (t u : Text) : shown (t ++ '\n' :: u) = shown t ++ '\n' :: shown u := shown_append t ('\n' :: u)

theorem eq_of_plain_of_spans {a b : Styled} (hp : a.plain = b.plain) (hs : a.spans = b.spans) : a = b := by
  cases a
  cases b
  cases hp
  cases hs
  rfl

theorem append_assoc (a b c : Styled) : a ++ b ++ c = a ++ (b ++ c) := by
  have hplain : (a ++ b ++ c).plain = (a ++ (b ++ c)).plain := List.append_assoc ..
  have hspans : (a ++ b ++ c).spans = (a ++ (b ++ c)).spans := by
    simp only [spans_append, plain_append, List.map_append, List.map_map, List.append_assoc, List.length_append]
    congr 3
    funext p
    exact (p.shift_shift _ _).symm
  exact eq_of_plain_of_spans hplain hspans

def SpansFit (s : Styled) : Prop := ∀ p ∈ s.spans, p.Fits s.plain

theorem SpansFit.mark {s : Styled} (h : s.SpansFit) (style : Style) (start stop : Nat) :
    (s.mark style start stop).SpansFit := by
  unfold Styled.mark
  split
  · rename_i hpos
    intro p hp
    rcases List.mem_append.mp hp with hp | hp
    · exact h p hp
    · cases List.mem_singleton.mp hp
      simp only [Span.Fits]
      omega
  · exact h

theorem SpansFit.foldl_mark {s : Styled} (h : s.SpansFit) (ps : List Span) :
    (ps.foldl (fun s p => s.mark p.style p.start p.stop) s).SpansFit := by
  induction ps generalizing s with
  | nil => exact h
  | cons p ps ih => exact ih (h.mark p.style p.start p.stop)

theorem plain_foldl_mark (s : Styled) (ps : List Span) :
    (ps.foldl (fun s p => s.mark p.style p.start p.stop) s).plain = s.plain := by
  induction ps generalizing s with
  | nil => rfl
  | cons p ps ih => rw [List.foldl_cons, ih, plain_mark]

end Styled

namespace Markup

open Styled

/-! ### One line -/

theorem plain_line (l : Text) : (line l).plain = shown l := by
  unfold line
  dsimp only
  split
  · rfl
  · exact plain_mark ..
  · exact plain_mark ..
  · exact plain_foldl_mark ..

theorem spansFit_line (l : Text) : (line l).SpansFit := by
  have hbare : (ofText l).SpansFit := List.forall_mem_nil _
  unfold line
  dsimp only
  split
  · exact hbare
  · exact hbare.mark _ _ _
  · exact hbare.mark _ _ _
  · exact hbare.foldl_mark _

/-! ### All lines -/

theorem listing_eq_joined (t : Text) : listing t = joined t.lines := by
  unfold listing
  split
  · rename_i h
    subst h
    rfl
  · rfl

theorem joined_cons {ls : List Text} (h : ls ≠ []) (l : Text) :
    joined (l :: ls) = line l ++ ofText ['\n'] ++ joined ls := by
  cases ls with
  | nil => exact absurd rfl h
  | cons l' ls => rfl

theorem joined_append {above below : List Text} (ha : above ≠ []) (hb : below ≠ []) :
    joined (above ++ below) = joined above ++ ofText ['\n'] ++ joined below := by
  induction above with
  | nil => exact absurd rfl ha
  | cons l above ih =>
    by_cases h : above = []
    · subst h
      exact joined_cons hb l
    · rw [List.cons_append, joined_cons (List.append_ne_nil_of_left_ne_nil h below), ih h, joined_cons h]
      simp only [append_assoc]

/-- A line feed parts a styled listing as it parts the listing. -/
theorem listing_feed (a b : Text) : listing (a ++ '\n' :: b) = listing a ++ ofText ['\n'] ++ listing b := by
  simp only [listing_eq_joined]
  rw [Text.lines_append, joined_append a.lines_ne_nil b.lines_ne_nil]

/-- The text before a line, up to the line feed that ends the one above it. -/
def before (above : List Text) : Text := above.flatMap (· ++ ['\n'])

theorem before_cons (l : Text) (above : List Text) : before (l :: above) = l ++ '\n' :: before above :=
  List.append_assoc l ['\n'] (before above)

theorem plain_joined (ls : List Text) : (joined ls).plain = shown (Text.unlines ls) := by
  induction ls with
  | nil => rfl
  | cons l ls ih =>
    by_cases h : ls = []
    · subst h
      rw [Text.unlines_singleton]
      exact plain_line l
    · rw [joined_cons h, plain_append, plain_append, plain_line, ih, Text.unlines_cons h, shown_feed]
      exact List.append_assoc ..

theorem plain_listing (t : Text) : (listing t).plain = shown t := by
  rw [listing_eq_joined, plain_joined, Text.unlines_lines]

theorem exists_of_mem_spans_joined {ls : List Text} {p : Span} (hp : p ∈ (joined ls).spans) :
    ∃ above l below, ls = above ++ l :: below ∧
      ∃ q ∈ (line l).spans, p = q.shift (shown (before above)).length := by
  induction ls generalizing p with
  | nil => exact absurd hp List.not_mem_nil
  | cons l ls ih =>
    by_cases h : ls = []
    · subst h
      exact ⟨[], l, [], rfl, p, hp, rfl⟩
    rw [joined_cons h, spans_append, spans_append, List.append_assoc] at hp
    rcases List.mem_append.mp hp with hp | hp
    · exact ⟨[], l, ls, rfl, p, hp, rfl⟩
    -- The line feed between has no spans, so the span is one of a line below.
    have hp : p ∈ (joined ls).spans.map (Span.shift (line l ++ ofText ['\n']).plain.length) := hp
    obtain ⟨r, hr, rfl⟩ := List.mem_map.mp hp
    obtain ⟨above, l', below, rfl, q, hq, rfl⟩ := ih hr
    refine ⟨l :: above, l', below, rfl, q, hq, ?_⟩
    have hlength : (shown (before (l :: above))).length =
        (line l ++ ofText ['\n']).plain.length + (shown (before above)).length := by
      rw [before_cons, shown_feed, plain_append, plain_line, List.length_append, List.length_append, Nat.add_assoc,
        Nat.add_comm (ofText ['\n']).plain.length]
      rfl
    rw [Span.shift_shift, hlength]

theorem exists_unlines_eq (above : List Text) (l : Text) (below : List Text) :
    ∃ after, Text.unlines (above ++ l :: below) = before above ++ l ++ after := by
  induction above with
  | nil =>
    by_cases h : below = []
    · subst h
      exact ⟨[], by rw [List.nil_append, Text.unlines_singleton, List.append_nil]; rfl⟩
    · exact ⟨_, Text.unlines_cons h⟩
  | cons m above ih =>
    obtain ⟨after, hafter⟩ := ih
    have hne : above ++ l :: below ≠ [] := List.append_ne_nil_of_right_ne_nil above (List.cons_ne_nil l below)
    refine ⟨after, ?_⟩
    rw [List.cons_append, Text.unlines_cons hne, hafter, before_cons]
    simp only [List.append_assoc, List.cons_append]

/-- A span of a listing is one of a line, moved to where the line stands, and covers the same there. -/
theorem exists_line_of_mem_spans {t : Text} {p : Span} (hp : p ∈ (listing t).spans) :
    ∃ above l below, t.lines = above ++ l :: below ∧
      ∃ q ∈ (line l).spans, p = q.shift (shown (before above)).length ∧ p.Fits (listing t).plain ∧
        p.part (listing t).plain = q.part (shown l) := by
  rw [listing_eq_joined] at hp
  obtain ⟨above, l, below, hlines, q, hq, rfl⟩ := exists_of_mem_spans_joined hp
  have hfits : q.Fits (shown l) := by
    rw [← plain_line]
    exact spansFit_line l q hq
  obtain ⟨after, hafter⟩ := exists_unlines_eq above l below
  have hplain : (listing t).plain = shown (before above) ++ shown l ++ shown after := by
    rw [plain_listing, ← Text.unlines_lines t, hlines, hafter, shown_append, shown_append]
  rw [hplain]
  exact ⟨above, l, below, hlines, q, hq, rfl, hfits.shift _ _, hfits.part_shift _ _⟩

/-- The styled listing of two texts with a line feed between them is made of the styled listings of both, and every span
covers a nonempty part of one line: the one that it was made for. -/
theorem listing_append_feed (a b : Text) :
    listing (a ++ '\n' :: b) =
        ⟨shown a ++ '\n' :: shown b,
          (listing a).spans ++ (listing b).spans.map (Span.shift ((shown a).length + 1))⟩ ∧
      ∀ t, (listing t).plain = shown t ∧ ∀ p ∈ (listing t).spans,
        p.start < p.stop ∧ p.stop ≤ (listing t).plain.length ∧ '\n' ∉ p.part (listing t).plain ∧
          ∃ above l below, t.lines = above ++ l :: below ∧
            ∃ q ∈ (line l).spans, p = q.shift (shown (before above)).length ∧
              p.part (listing t).plain = q.part (shown l) := by
  constructor
  · have hplain : (listing (a ++ '\n' :: b)).plain = shown a ++ '\n' :: shown b := by
      rw [plain_listing, shown_feed]
    have hlength : (listing a ++ ofText ['\n']).plain.length = (shown a).length + 1 := by
      rw [plain_append, plain_listing, List.length_append]
      rfl
    have hspans : (listing (a ++ '\n' :: b)).spans =
        (listing a).spans ++ (listing b).spans.map (Span.shift ((shown a).length + 1)) := by
      rw [listing_feed, spans_append, spans_append, hlength]
      exact congrArg (· ++ _) (List.append_nil _)
    exact eq_of_plain_of_spans hplain hspans
  · intro t
    refine ⟨plain_listing t, fun p hp => ?_⟩
    obtain ⟨above, l, below, hlines, q, hq, hshift, hfits, hpart⟩ := exists_line_of_mem_spans hp
    have hmem : l ∈ t.lines := by
      rw [hlines]
      exact List.mem_append_right above List.mem_cons_self
    refine ⟨hfits.1, hfits.2, fun hfeed => ?_, above, l, below, hlines, q, hq, hshift, hpart⟩
    rw [hpart] at hfeed
    exact Text.not_mem_of_mem_lines hmem (List.mem_filter.mp (Span.mem_of_mem_part hfeed)).1

end Markup

end DisasmLens
