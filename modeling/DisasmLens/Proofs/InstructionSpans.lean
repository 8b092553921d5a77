import DisasmLens.Proofs.StyledLines
import DisasmLens.Proofs.TokenPatterns

/-!
# Spans of an instruction

What is styled in an instruction, and in which order: the address and the bytes in front of the operands, then class by
class the words of the operands that the pattern of the class matches as a whole, then the symbol references
(`Markup.spans_line_of_instruction`). The operands do not start inside a word, so a word of the operands is a word of the
line.
-/

namespace DisasmLens

open Text (isWord isBlank hexValue?)

/-- The span covers a word of the text, that is, a maximal run of word characters. -/
def Span.CoversWord (p : Span) (t : Text) : Prop :=
  ∃ left letters right, t = left ++ letters ++ right ∧ p.start = left.length ∧ p.stop = (left ++ letters).length ∧
    Token.IsRun left letters right

namespace Markup

/-! ### Address and bytes -/

/-- Digits in base sixteen between the blanks at the start of a line and a colon. -/
structure HasAddress (l blanks digits rest : Text) : Prop where
  text : l = blanks ++ digits ++ ':' :: rest
  blanks_blank : ∀ c ∈ blanks, isBlank c = true
  digits_hex : ∀ c ∈ digits, (hexValue? c).isSome = true
  digits_ne : digits ≠ []

def IsByte (b : Char × Char) : Prop := isLowerHex b.1 = true ∧ isLowerHex b.2 = true

def bytesText (bytes : List (Char × Char)) : Text := bytes.flatMap fun b => [b.1, b.2, ' ']

def StartsWithByte (t : Text) : Prop := ∃ b rest, IsByte b ∧ t = b.1 :: b.2 :: ' ' :: rest

/-- Behind an address: a tab, all the bytes that follow it, all blanks that follow them, and the operands. -/
structure HasBytes (t : Text) (bytes : List (Char × Char)) (gap operands : Text) : Prop where
  text : t = '\t' :: bytesText bytes ++ gap ++ operands
  bytes_ne : bytes ≠ []
  all_bytes : ∀ b ∈ bytes, IsByte b
  last_byte : ¬StartsWithByte (gap ++ operands)
  gap_blank : ∀ c ∈ gap, isBlank c = true
  operands_start : ∀ c ∈ operands.head?, isBlank c = false

/-- The spans in front of the operands of a line, and where the operands start. -/
inductive Leads (l : Text) : List Span → Nat → Prop where
  | bare (none : ∀ blanks digits rest, ¬HasAddress l blanks digits rest) : Leads l [] 0
  | address {blanks digits rest : Text} (address : HasAddress l blanks digits rest)
      (none : ∀ bytes gap operands, ¬HasBytes rest bytes gap operands) :
      Leads l [⟨blanks.length, (blanks ++ digits).length, .address⟩] ((blanks ++ digits).length + 1)
  | bytes {blanks digits rest gap operands : Text} {bytes : List (Char × Char)}
      (address : HasAddress l blanks digits rest) (written : HasBytes rest bytes gap operands) :
      Leads l
        [⟨blanks.length, (blanks ++ digits).length, .address⟩,
         ⟨(blanks ++ digits).length + 2, (blanks ++ digits).length + 2 + (bytesText bytes).length, .bytes⟩]
        ((blanks ++ digits).length + 2 + (bytesText bytes).length + gap.length)

theorem isBlank_of_isSome_hexValue? {c : Char} (h : (hexValue? c).isSome = true) : isBlank c = false := by
  have hdigits : (Token.hexDigits.all fun d => !isBlank d) = true := by decide +kernel
  rw [← Token.contains_hexDigits, List.contains_iff_mem] at h
  exact (Bool.not_eq_true' _).mp (List.all_eq_true.mp hdigits c h)

theorem isWord_of_isBlank {c : Char} (h : isBlank c = true) : isWord c = false := by
  by_cases hascii : c.toNat < 0x80
  · have hall : ∀ n < 0x80, isBlank (Char.ofNat n) = true → isWord (Char.ofNat n) = false := by decide +kernel
    rw [← Char.ofNat_toNat c] at h ⊢
    exact hall _ hascii h
  · have hapart : ∀ b ∈ Text.blankRanges, ∀ w ∈ Text.wordRanges, w.2 < b.1 ∨ b.2 < w.1 := by decide +kernel
    simp only [isBlank, isWord, hascii, if_false] at h ⊢
    exact Text.inRanges_eq_false_of_apart hapart h

theorem exists_of_address? {l : Text} {start stop : Nat} (h : address? l = some (start, stop)) :
    ∃ blanks digits rest, HasAddress l blanks digits rest ∧ start = blanks.length ∧
      stop = (blanks ++ digits).length := by
  simp only [address?, Text.drop_length_takeWhile] at h
  split at h
  · rename_i hsplit
    obtain ⟨hpos, hcolon⟩ := hsplit
    obtain ⟨rest, hrest⟩ := List.head?_eq_some_iff.mp hcolon
    cases h
    refine ⟨_, _, rest, ⟨?_, List.all_eq_true.mp List.all_takeWhile, List.all_eq_true.mp List.all_takeWhile,
      List.length_pos_iff.mp hpos⟩, rfl, List.length_append.symm⟩
    rw [← hrest, List.append_assoc, List.takeWhile_append_dropWhile, List.takeWhile_append_dropWhile]
  · cases h

theorem HasAddress.address? {l blanks digits rest : Text} (h : HasAddress l blanks digits rest) :
    address? l = some (blanks.length, (blanks ++ digits).length) := by
  have hdigits : ∀ c ∈ (digits ++ ':' :: rest).head?, isBlank c = false := by
    obtain ⟨d, ds, rfl⟩ := List.exists_cons_of_ne_nil h.digits_ne
    intro c hc
    cases hc
    exact isBlank_of_isSome_hexValue? (h.digits_hex _ List.mem_cons_self)
  have hcolon : ∀ c ∈ (':' :: rest).head?, (hexValue? c).isSome = false := by
    intro c hc
    cases hc
    decide
  have hblanks := Text.takeWhile_append_of_head? h.blanks_blank hdigits
  have hsize := Text.takeWhile_append_of_head? h.digits_hex hcolon
  have hpos := List.length_pos_iff.mpr h.digits_ne
  rw [h.text, List.append_assoc]
  simp only [Markup.address?, hblanks, List.drop_left, hsize, hpos, List.head?_cons, and_self, if_true,
    List.length_append]

theorem bytesText_cons (b : Char × Char) (bytes : List (Char × Char)) :
    bytesText (b :: bytes) = b.1 :: b.2 :: ' ' :: bytesText bytes := rfl

theorem bytesLength_of_not {t : Text} (h : ¬StartsWithByte t) : bytesLength t = 0 := by
  unfold bytesLength
  split
  · rename_i a b rest
    rw [if_neg]
    intro hhex
    exact h ⟨(a, b), rest, Bool.and_eq_true_iff.mp hhex, rfl⟩
  · rfl

theorem bytesLength_bytesText {bytes : List (Char × Char)} (h : ∀ b ∈ bytes, IsByte b) {rest : Text}
    (hrest : ¬StartsWithByte rest) : bytesLength (bytesText bytes ++ rest) = (bytesText bytes).length := by
  induction bytes with
  | nil => exact bytesLength_of_not hrest
  | cons b bytes ih =>
    rw [List.forall_mem_cons] at h
    rw [bytesText_cons, List.cons_append, List.cons_append, List.cons_append, bytesLength,
      if_pos (Bool.and_eq_true_iff.mpr h.1), ih h.2]
    rfl

theorem exists_bytesText (t : Text) :
    ∃ bytes rest, t = bytesText bytes ++ rest ∧ (∀ b ∈ bytes, IsByte b) ∧ ¬StartsWithByte rest := by
  induction t using bytesLength.induct with
  | case1 a b rest hhex ih =>
    obtain ⟨bytes, after, rfl, hbytes, hafter⟩ := ih
    exact ⟨(a, b) :: bytes, after, rfl, List.forall_mem_cons.mpr ⟨Bool.and_eq_true_iff.mp hhex, hbytes⟩, hafter⟩
  | case2 a b rest hhex =>
    refine ⟨[], _, rfl, List.forall_mem_nil _, ?_⟩
    rintro ⟨b', rest', hbyte, htext⟩
    cases htext
    exact hhex (Bool.and_eq_true_iff.mpr hbyte)
  | case3 t hnot =>
    refine ⟨[], t, rfl, List.forall_mem_nil _, ?_⟩
    rintro ⟨b, rest, -, rfl⟩
    exact hnot _ _ _ rfl

theorem exists_of_bytes? {t : Text} {size blanks : Nat} (h : bytes? t = some (size, blanks)) :
    ∃ bytes gap operands, HasBytes t bytes gap operands ∧ size = (bytesText bytes).length ∧ blanks = gap.length := by
  unfold bytes? at h
  split at h
  · rename_i rest
    obtain ⟨bytes, after, rfl, hbytes, hafter⟩ := exists_bytesText rest
    simp only [bytesLength_bytesText hbytes hafter, List.drop_left] at h
    split at h
    · rename_i hpos
      cases h
      have hsplit : after.takeWhile isBlank ++ after.dropWhile isBlank = after := List.takeWhile_append_dropWhile
      refine ⟨bytes, _, after.dropWhile isBlank, ⟨?_, ?_, hbytes, ?_, List.all_eq_true.mp List.all_takeWhile,
        fun _ => Text.eq_false_of_mem_head?_dropWhile⟩, rfl, rfl⟩
      · rw [List.append_assoc, hsplit]
        rfl
      · rintro rfl
        exact Nat.lt_irrefl 0 hpos
      · rwa [hsplit]
    · cases h
  · cases h

theorem length_bytesText_pos {bytes : List (Char × Char)} (h : bytes ≠ []) : 0 < (bytesText bytes).length := by
  obtain ⟨b, bs, rfl⟩ := List.exists_cons_of_ne_nil h
  exact Nat.succ_pos _

theorem HasBytes.bytes? {t gap operands : Text} {bytes : List (Char × Char)} (h : HasBytes t bytes gap operands) :
    bytes? t = some ((bytesText bytes).length, gap.length) := by
  have hpos := length_bytesText_pos h.bytes_ne
  rw [h.text, List.append_assoc, List.cons_append]
  simp only [Markup.bytes?, bytesLength_bytesText h.all_bytes h.last_byte, List.drop_left, hpos, if_true,
    Text.takeWhile_append_of_head? h.gap_blank h.operands_start]

theorem leads_leadingSpans (l : Text) : Leads l (leadingSpans l).1 (leadingSpans l).2 := by
  cases haddress : address? l with
  | none =>
    have hbare : ∀ blanks digits rest, ¬HasAddress l blanks digits rest := by
      intro blanks digits rest h
      rw [h.address?] at haddress
      cases haddress
    simp only [leadingSpans, haddress]
    exact .bare hbare
  | some place =>
    obtain ⟨start, stop⟩ := place
    obtain ⟨blanks, digits, rest, h, rfl, rfl⟩ := exists_of_address? haddress
    have hrest : l.drop ((blanks ++ digits).length + 1) = rest := by
      rw [h.text, ← List.drop_drop, List.drop_left]
      rfl
    cases hbytes : bytes? rest with
    | none =>
      have hbare : ∀ bytes gap operands, ¬HasBytes rest bytes gap operands := by
        intro bytes gap operands h
        rw [h.bytes?] at hbytes
        cases hbytes
      simp only [leadingSpans, haddress, hrest, hbytes]
      exact .address h hbare
    | some sizes =>
      obtain ⟨size, gapSize⟩ := sizes
      obtain ⟨bytes, gap, operands, hb, rfl, rfl⟩ := exists_of_bytes? hbytes
      simp only [leadingSpans, haddress, hrest, hbytes]
      exact .bytes h hb

theorem isBlank_of_mem_getLast? {bytes : List (Char × Char)} (hne : bytes ≠ []) {gap : Text}
    (hgap : ∀ c ∈ gap, isBlank c = true) : ∀ c ∈ (bytesText bytes ++ gap).getLast?, isBlank c = true := by
  intro c hc
  rw [List.getLast?_append] at hc
  cases hlast : gap.getLast? with
  | some d =>
    rw [hlast] at hc
    cases hc
    exact hgap _ (List.mem_of_getLast? hlast)
  | none =>
    have hspace : (bytesText bytes).getLast? = some ' ' := by
      rw [← List.dropLast_concat_getLast hne]
      simp [bytesText]
    rw [hlast, hspace] at hc
    cases hc
    decide

/-- The operands start behind the spans in front of them, and not inside a word. -/
theorem Leads.exists_append {l : Text} {leading : List Span} {start : Nat} (h : Leads l leading start) :
    ∃ front operands, l = front ++ operands ∧ start = front.length ∧ (∀ c ∈ front.getLast?, isWord c = false) ∧
      ∀ p ∈ leading, p.start < p.stop ∧ p.stop ≤ start := by
  cases h with
  | bare none => exact ⟨[], l, rfl, rfl, fun c hc => absurd hc (Option.not_mem_none c), List.forall_mem_nil _⟩
  | @address blanks digits rest address none =>
    have hdigits := List.length_pos_iff.mpr address.digits_ne
    refine ⟨blanks ++ digits ++ [':'], rest, ?_, ?_, ?_, ?_⟩
    · rw [address.text, List.append_assoc _ [':'], List.singleton_append]
    · simp only [List.length_append, List.length_singleton]
    · intro c hc
      rw [List.getLast?_concat] at hc
      cases hc
      decide +kernel
    · simp only [List.forall_mem_singleton, List.length_append]
      omega
  | @bytes blanks digits rest gap operands bytes address written =>
    have hdigits := List.length_pos_iff.mpr address.digits_ne
    have hbytes := length_bytesText_pos written.bytes_ne
    have hne : bytesText bytes ++ gap ≠ [] := List.append_ne_nil_of_left_ne_nil (List.length_pos_iff.mp hbytes) gap
    refine ⟨blanks ++ digits ++ [':', '\t'] ++ (bytesText bytes ++ gap), operands, ?_, ?_, ?_, ?_⟩
    · rw [address.text, written.text]
      simp only [List.append_assoc, List.cons_append, List.nil_append]
    · simp only [List.length_append, List.length_cons, List.length_nil]
      omega
    · intro c hc
      rw [List.getLast?_append, List.getLast?_eq_some_getLast hne, Option.some_or, ← List.getLast?_eq_some_getLast] at hc
      exact isWord_of_isBlank (isBlank_of_mem_getLast? written.bytes_ne written.gap_blank c hc)
    · simp only [List.forall_mem_cons, List.length_append]
      refine ⟨⟨by omega, by omega⟩, ⟨by omega, by omega⟩, List.forall_mem_nil _⟩

end Markup

/-! ### Words of the operands and of the line -/

namespace Span

theorem part_append {p : Span} {left letters right : Text} (hstart : p.start = left.length)
    (hstop : p.stop = (left ++ letters).length) : p.part (left ++ letters ++ right) = letters := by
  rw [part, hstart, hstop, List.append_assoc, List.drop_left, List.length_append, Nat.add_sub_cancel_left,
    List.take_left]

theorem CoversWord.fits {p : Span} {t : Text} (h : p.CoversWord t) : p.Fits t := by
  obtain ⟨left, letters, right, rfl, hstart, hstop, hrun⟩ := h
  have hpos := List.length_pos_iff.mpr hrun.ne_nil
  simp only [List.length_append] at hstop
  simp only [Fits, List.length_append]
  omega

/-- Behind an end that is no word character, the words are those of the text there. -/
theorem coversWord_shift_iff {front t : Text} (hfront : ∀ c ∈ front.getLast?, isWord c = false) {p : Span} :
    (p.shift front.length).CoversWord (front ++ t) ↔ p.CoversWord t := by
  have hlast (left : Text) :
      (∀ c ∈ (front ++ left).getLast?, isWord c = false) ↔ ∀ c ∈ left.getLast?, isWord c = false := by
    cases hleft : left.getLast? with
    | none =>
      rw [List.getLast?_eq_none_iff.mp hleft, List.append_nil]
      exact iff_of_true hfront fun c hc => absurd hc (Option.not_mem_none c)
    | some d => rw [List.getLast?_append, hleft, Option.some_or]
  constructor
  · rintro ⟨left, letters, right, htext, hstart, hstop, hrun⟩
    simp only [shift, List.length_append] at hstart hstop
    have hle : front.length ≤ left.length := by omega
    have hprefix : left <+: front ++ t := by
      rw [htext, List.append_assoc]
      exact List.prefix_append _ _
    obtain ⟨left, rfl⟩ := List.prefix_of_prefix_length_le (List.prefix_append front t) hprefix hle
    rw [List.append_assoc, List.append_assoc, List.append_cancel_left_eq, ← List.append_assoc] at htext
    rw [List.length_append] at hstart hstop
    refine ⟨left, letters, right, htext, by omega, ?_, hrun.ne_nil, hrun.all_word, (hlast left).mp hrun.left_end,
      hrun.right_start⟩
    rw [List.length_append]
    omega
  · rintro ⟨left, letters, right, rfl, hstart, hstop, hrun⟩
    refine ⟨front ++ left, letters, right, by simp only [List.append_assoc], ?_, ?_, hrun.ne_nil, hrun.all_word,
      (hlast left).mpr hrun.left_end, hrun.right_start⟩
    · rw [List.length_append, Nat.add_comm, ← hstart]
      rfl
    · rw [List.append_assoc, List.length_append, Nat.add_comm, ← hstop]
      rfl

theorem exists_eq_shift {p : Span} {distance : Nat} (h : distance ≤ p.start) (hle : p.start ≤ p.stop) :
    ∃ q : Span, p = q.shift distance := by
  refine ⟨⟨p.start - distance, p.stop - distance, p.style⟩, ?_⟩
  simp only [shift, Nat.sub_add_cancel h, Nat.sub_add_cancel (Nat.le_trans h hle)]

end Span

namespace Token

def WordClass.spansFrom (k : WordClass) (start : Nat) (l : Text) : List Span :=
  (k.spans (l.drop start)).map (Span.shift start)

def symbolSpansFrom (start : Nat) (l : Text) : List Span := (symbolSpans (l.drop start)).map (Span.shift start)

namespace WordClass

variable {k : WordClass} (hk : k ∈ wordPatterns)
include hk

/-- The matches of a class are the words that its pattern matches as a whole. -/
theorem mem_spans_iff {t : Text} {p : Span} :
    p ∈ k.spans t ↔ p.style = k.style ∧ p.CoversWord t ∧ k.pattern.Accepts k.fold (p.part t) := by
  rw [spans, search_wordMatch (matchesWords_of_mem hk), List.map_map, List.mem_map]
  constructor
  · rintro ⟨w, hw, rfl⟩
    obtain ⟨hw, haccepts⟩ := List.mem_filter.mp hw
    obtain ⟨left, right, rfl, hstart, hrun⟩ := mem_words_iff.mp hw
    have hstop : w.stop = (left ++ w.letters).length := by
      rw [Word.stop, hstart, List.length_append]
    refine ⟨rfl, ⟨left, w.letters, right, rfl, hstart, hstop, hrun⟩, ?_⟩
    rw [Span.part_append hstart hstop]
    exact Pattern.accepts_iff.mp haccepts
  · rintro ⟨hstyle, ⟨left, letters, right, rfl, hstart, hstop, hrun⟩, haccepts⟩
    rw [Span.part_append hstart hstop, ← Pattern.accepts_iff] at haccepts
    refine ⟨⟨left.length, letters⟩, List.mem_filter.mpr ⟨?_, haccepts⟩, ?_⟩
    · exact mem_words_iff.mpr ⟨left, right, rfl, rfl, hrun⟩
    · cases p
      cases hstyle
      cases hstart
      rw [List.length_append] at hstop
      cases hstop
      rfl

theorem pairwise_spans (t : Text) : (k.spans t).Pairwise fun p q => p.stop < q.start := by
  rw [spans, search_wordMatch (matchesWords_of_mem hk), List.map_map, List.pairwise_map]
  exact (pairwise_words t).filter _

theorem pairwise_spansFrom (start : Nat) (l : Text) :
    (k.spansFrom start l).Pairwise fun p q => p.stop < q.start := by
  rw [spansFrom, List.pairwise_map]
  exact (pairwise_spans hk _).imp fun h => Nat.add_lt_add_right h _

theorem mem_spansFrom_iff {front operands : Text} (hfront : ∀ c ∈ front.getLast?, isWord c = false) {p : Span} :
    p ∈ k.spansFrom front.length (front ++ operands) ↔
      p.style = k.style ∧ front.length ≤ p.start ∧ p.CoversWord (front ++ operands) ∧
        k.pattern.Accepts k.fold (p.part (front ++ operands)) := by
  have hpart {q : Span} (hq : q.CoversWord operands) :
      (q.shift front.length).part (front ++ operands) = q.part operands := by
    have hshift := hq.fits.part_shift front []
    rwa [List.append_nil] at hshift
  rw [spansFrom, List.drop_left, List.mem_map]
  constructor
  · rintro ⟨q, hq, rfl⟩
    obtain ⟨hstyle, hcovers, haccepts⟩ := (mem_spans_iff hk).mp hq
    rw [hpart hcovers]
    exact ⟨hstyle, Nat.le_add_left _ _, (Span.coversWord_shift_iff hfront).mpr hcovers, haccepts⟩
  · rintro ⟨hstyle, hstart, hcovers, haccepts⟩
    obtain ⟨q, rfl⟩ := Span.exists_eq_shift hstart (Nat.le_of_lt hcovers.fits.1)
    have hcovers := (Span.coversWord_shift_iff hfront).mp hcovers
    rw [hpart hcovers] at haccepts
    exact ⟨q, (mem_spans_iff hk).mpr ⟨hstyle, hcovers, haccepts⟩, rfl⟩

end WordClass

theorem exists_of_mem_symbolSpans {t : Text} {p : Span} (hp : p ∈ symbolSpans t) :
    p.style = .symbol ∧ p.Fits t ∧ ∃ name, name ≠ [] ∧ '>' ∉ name ∧ p.part t = '<' :: name ++ ['>'] := by
  obtain ⟨place, hplace, rfl⟩ := List.mem_map.mp hp
  obtain ⟨left, right, n, rfl, -, rfl, hmatch⟩ := exists_of_mem_search hplace
  obtain ⟨name, rest, hne, hnot, rfl, hlength⟩ := exists_of_symbolMatch hmatch
  have htext : left ++ ('<' :: name ++ '>' :: rest) = left ++ ('<' :: name ++ ['>']) ++ rest := by
    simp only [List.append_assoc, List.cons_append, List.nil_append]
  have hstop : 0 + left.length + (n + 1) = (left ++ ('<' :: name ++ ['>'])).length := by
    simp only [List.length_append, List.length_cons, List.length_nil]
    omega
  rw [htext]
  refine ⟨rfl, ⟨?_, ?_⟩, name, hne, hnot, Span.part_append (Nat.zero_add _) hstop⟩
  · exact Nat.lt_add_of_pos_right (Nat.succ_pos n)
  · exact hstop ▸ (List.sublist_append_left _ _).length_le

theorem pairwise_symbolSpansFrom (start : Nat) (l : Text) :
    (symbolSpansFrom start l).Pairwise fun p q => p.stop ≤ q.start := by
  rw [symbolSpansFrom, symbolSpans, List.map_map, List.pairwise_map]
  exact (pairwise_search 0 0 none _).imp fun h => Nat.add_le_add_right h _

theorem exists_of_mem_symbolSpansFrom {front operands : Text} {p : Span}
    (hp : p ∈ symbolSpansFrom front.length (front ++ operands)) :
    p.style = .symbol ∧ front.length ≤ p.start ∧ p.Fits (front ++ operands) ∧
      ∃ name, name ≠ [] ∧ '>' ∉ name ∧ p.part (front ++ operands) = '<' :: name ++ ['>'] := by
  rw [symbolSpansFrom, List.drop_left] at hp
  obtain ⟨q, hq, rfl⟩ := List.mem_map.mp hp
  obtain ⟨hstyle, hfits, name, hne, hnot, hpart⟩ := exists_of_mem_symbolSpans hq
  have hshift := hfits.shift front []
  have hsame := hfits.part_shift front []
  rw [List.append_nil] at hshift hsame
  exact ⟨hstyle, Nat.le_add_left _ _, hshift, name, hne, hnot, hsame.trans hpart⟩

end Token

namespace Styled

/-- Spans that fit are put on a text as they are. -/
theorem spans_foldl_mark {s : Styled} {ps : List Span} (h : ∀ p ∈ ps, p.Fits s.plain) :
    (ps.foldl (fun s p => s.mark p.style p.start p.stop) s).spans = s.spans ++ ps := by
  induction ps generalizing s with
  | nil => exact (List.append_nil _).symm
  | cons p ps ih =>
    rw [List.forall_mem_cons] at h
    obtain ⟨hlt, hle⟩ := h.1
    have hmark : (s.mark p.style p.start p.stop).spans = s.spans ++ [p] := by
      rw [mark, if_pos ⟨by omega, hlt⟩, Nat.min_eq_left hle]
    have hrest : ∀ q ∈ ps, q.Fits (s.mark p.style p.start p.stop).plain := by
      rw [plain_mark]
      exact h.2
    rw [List.foldl_cons, ih hrest, hmark, List.append_assoc, List.singleton_append]

end Styled

namespace Markup

open Token

theorem instructionSpans_of_leadingSpans {l : Text} {leading : List Span} {start : Nat}
    (h : leadingSpans l = (leading, start)) :
    instructionSpans l =
      leading ++ (wordPatterns.flatMap fun k => k.spansFrom start l) ++ symbolSpansFrom start l := by
  simp only [instructionSpans, h, operandSpans_eq_search, List.map_append, List.map_flatMap, List.append_assoc]
  rfl

/-- A line without control characters shows its spans where they were found. -/
theorem line_of_instruction {l : Text} (hkind : LineKind.of l = .instruction)
    (hshown : ∀ c ∈ l, Styled.isShown c = true) (hfits : ∀ p ∈ instructionSpans l, p.Fits l) :
    line l = ⟨l, instructionSpans l⟩ := by
  have hplain : (Styled.ofText l).plain = l := List.filter_eq_self.mpr hshown
  have hfits : ∀ p ∈ instructionSpans l, p.Fits (Styled.ofText l).plain := by rwa [hplain]
  have hspans : (line l).spans = instructionSpans l := by
    simp only [line, hkind]
    exact Styled.spans_foldl_mark hfits
  exact Styled.eq_of_plain_of_spans ((plain_line l).trans hplain) hspans

theorem fits_instructionSpans {front operands : Text} {leading : List Span}
    (hlead : leadingSpans (front ++ operands) = (leading, front.length))
    (hleading : ∀ p ∈ leading, p.start < p.stop ∧ p.stop ≤ front.length)
    (hfront : ∀ c ∈ front.getLast?, isWord c = false) :
    ∀ p ∈ instructionSpans (front ++ operands), p.Fits (front ++ operands) := by
  intro p hp
  rw [instructionSpans_of_leadingSpans hlead, List.mem_append, List.mem_append, List.mem_flatMap] at hp
  rcases hp with (hp | ⟨k, hk, hp⟩) | hp
  · obtain ⟨hlt, hle⟩ := hleading p hp
    refine ⟨hlt, ?_⟩
    rw [List.length_append]
    omega
  · obtain ⟨-, -, hcovers, -⟩ := (WordClass.mem_spansFrom_iff hk hfront).mp hp
    exact hcovers.fits
  · obtain ⟨-, -, hfits, -⟩ := exists_of_mem_symbolSpansFrom hp
    exact hfits

/-- What is styled in an instruction, in this order: the address and the bytes, class by class the words of the operands
that the pattern of the class matches as a whole, and the symbol references of the operands. -/
theorem spans_line_of_instruction {l : Text} (hkind : LineKind.of l = .instruction)
    (hshown : ∀ c ∈ l, Styled.isShown c = true) :
    ∃ leading start, Leads l leading start ∧ (∀ p ∈ leading, p.stop ≤ start) ∧
      (∀ c ∈ (l.take start).getLast?, isWord c = false) ∧
      line l =
        ⟨l, leading ++ (wordPatterns.flatMap fun k => k.spansFrom start l) ++ symbolSpansFrom start l⟩ ∧
      (∀ k ∈ wordPatterns,
        (k.spansFrom start l).Pairwise (fun p q => p.stop < q.start) ∧
        ∀ p, p ∈ k.spansFrom start l ↔
          p.style = k.style ∧ start ≤ p.start ∧ p.CoversWord l ∧ k.pattern.Accepts k.fold (p.part l)) ∧
      (symbolSpansFrom start l).Pairwise (fun p q => p.stop ≤ q.start) ∧
      ∀ p ∈ symbolSpansFrom start l,
        p.style = .symbol ∧ start ≤ p.start ∧ ∃ name, name ≠ [] ∧ '>' ∉ name ∧ p.part l = '<' :: name ++ ['>'] := by
  cases hlead : leadingSpans l with
  | mk leading start =>
  have hleads := leads_leadingSpans l
  rw [hlead] at hleads
  obtain ⟨front, operands, rfl, rfl, hfront, hleading⟩ := hleads.exists_append
  have hline := line_of_instruction hkind hshown (fits_instructionSpans hlead hleading hfront)
  rw [instructionSpans_of_leadingSpans hlead] at hline
  refine ⟨leading, front.length, hleads, fun p hp => (hleading p hp).2, ?_, hline, fun k hk => ?_, ?_, fun p hp => ?_⟩
  · rwa [List.take_left]
  · exact ⟨WordClass.pairwise_spansFrom hk _ _, fun p => WordClass.mem_spansFrom_iff hk hfront⟩
  · exact pairwise_symbolSpansFrom _ _
  · obtain ⟨hstyle, hstart, -, hname⟩ := exists_of_mem_symbolSpansFrom hp
    exact ⟨hstyle, hstart, hname⟩

def callRow : Text := "  401136:\te8 e5 ff ff ff \tcall   401120 <add+0x10>".toList

theorem spans_line_of_instruction_callRow :
    LineKind.of callRow = .instruction ∧ (∀ c ∈ callRow, Styled.isShown c = true) ∧
      (∃ leading start, Leads callRow leading start ∧
        line callRow = ⟨callRow, leading ++ (wordPatterns.flatMap fun k => k.spansFrom start callRow) ++
          symbolSpansFrom start callRow⟩) ∧
      (line callRow).spans =
        [⟨2, 8, .address⟩, ⟨10, 25, .bytes⟩, ⟨26, 30, .mnemonic⟩, ⟨41, 44, .mnemonic⟩, ⟨33, 39, .number⟩,
         ⟨45, 49, .number⟩, ⟨40, 50, .symbol⟩] := by
  have hkind : LineKind.of callRow = .instruction := by decide +kernel
  have hshown : ∀ c ∈ callRow, Styled.isShown c = true := List.all_eq_true.mp (by decide +kernel)
  obtain ⟨leading, start, hleads, -, -, hline, -⟩ := spans_line_of_instruction hkind hshown
  exact ⟨hkind, hshown, ⟨leading, start, hleads, hline⟩, by decide +kernel⟩

end Markup

end DisasmLens
