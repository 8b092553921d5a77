import DisasmLens.Diagnostic.Parser
import Mathlib.Data.Option.Basic

/-!
# The grammar of diagnostics

A `Cut` is one way to read the front of a text as a diagnostic, with all pieces between its parts. A line may
have several cuts; the one with the longest lead counts, and `inLine?` finds it (`text_ne_of_inLine?`,
`exists_longest_of_inLine?`). `Scans` is the search through a report by places in it: the first line start that
has a cut, and then on from the end of the message. `scan` does that search (`scans_scan`), and no other result
fits its rules (`Scans.unique`).
-/

namespace DisasmLens.Diagnostic

/-! ### Pieces -/

def IsRun (p : Char → Bool) (cs : Text) : Prop := cs ≠ [] ∧ ∀ c ∈ cs, p c = true

def Stops (p : Char → Bool) (t : Text) : Prop := ∀ c ∈ t.head?, p c = false

instance (p : Char → Bool) (t : Text) : Decidable (Stops p t) :=
  match t with
  | [] => .isTrue fun _ hc => nomatch hc
  | c :: _ =>
    if h : p c = false then .isTrue fun _ hc => Option.some.inj hc ▸ h
    else .isFalse fun hs => h (hs c rfl)

def AtLineEnd (t : Text) : Prop := t = [] ∨ t.head? = some '\n'

def IsSeverity (s : Text) : Prop :=
  Text.foldCase s = "error".toList ∨ Text.foldCase s = "warning".toList

theorem stops_dropWhile (p : Char → Bool) (t : Text) : Stops p (t.dropWhile p) :=
  fun _ hc => Text.eq_false_of_mem_head?_dropWhile hc

theorem not_mem_takeWhile_feed (t : Text) : '\n' ∉ t.takeWhile (· ≠ '\n') := by
  intro h
  have hne := List.all_eq_true.mp (List.all_takeWhile (p := (· ≠ '\n')) (l := t)) '\n' h
  simp at hne

theorem atLineEnd_dropWhile (t : Text) : AtLineEnd (t.dropWhile (· ≠ '\n')) := by
  have hs := stops_dropWhile (· ≠ '\n') t
  cases hd : t.dropWhile (· ≠ '\n') with
  | nil => exact .inl rfl
  | cons c rest =>
    rw [hd] at hs
    have hc : c = '\n' := by simpa using hs c rfl
    exact .inr (congrArg some hc)

theorem run?_append {p : Char → Bool} {cs rest : Text} (h : IsRun p cs) (hr : Stops p rest) :
    run? p (cs ++ rest) = some (cs, rest) := by
  rw [run?, Text.takeWhile_append_of_head? h.2 hr, Text.dropWhile_append_of_head? h.2 hr]
  cases cs with
  | nil => exact absurd rfl h.1
  | cons c cs => rfl

theorem run?_eq_some {p : Char → Bool} {t cs rest : Text} (h : run? p t = some (cs, rest)) :
    IsRun p cs ∧ Stops p rest ∧ t = cs ++ rest := by
  unfold run? at h
  split at h
  · cases h
  · rename_i hne
    cases h
    refine ⟨⟨hne, List.all_eq_true.mp List.all_takeWhile⟩, stops_dropWhile p t, ?_⟩
    exact List.takeWhile_append_dropWhile.symm

theorem stops_colon (t : Text) : Stops Text.isDecimalDigit (':' :: t) := by
  intro x hx
  cases hx
  decide

theorem AtLineEnd.stops {p : Char → Bool} (hp : p '\n' = false) {t : Text} (h : AtLineEnd t) : Stops p t := by
  intro c hc
  rcases h with hn | hf
  · rw [hn] at hc
    cases hc
  · rw [hf] at hc
    cases hc
    exact hp

theorem length_foldCase (t : Text) : (Text.foldCase t).length = t.length := List.length_map ..

theorem severity?_append {s : Text} (h : IsSeverity s) (rest : Text) :
    severity? (s ++ rest) = some (s, rest) := by
  have hlen := length_foldCase s
  rcases h with h | h
  · have h5 : s.length = 5 := by
      rw [← hlen, h]
      rfl
    have htake : (s ++ rest).take 5 = s := List.take_left' h5
    have hdrop : (s ++ rest).drop 5 = rest := List.drop_left' h5
    rw [severity?, htake, hdrop, if_pos h]
  · have h7 : s.length = 7 := by
      rw [← hlen, h]
      rfl
    have hshort : Text.foldCase ((s ++ rest).take 5) ≠ "error".toList := by
      rw [List.take_append_of_le_length (by omega), Text.foldCase, List.map_take, ← Text.foldCase, h]
      decide
    have htake : (s ++ rest).take 7 = s := List.take_left' h7
    have hdrop : (s ++ rest).drop 7 = rest := List.drop_left' h7
    rw [severity?, if_neg hshort, htake, hdrop, if_pos h]

theorem severity?_eq_some {t s rest : Text} (h : severity? t = some (s, rest)) :
    IsSeverity s ∧ t = s ++ rest := by
  unfold severity? at h
  split at h
  · rename_i hw
    cases h
    exact ⟨.inl hw, (List.take_append_drop 5 t).symm⟩
  · split at h
    · rename_i hw
      cases h
      exact ⟨.inr hw, (List.take_append_drop 7 t).symm⟩
    · cases h

theorem stops_severity {s : Text} (h : IsSeverity s) (rest : Text) : Stops Text.isBlank (s ++ rest) := by
  cases s with
  | nil =>
    rcases h with h | h
    · cases h
    · cases h
  | cons c s =>
    intro x hx
    cases hx
    cases hb : Text.isBlank c with
    | false => rfl
    | true =>
      simp only [IsSeverity, Text.foldCase, List.map_cons, Text.foldChar_of_isBlank hb] at h
      have hc : c = 'e' ∨ c = 'w' :=
        h.imp (fun he => (List.cons.inj he).1) (fun hw => (List.cons.inj hw).1)
      revert hb
      rcases hc with rfl | rfl
      · decide
      · decide

/-! ### Cuts -/

/-- A diagnostic at the front of a text with all pieces between its parts, and what is left of the text. The gap stands
before the severity and the indent before the message. -/
structure Cut where
  lead : Text
  parts : Parts
  separator : Char
  gap : Text
  indent : Text
  rest : Text
  lead_line : '\n' ∉ lead
  line_run : IsRun Text.isDecimalDigit parts.line
  separator_eq : separator = ',' ∨ separator = ':'
  column_run : IsRun Text.isDecimalDigit parts.column
  gap_run : IsRun Text.isBlank gap
  severity_word : IsSeverity parts.severity
  indent_run : IsRun Text.isBlank indent
  indent_whole : Stops Text.isBlank (parts.message ++ rest)
  message_line : '\n' ∉ parts.message
  rest_end : AtLineEnd rest

namespace Cut

def body (c : Cut) : Text :=
  ':' :: c.parts.line ++ c.separator :: c.parts.column ++ ':' :: c.gap ++ c.parts.severity ++
    ':' :: c.indent ++ c.parts.message

def text (c : Cut) : Text := c.lead ++ c.body ++ c.rest

def IsLongest (c : Cut) : Prop := ∀ d : Cut, d.text = c.text → d.lead.length ≤ c.lead.length

theorem stops_separator (c : Cut) (t : Text) : Stops Text.isDecimalDigit (c.separator :: t) := by
  intro x hx
  cases hx
  rcases c.separator_eq with h | h
  · rw [h]
    decide
  · rw [h]
    decide

theorem parts?_body (c : Cut) : parts? (c.body ++ c.rest) = some (c.parts, c.rest) := by
  have hstop : Stops (· ≠ '\n') c.rest := c.rest_end.stops rfl
  have hguard : (guard (c.separator = ',' ∨ c.separator = ':') : Option Unit) = some () :=
    (Option.guard_eq_some' ()).mpr c.separator_eq
  have hmessage : ∀ x ∈ c.parts.message, decide (x ≠ '\n') = true := by
    intro x hx
    have hne : x ≠ '\n' := fun he => c.message_line (he ▸ hx)
    exact decide_eq_true hne
  simp only [body, List.append_assoc, List.cons_append, parts?, run?_append c.line_run (c.stops_separator _),
    Option.bind_eq_bind, Option.bind_some, hguard, Option.pure_def,
    run?_append c.column_run (stops_colon _), run?_append c.gap_run (stops_severity c.severity_word _),
    severity?_append c.severity_word, run?_append c.indent_run c.indent_whole,
    Text.takeWhile_append_of_head? hmessage hstop, Text.dropWhile_append_of_head? hmessage hstop]

theorem exists_of_parts? {t rest : Text} {p : Parts} (h : parts? t = some (p, rest)) :
    ∃ c : Cut, c.lead = [] ∧ c.text = t ∧ c.parts = p ∧ c.rest = rest := by
  unfold parts? at h
  -- the pieces in their order, each of which has to be there
  split at h
  · simp only [Option.bind_eq_bind, Option.bind_eq_some_iff] at h
    obtain ⟨⟨line, t₁⟩, hline, h⟩ := h
    obtain ⟨line_run, -, rfl⟩ := run?_eq_some hline
    simp only at h
    split at h
    · rename_i separator t₂
      simp only [Option.bind_eq_some_iff, Option.guard_eq_some'] at h
      obtain ⟨-, hsep, ⟨column, t₃⟩, hcolumn, h⟩ := h
      obtain ⟨column_run, -, rfl⟩ := run?_eq_some hcolumn
      simp only at h
      split at h
      · rename_i t₄
        simp only [Option.bind_eq_some_iff] at h
        obtain ⟨⟨gap, t₅⟩, hgap, ⟨severity, t₆⟩, hseverity, h⟩ := h
        obtain ⟨gap_run, -, rfl⟩ := run?_eq_some hgap
        obtain ⟨severity_word, rfl⟩ := severity?_eq_some hseverity
        simp only at h
        split at h
        · rename_i t₇
          simp only [Option.bind_eq_some_iff] at h
          obtain ⟨⟨indent, t₈⟩, hindent, h⟩ := h
          obtain ⟨indent_run, indent_stops, rfl⟩ := run?_eq_some hindent
          cases h
          have hwhole : t₈.takeWhile (· ≠ '\n') ++ t₈.dropWhile (· ≠ '\n') = t₈ :=
            List.takeWhile_append_dropWhile
          refine ⟨{
            lead := [], separator, gap, indent
            parts := ⟨line, column, severity, t₈.takeWhile (· ≠ '\n')⟩
            rest := t₈.dropWhile (· ≠ '\n')
            lead_line := List.not_mem_nil
            line_run, separator_eq := hsep, column_run, gap_run, severity_word, indent_run
            indent_whole := hwhole.symm ▸ indent_stops
            message_line := not_mem_takeWhile_feed t₈
            rest_end := atLineEnd_dropWhile t₈ }, rfl, ?_, rfl, rfl⟩
          simp only [text, body, List.nil_append, List.cons_append, List.append_assoc, hwhole]
        · cases h
      · cases h
    · cases h
  · cases h

def cons (x : Char) (hx : x ≠ '\n') (c : Cut) : Cut :=
  { c with
    lead := x :: c.lead
    lead_line := fun hm => (List.mem_cons.mp hm).elim (fun he => hx he.symm) c.lead_line }

theorem text_cons (x : Char) (hx : x ≠ '\n') (c : Cut) : (c.cons x hx).text = x :: c.text := rfl

theorem text_ne_nil (c : Cut) : c.text ≠ [] := by
  simp [text, body]

theorem length_rest_lt (c : Cut) : c.rest.length < c.text.length := by
  simp only [text, body, List.length_append, List.length_cons]
  omega

theorem eq_of_length_lead {c d : Cut} (ht : c.text = d.text) (hl : c.lead.length = d.lead.length) :
    c.parts = d.parts ∧ c.rest = d.rest := by
  have hsame : c.lead ++ (c.body ++ c.rest) = d.lead ++ (d.body ++ d.rest) := by
    simpa only [text, List.append_assoc] using ht
  have hbody : c.body ++ c.rest = d.body ++ d.rest := (List.append_inj hsame hl).2
  have hparts := c.parts?_body
  rw [hbody, d.parts?_body] at hparts
  obtain ⟨hp, hr⟩ := Prod.mk.inj (Option.some.inj hparts)
  exact ⟨hp.symm, hr.symm⟩

/-- A cut of a text begins with a colon, or leaves a cut of the text behind the first character. -/
theorem text_eq_cons {c : Cut} {x : Char} {t : Text} (h : c.text = x :: t) :
    (c.lead = [] ∧ x = ':' ∧ parts? (x :: t) = some (c.parts, c.rest)) ∨
      (x ≠ '\n' ∧ ∃ d : Cut, d.text = t ∧ c.lead = x :: d.lead) := by
  cases hl : c.lead with
  | nil =>
    have ht : c.body ++ c.rest = x :: t := by
      rw [← h, text, hl, List.nil_append]
    have hx : ':' = x := (List.cons.inj ht).1
    refine .inl ⟨rfl, hx.symm, ?_⟩
    rw [← ht]
    exact c.parts?_body
  | cons y lead =>
    have hline : '\n' ∉ y :: lead := hl ▸ c.lead_line
    have ht : y :: (lead ++ c.body ++ c.rest) = x :: t := by
      rw [← h, text, hl]
      rfl
    obtain ⟨rfl, rfl⟩ := List.cons.inj ht
    refine .inr ⟨fun hy => hline (hy ▸ List.mem_cons_self), ?_⟩
    exact ⟨{ c with lead, lead_line := fun hm => hline (List.mem_cons_of_mem y hm) }, rfl, rfl⟩

end Cut

/-! ### The longest cut -/

theorem parts?_of_ne_colon {x : Char} (h : x ≠ ':') (t : Text) : parts? (x :: t) = none := by
  unfold parts?
  split
  · rename_i he
    exact absurd (List.cons.inj he).1 h
  · rfl

theorem inLine?_cons {x : Char} (h : x ≠ '\n') (t : Text) :
    inLine? (x :: t) = (inLine? t).or (parts? (x :: t)) := by
  rw [inLine?, if_neg h]
  cases inLine? t <;> rfl

theorem inLine?_feed (t : Text) : inLine? ('\n' :: t) = none := by
  rw [inLine?, if_pos rfl]

theorem text_ne_of_inLine? {t : Text} (h : inLine? t = none) (c : Cut) : c.text ≠ t := by
  induction t generalizing c with
  | nil => exact c.text_ne_nil
  | cons x t ih =>
    intro hc
    rcases Cut.text_eq_cons hc with ⟨-, rfl, hparts⟩ | ⟨hx, d, hd, -⟩
    · rw [inLine?_cons (by decide), Option.or_eq_none_iff, hparts] at h
      cases h.2
    · rw [inLine?_cons hx, Option.or_eq_none_iff] at h
      exact ih h.1 d hd

theorem exists_longest_of_inLine? {t rest : Text} {p : Parts} (h : inLine? t = some (p, rest)) :
    ∃ c : Cut, c.text = t ∧ c.IsLongest ∧ c.parts = p ∧ c.rest = rest := by
  induction t with
  | nil => cases h
  | cons x t ih =>
    by_cases hx : x = '\n'
    · rw [hx, inLine?_feed] at h
      cases h
    rw [inLine?_cons hx] at h
    cases ht : inLine? t with
    | none =>
      rw [ht, Option.none_or] at h
      obtain ⟨c, hlead, htext, hparts, hrest⟩ := Cut.exists_of_parts? h
      refine ⟨c, htext, fun d hd => ?_, hparts, hrest⟩
      -- a cut with a longer lead would be one of the text behind the first character
      rcases Cut.text_eq_cons (hd.trans htext) with ⟨hnil, -⟩ | ⟨-, e, he, -⟩
      · rw [hnil]
        exact Nat.zero_le _
      · exact absurd he (text_ne_of_inLine? ht e)
    | some found =>
      rw [ht, Option.some_or] at h
      obtain ⟨c, htext, hlongest, hparts, hrest⟩ := ih (ht.trans h)
      refine ⟨c.cons x hx, by rw [Cut.text_cons, htext], fun d hd => ?_, hparts, hrest⟩
      rcases Cut.text_eq_cons hd with ⟨hnil, -⟩ | ⟨-, e, he, hlead⟩
      · rw [hnil]
        exact Nat.zero_le _
      · rw [hlead]
        exact Nat.succ_le_succ (hlongest e he)

/-! ### The search -/

def IsLineStart (report : Text) (i : Nat) : Prop := i = 0 ∨ ∃ j, i = j + 1 ∧ report[j]? = some '\n'

theorem drop_succ {report t : Text} {i : Nat} {c : Char} (h : report.drop i = c :: t) :
    report.drop (i + 1) = t ∧ (decide (c = '\n') = true ↔ IsLineStart report (i + 1)) := by
  have hat : report[i]? = some c := by
    have h0 : (report.drop i)[0]? = some c := by
      rw [h]
      rfl
    rwa [List.getElem?_drop, Nat.add_zero] at h0
  constructor
  · rw [← List.drop_drop, h]
    rfl
  · simp [IsLineStart, hat]

/-- The diagnostics of a report from a place on. -/
inductive Scans (report : Text) : Nat → List Parts → Prop where
  | done {i : Nat} (none : ∀ j, i ≤ j → IsLineStart report j → ∀ c : Cut, c.text ≠ report.drop j) :
      Scans report i []
  | found {i j : Nat} {c : Cut} {ps : List Parts} (le : i ≤ j) (start : IsLineStart report j)
      (text : c.text = report.drop j) (longest : c.IsLongest)
      (first : ∀ k, i ≤ k → k < j → IsLineStart report k → ∀ d : Cut, d.text ≠ report.drop k)
      (behind : Scans report (report.length - c.rest.length) ps) : Scans report i (c.parts :: ps)

theorem Scans.unique {report : Text} {i : Nat} {ps qs : List Parts} (hp : Scans report i ps)
    (hq : Scans report i qs) : ps = qs := by
  induction hp generalizing qs with
  | done none =>
    cases hq with
    | done => rfl
    | found le start text => exact absurd text (none _ le start _)
  | @found i j c ps le start text longest first behind ih =>
    cases hq with
    | done none => exact absurd text (none _ le start _)
    | @found _ k d qs le' start' text' longest' first' behind' =>
      have hjk : j = k := by
        rcases Nat.lt_trichotomy j k with h | h | h
        · exact absurd text (first' j le h start c)
        · exact h
        · exact absurd text' (first k le' h start' d)
      have htext : c.text = d.text := by rw [text, text', hjk]
      have hlead : c.lead.length = d.lead.length :=
        Nat.le_antisymm (longest' c htext) (longest d htext.symm)
      obtain ⟨hparts, hrest⟩ := Cut.eq_of_length_lead htext hlead
      rw [hparts, ih (hrest ▸ behind')]

theorem Scans.of_succ {report : Text} {i : Nat} {ps : List Parts}
    (h : IsLineStart report i → ∀ c : Cut, c.text ≠ report.drop i) (hs : Scans report (i + 1) ps) :
    Scans report i ps := by
  have hall {j : Nat} (hj : i ≤ j) (hstart : IsLineStart report j)
      (hlater : i + 1 ≤ j → ∀ c : Cut, c.text ≠ report.drop j) (c : Cut) : c.text ≠ report.drop j := by
    rcases Nat.lt_or_eq_of_le hj with hlt | heq
    · exact hlater hlt c
    · subst heq
      exact h hstart c
  cases hs with
  | done none => exact .done fun j hj hstart => hall hj hstart fun hlt => none j hlt hstart
  | found le start text longest first behind =>
    refine .found (Nat.le_of_succ_le le) start text longest ?_ behind
    exact fun k hk hkj hstart => hall hk hstart fun hlt => first k hlt hkj hstart

theorem scans_scan {report : Text} {i skip : Nat} {atStart : Bool} {t : Text}
    (ht : report.drop i = t) (hstart : atStart = true ↔ IsLineStart report i) :
    Scans report (i + skip) (scan skip atStart t) := by
  fun_induction scan skip atStart t generalizing i with
  | case1 =>
    refine .done fun j hj _ c => ?_
    have hend : report.length ≤ i := List.drop_eq_nil_iff.mp ht
    rw [List.drop_eq_nil_of_le (by omega)]
    exact c.text_ne_nil
  | case2 _ skip c t ih =>
    obtain ⟨hnext, hstart'⟩ := drop_succ ht
    have hs := ih hnext hstart'
    rwa [Nat.add_assoc, Nat.add_comm 1 skip] at hs
  | case3 c t ih =>
    obtain ⟨hnext, hstart'⟩ := drop_succ ht
    refine .of_succ (fun hi => ?_) (ih hnext hstart')
    cases hstart.mpr hi
  | case4 c t parts rest hfound ih =>
    obtain ⟨hnext, hstart'⟩ := drop_succ ht
    obtain ⟨cut, htext, hlongest, rfl, rfl⟩ := exists_longest_of_inLine? hfound
    have hlength := congrArg List.length ht
    have hrest := cut.length_rest_lt
    rw [htext] at hrest
    simp only [List.length_drop, List.length_cons] at hlength hrest
    have hbehind : report.length - cut.rest.length = i + 1 + (t.length - cut.rest.length) := by omega
    refine .found (Nat.le_refl i) (hstart.mp rfl) (htext.trans ht.symm) hlongest ?_ ?_
    · intro k hk hki
      omega
    · rw [hbehind]
      exact ih hnext hstart'
  | case5 c t hnone ih =>
    obtain ⟨hnext, hstart'⟩ := drop_succ ht
    refine .of_succ (fun _ => ?_) (ih hnext hstart')
    rw [Nat.add_zero, ht]
    exact text_ne_of_inLine? hnone

/-! ### Reports -/

def Parts.diagnostic (p : Parts) : Diagnostic where
  line := Text.digitsValue p.line
  column := Text.digitsValue p.column
  severity := Text.lower p.severity
  message := Text.strip p.message

def Parts.IsShort (p : Parts) : Prop :=
  p.line.length ≤ Text.maxDigits ∧ p.column.length ≤ Text.maxDigits

theorem ofParts_of_isShort {p : Parts} (h : p.IsShort) : ofParts p = .ok p.diagnostic := by
  rw [ofParts, Text.boundedValue, Text.boundedValue, if_neg (Nat.not_lt.mpr h.1),
    if_neg (Nat.not_lt.mpr h.2)]
  rfl

theorem isShort_of_ofParts {p : Parts} {d : Diagnostic} (h : ofParts p = .ok d) : p.IsShort := by
  rw [ofParts, Text.boundedValue, Text.boundedValue] at h
  by_cases hline : Text.maxDigits < p.line.length
  · rw [if_pos hline] at h
    cases h
  · by_cases hcolumn : Text.maxDigits < p.column.length
    · rw [if_neg hline, if_pos hcolumn] at h
      cases h
    · exact ⟨Nat.not_lt.mp hline, Nat.not_lt.mp hcolumn⟩

theorem mapM_ofParts_of_isShort {ps : List Parts} (h : ∀ p ∈ ps, p.IsShort) :
    ps.mapM ofParts = .ok (ps.map Parts.diagnostic) := by
  induction ps with
  | nil => rfl
  | cons p ps ih =>
    rw [List.mapM_cons, ofParts_of_isShort (h p List.mem_cons_self),
      ih fun q hq => h q (List.mem_cons_of_mem p hq)]
    rfl

theorem isShort_of_mapM_ofParts {ps : List Parts} {ds : List Diagnostic}
    (h : ps.mapM ofParts = .ok ds) : ∀ p ∈ ps, p.IsShort := by
  induction ps generalizing ds with
  | nil =>
    intro p hp
    cases hp
  | cons q ps ih =>
    rw [List.mapM_cons] at h
    cases hq : ofParts q with
    | error numeral =>
      rw [hq] at h
      cases h
    | ok d =>
      cases hps : ps.mapM ofParts with
      | error numeral =>
        rw [hq, hps] at h
        cases h
      | ok ds =>
        intro p hp
        rcases List.mem_cons.mp hp with rfl | hp
        · exact isShort_of_ofParts hq
        · exact ih hps p hp

theorem mapM_ofParts_eq_ok_iff {ps : List Parts} {ds : List Diagnostic} :
    ps.mapM ofParts = .ok ds ↔ (∀ p ∈ ps, p.IsShort) ∧ ds = ps.map Parts.diagnostic := by
  constructor
  · intro h
    have hshort := isShort_of_mapM_ofParts h
    rw [mapM_ofParts_of_isShort hshort] at h
    exact ⟨hshort, (Except.ok.inj h).symm⟩
  · rintro ⟨hshort, rfl⟩
    exact mapM_ofParts_of_isShort hshort

/-- The search has one result for each report, and the diagnostics are those of its parts, if no number is too
long. -/
theorem parseAll_eq_ok_iff (report : Text) :
    ∃ ps, Scans report 0 ps ∧ (∀ qs, Scans report 0 qs → qs = ps) ∧
      ∀ ds, parseAll report = .ok ds ↔ (∀ p ∈ ps, p.IsShort) ∧ ds = ps.map Parts.diagnostic := by
  have hs : Scans report (0 + 0) (scan 0 true report) :=
    scans_scan List.drop_zero (iff_of_true rfl (.inl rfl))
  exact ⟨scan 0 true report, hs, fun qs hq => hq.unique hs, fun ds => mapM_ofParts_eq_ok_iff⟩

end DisasmLens.Diagnostic
