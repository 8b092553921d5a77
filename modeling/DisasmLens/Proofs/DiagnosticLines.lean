import DisasmLens.Proofs.DiagnosticRoundTrip

/-!
# Reports line by line

A diagnostic goes on in a later line only where blanks are asked for: before its severity and before its message.
A line that ends there `BreaksOff`. Every other line is read by itself, whatever comes behind it
(`scan_append_of_not_breaksOff`), so a report of such lines is read line by line; the last line has nothing
behind it and may be any. A line that breaks off is completed by some next lines, and then the diagnostic takes
what stands there as its own (`exists_scan_append_ne`).
-/

namespace DisasmLens.Diagnostic

/-- The line ends, blanks aside, where a diagnostic waits for its severity or for its message. -/
inductive BreaksOff : Text → Prop where
  | severity (lead : Text) {line column blanks : Text} {separator : Char}
      (line_run : IsRun Text.isDecimalDigit line) (separator_eq : separator = ',' ∨ separator = ':')
      (column_run : IsRun Text.isDecimalDigit column) (blank : ∀ c ∈ blanks, Text.isBlank c = true) :
      BreaksOff (lead ++ ':' :: line ++ separator :: column ++ ':' :: blanks)
  | message (lead : Text) {line column gap severity blanks : Text} {separator : Char}
      (line_run : IsRun Text.isDecimalDigit line) (separator_eq : separator = ',' ∨ separator = ':')
      (column_run : IsRun Text.isDecimalDigit column) (gap_run : IsRun Text.isBlank gap)
      (severity_word : IsSeverity severity) (blank : ∀ c ∈ blanks, Text.isBlank c = true) :
      BreaksOff (lead ++ ':' :: line ++ separator :: column ++ ':' :: gap ++ severity ++ ':' :: blanks)

theorem BreaksOff.cons {t : Text} (h : BreaksOff t) (x : Char) : BreaksOff (x :: t) := by
  cases h with
  | severity lead line_run separator_eq column_run blank =>
    exact .severity (x :: lead) line_run separator_eq column_run blank
  | message lead line_run separator_eq column_run gap_run severity_word blank =>
    exact .message (x :: lead) line_run separator_eq column_run gap_run severity_word blank

/-! ### Lines that do not break off -/

namespace Cut

theorem feed_ne_separator (c : Cut) : '\n' ≠ c.separator := by
  rcases c.separator_eq with h | h
  · rw [h]
    decide
  · rw [h]
    decide

/-- A line feed in the body stands among the blanks before the severity or before the message. -/
theorem breaksOff_of_body {c : Cut} {t u : Text} (ht : '\n' ∉ t) (h : c.body = t ++ '\n' :: u) :
    BreaksOff t := by
  have hline : '\n' ∉ c.parts.line := c.line_run.not_mem (by decide)
  have hcolumn : '\n' ∉ c.parts.column := c.column_run.not_mem (by decide)
  have hword : '\n' ∉ c.parts.severity := not_mem_severity c.severity_word (by decide) (by decide)
  have hsep := c.feed_ne_separator
  -- the text in front of the first line feed is `t`
  have hfront {s v : Text} (hs : '\n' ∉ s) (hb : c.body = s ++ '\n' :: v) : t = s :=
    Text.eq_of_append_cons ht hs (h.symm.trans hb)
  by_cases hgap : '\n' ∈ c.gap
  · obtain ⟨blanks, more, hg, hblanks⟩ := List.eq_append_cons_of_mem hgap
    have ht : t = ':' :: c.parts.line ++ c.separator :: c.parts.column ++ ':' :: blanks := by
      refine hfront (v := more ++ c.parts.severity ++ ':' :: c.indent ++ c.parts.message) ?_ ?_
      · simp [hline, hcolumn, hsep, hblanks]
      · simp [body, hg]
    rw [ht]
    refine .severity [] c.line_run c.separator_eq c.column_run fun x hx => ?_
    exact c.gap_run.2 x (hg ▸ List.mem_append_left _ hx)
  · have hindent : '\n' ∈ c.indent := by
      have hmem : '\n' ∈ c.body := by simp [h]
      simpa [body, hline, hcolumn, hsep, hgap, hword, c.message_line] using hmem
    obtain ⟨blanks, more, hi, hblanks⟩ := List.eq_append_cons_of_mem hindent
    have ht : t = ':' :: c.parts.line ++ c.separator :: c.parts.column ++ ':' :: c.gap ++
        c.parts.severity ++ ':' :: blanks := by
      refine hfront (v := more ++ c.parts.message) ?_ ?_
      · simp [hline, hcolumn, hsep, hgap, hword, hblanks]
      · simp [body, hi]
    rw [ht]
    refine .message [] c.line_run c.separator_eq c.column_run c.gap_run c.severity_word fun x hx => ?_
    exact c.indent_run.2 x (hi ▸ List.mem_append_left _ hx)

/-- A diagnostic that begins in a line ends with it, unless the line breaks off. -/
theorem body_eq_of_not_breaksOff {c : Cut} {t rest : Text} (ht : '\n' ∉ t) (hf : ¬BreaksOff t)
    (hr : AtLineEnd rest) (h : c.body ++ c.rest = t ++ rest) : c.body = t ∧ c.rest = rest := by
  rcases List.append_eq_append_iff.mp h with ⟨v, hv, hrest⟩ | ⟨v, hv, hrest⟩
  · cases v with
    | nil => exact ⟨by rw [hv, List.append_nil], hrest⟩
    | cons x v =>
      -- the message goes on to the end of the line
      have hx : x = '\n' := by simpa [AtLineEnd, hrest] using c.rest_end
      rw [hv, hx] at ht
      exact absurd (List.mem_append_right _ List.mem_cons_self) ht
  · cases v with
    | nil => exact ⟨by rw [hv, List.append_nil], hrest.symm⟩
    | cons x v =>
      have hx : x = '\n' := by simpa [AtLineEnd, hrest] using hr
      rw [hx] at hv
      exact absurd (breaksOff_of_body ht hv) hf

theorem message_ne_nil_of_not_breaksOff {c : Cut} (hf : ¬BreaksOff c.body) : c.parts.message ≠ [] := by
  intro hm
  have hbody : c.body = ':' :: c.parts.line ++ c.separator :: c.parts.column ++ ':' :: c.gap ++
      c.parts.severity ++ ':' :: c.indent := by
    rw [body, hm, List.append_nil]
  rw [hbody] at hf
  exact hf (.message [] c.line_run c.separator_eq c.column_run c.gap_run c.severity_word c.indent_run.2)

/-- A cut whose message is not empty ends with its line, so what is behind it may be exchanged. -/
def withRest (c : Cut) (hm : c.parts.message ≠ []) (rest : Text) (hr : AtLineEnd rest) : Cut :=
  { c with
    rest
    rest_end := hr
    indent_whole := by
      obtain ⟨x, m, hx⟩ := List.exists_cons_of_ne_nil hm
      have hs := c.indent_whole
      rw [hx] at hs ⊢
      exact hs }

end Cut

theorem parts?_append_eq_some_iff {t rest r : Text} {p : Parts} (ht : '\n' ∉ t) (hf : ¬BreaksOff t)
    (hr : AtLineEnd rest) :
    parts? (t ++ rest) = some (p, r) ↔ (∃ c : Cut, c.body = t ∧ c.parts = p) ∧ r = rest := by
  constructor
  · intro h
    obtain ⟨c, hlead, htext, rfl, rfl⟩ := Cut.exists_of_parts? h
    rw [Cut.text, hlead, List.nil_append] at htext
    obtain ⟨hbody, hrest⟩ := Cut.body_eq_of_not_breaksOff ht hf hr htext
    exact ⟨⟨c, hbody, rfl⟩, hrest⟩
  · rintro ⟨⟨c, rfl, rfl⟩, rfl⟩
    exact (c.withRest (Cut.message_ne_nil_of_not_breaksOff hf) r hr).parts?_body

theorem parts?_append {t rest : Text} (ht : '\n' ∉ t) (hf : ¬BreaksOff t) (hr : AtLineEnd rest) :
    parts? (t ++ rest) = (parts? t).map fun found => (found.1, rest) := by
  have halone {p : Parts} {r : Text} : parts? t = some (p, r) ↔ (∃ c : Cut, c.body = t ∧ c.parts = p) ∧ r = [] := by
    have h := parts?_append_eq_some_iff (p := p) (r := r) ht hf (.inl rfl)
    rwa [List.append_nil] at h
  ext ⟨p, r⟩
  simp only [parts?_append_eq_some_iff ht hf hr, Option.map_eq_some_iff, Prod.exists, halone, Prod.mk.injEq]
  constructor
  · rintro ⟨hc, rfl⟩
    exact ⟨p, [], ⟨hc, rfl⟩, rfl, rfl⟩
  · rintro ⟨q, _, ⟨hc, -⟩, rfl, rfl⟩
    exact ⟨hc, rfl⟩

/-- What begins in a line that does not break off is the same whatever is behind the line. -/
theorem inLine?_append {line rest : Text} (hl : '\n' ∉ line) (hf : ¬BreaksOff line) (hr : AtLineEnd rest) :
    inLine? (line ++ rest) = (inLine? line).map fun found => (found.1, rest) := by
  induction line with
  | nil =>
    rcases hr with rfl | hr
    · rfl
    · obtain ⟨x, rest, rfl⟩ := List.exists_cons_of_ne_nil (l := rest) (by rintro rfl; cases hr)
      cases hr
      exact inLine?_feed rest
  | cons x line ih =>
    have hparts := parts?_append hl hf hr
    rw [List.mem_cons, not_or] at hl
    have hx := Ne.symm hl.1
    rw [List.cons_append] at hparts ⊢
    rw [inLine?_cons hx, inLine?_cons hx, ih hl.2 fun h => hf (h.cons x), hparts, Option.map_or]

theorem scan_pass {s : Text} (hs : '\n' ∉ s) (t : Text) : scan 0 false (s ++ t) = scan 0 false t := by
  induction s with
  | nil => rfl
  | cons x s ih =>
    rw [List.mem_cons, not_or] at hs
    rw [List.cons_append, scan, decide_eq_false (Ne.symm hs.1)]
    exact ih hs.2

theorem scan_of_inLine?_eq_none {line rest : Text} (hl : '\n' ∉ line) (hr : AtLineEnd rest)
    (hnone : inLine? (line ++ rest) = none) : scan 0 true (line ++ rest) = scan 0 false rest := by
  cases line with
  | nil =>
    cases rest with
    | nil => rfl
    | cons x rest =>
      rw [List.nil_append] at hnone ⊢
      rw [scan]
      rw [scan, hnone]
  | cons x line =>
    rw [List.mem_cons, not_or] at hl
    rw [List.cons_append] at hnone ⊢
    rw [scan, hnone, decide_eq_false (Ne.symm hl.1)]
    exact scan_pass hl.2 rest

theorem scan_eq_toList {line : Text} (hl : '\n' ∉ line) :
    scan 0 true line = ((inLine? line).map Prod.fst).toList := by
  have hline : line ++ [] = line := List.append_nil line
  cases hfound : inLine? line with
  | none =>
    rw [← hline] at hfound ⊢
    exact scan_of_inLine?_eq_none hl (.inl rfl) hfound
  | some found =>
    obtain ⟨p, r⟩ := found
    obtain ⟨c, htext, -, rfl, rfl⟩ := exists_longest_of_inLine? hfound
    have hrest : c.rest = [] := by
      refine c.rest_end.resolve_right fun hf => hl ?_
      rw [← htext, Cut.text]
      exact List.mem_append_right _ (List.mem_of_mem_head? hf)
    have hn : line ≠ [] := htext ▸ c.text_ne_nil
    rw [hrest] at hfound
    rw [← hline] at hfound ⊢
    exact scan_of_inLine?_eq_some hl hn hfound

/-- A line that does not break off is read by itself. -/
theorem scan_append_of_not_breaksOff {line : Text} (hl : '\n' ∉ line) (hf : ¬BreaksOff line) (rest : Text) :
    scan 0 true (line ++ '\n' :: rest) = scan 0 true line ++ scan 0 true rest := by
  have hfeed : scan 0 false ('\n' :: rest) = scan 0 true rest := rfl
  have hr : AtLineEnd ('\n' :: rest) := .inr rfl
  have hline := inLine?_append hl hf hr
  rw [scan_eq_toList hl, ← hfeed]
  cases hfound : inLine? line with
  | none =>
    rw [hfound, Option.map_none] at hline
    exact scan_of_inLine?_eq_none hl hr hline
  | some found =>
    rw [hfound, Option.map_some] at hline
    have hn : line ≠ [] := by
      rintro rfl
      cases hfound
    exact scan_of_inLine?_eq_some hl hn hline

theorem scan_unlines {lines : List Text} (hl : ∀ line ∈ lines, '\n' ∉ line)
    (hf : ∀ line ∈ lines.dropLast, ¬BreaksOff line) :
    scan 0 true (Text.unlines lines) = lines.flatMap (scan 0 true) := by
  induction lines with
  | nil => rfl
  | cons line lines ih =>
    rw [List.forall_mem_cons] at hl
    cases lines with
    | nil => rw [Text.unlines_singleton, List.flatMap_singleton]
    | cons next lines =>
      rw [List.dropLast_cons_cons, List.forall_mem_cons] at hf
      rw [Text.unlines_cons (List.cons_ne_nil next lines), scan_append_of_not_breaksOff hl.1 hf.1, ih hl.2 hf.2]
      exact List.flatMap_cons.symm

/-! ### Lines that break off -/

def missingWord : Text := ['e', 'r', 'r', 'o', 'r']

theorem isSeverity_missingWord : IsSeverity missingWord := .inl (by decide)

/-- A next line that completes what breaks off, whether its severity is missing or its message. -/
def completion (message : Text) : Text := missingWord ++ ':' :: ' ' :: message

theorem isRun_blanks_feed {blanks : Text} (h : ∀ c ∈ blanks, Text.isBlank c = true) :
    IsRun Text.isBlank (blanks ++ ['\n']) := by
  refine ⟨by simp, fun c hc => ?_⟩
  rcases List.mem_append.mp hc with hc | hc
  · exact h c hc
  · rw [List.mem_singleton.mp hc]
    decide

theorem not_mem_completion {message : Text} (h : '\n' ∉ message) : '\n' ∉ completion message := by
  simp only [completion, List.mem_append, List.mem_cons, not_or]
  exact ⟨by decide, by decide, by decide, h⟩

theorem inLine?_completion {message : Text} (h : ':' ∉ message) : inLine? (completion message ++ []) = none := by
  have hspace : Stops Text.isDecimalDigit (' ' :: message) := by
    intro x hx
    cases hx
    decide
  have hmessage : inLine? (message ++ []) = none := inLine?_append_of_not_mem h rfl
  rw [List.append_nil] at hmessage ⊢
  have hword := inLine?_colon hspace (inLine?_cons_of_ne_colon (by decide) hmessage)
  exact inLine?_append_of_not_mem (by decide) hword

theorem inLine?_append_completion {line message : Text} (hl : '\n' ∉ line) (hb : BreaksOff line)
    (hfeed : '\n' ∉ message) (hcolon : ':' ∉ message) (hhead : Stops Text.isBlank (message ++ [])) :
    ∃ p : Parts, inLine? (line ++ '\n' :: completion message) = some (p, []) ∧ message <:+ p.message := by
  cases hb with
  | @severity lead line column blanks separator line_run separator_eq column_run blank =>
    let c : Cut :=
      { lead, separator
        parts := ⟨line, column, missingWord, message⟩
        gap := blanks ++ ['\n']
        indent := [' ']
        rest := []
        lead_line := fun hm => hl (by simp [hm])
        line_run, separator_eq, column_run
        gap_run := isRun_blanks_feed blank
        severity_word := isSeverity_missingWord
        indent_run := isRun_space
        indent_whole := hhead
        message_line := hfeed
        rest_end := .inl rfl }
    have htext : c.text =
        lead ++ ':' :: line ++ separator :: column ++ ':' :: blanks ++ '\n' :: completion message := by
      simp only [c, Cut.text, Cut.body, completion, List.append_assoc, List.cons_append, List.nil_append,
        List.append_nil]
    refine ⟨c.parts, ?_, List.suffix_rfl⟩
    rw [← htext]
    exact c.inLine?_text (inLine?_append_of_not_mem hcolon rfl)
  | @message lead line column gap severity blanks separator line_run separator_eq column_run gap_run severity_word
      blank =>
    let c : Cut :=
      { lead, separator, gap
        parts := ⟨line, column, severity, completion message⟩
        indent := blanks ++ ['\n']
        rest := []
        lead_line := fun hm => hl (by simp [hm])
        line_run, separator_eq, column_run, gap_run, severity_word
        indent_run := isRun_blanks_feed blank
        indent_whole := by
          rw [List.append_nil]
          exact stops_severity isSeverity_missingWord _
        message_line := not_mem_completion hfeed
        rest_end := .inl rfl }
    have htext : c.text = lead ++ ':' :: line ++ separator :: column ++ ':' :: gap ++ severity ++ ':' :: blanks ++
        '\n' :: completion message := by
      simp only [c, Cut.text, Cut.body, List.append_assoc, List.cons_append, List.nil_append, List.append_nil]
    refine ⟨c.parts, ?_, ((List.suffix_cons ' ' message).trans (List.suffix_cons ':' _)).trans ?_⟩
    rotate_left
    · exact List.suffix_append _ _
    rw [← htext]
    exact c.inLine?_text (inLine?_completion hcolon)

theorem length_message_le {line : Text} {p : Parts} {r : Text} (h : inLine? line = some (p, r)) :
    p.message.length ≤ line.length := by
  obtain ⟨c, rfl, -, rfl, -⟩ := exists_longest_of_inLine? h
  simp only [Cut.text, Cut.body, List.length_append, List.length_cons]
  omega

theorem head?_scan {t r : Text} {p : Parts} (h : inLine? t = some (p, r)) : (scan 0 true t).head? = some p := by
  cases t with
  | nil => cases h
  | cons x t =>
    rw [scan, h]
    rfl

/-- A line that breaks off is not read by itself before every other. -/
theorem exists_scan_append_ne {line : Text} (hl : '\n' ∉ line) (hb : BreaksOff line) :
    ∃ rest, scan 0 true (line ++ '\n' :: rest) ≠ scan 0 true line ++ scan 0 true rest := by
  -- a message longer than the line cannot have been found in it
  let message : Text := List.replicate (line.length + 1) 'x'
  have hx {c : Char} (hc : c ≠ 'x') : c ∉ message := fun hm => hc (List.eq_of_mem_replicate hm)
  have hhead : Stops Text.isBlank (message ++ []) := by
    intro c hc
    cases hc
    decide
  obtain ⟨p, hfound, hlong⟩ := inLine?_append_completion hl hb (hx (by decide)) (hx (by decide)) hhead
  refine ⟨completion message, fun heq => ?_⟩
  have hnone : scan 0 true (completion message) = [] := by
    have h := scan_of_inLine?_eq_none (not_mem_completion (hx (by decide))) (.inl rfl)
      (inLine?_completion (hx (by decide)))
    rwa [List.append_nil] at h
  have hp := head?_scan hfound
  rw [heq, hnone, List.append_nil, scan_eq_toList hl] at hp
  cases hline : inLine? line with
  | none =>
    rw [hline] at hp
    cases hp
  | some found =>
    rw [hline] at hp
    cases hp
    have hle := length_message_le (p := found.1) (r := found.2) hline
    have hlen := hlong.length_le
    rw [List.length_replicate] at hlen
    omega

/-! ### Reports -/

theorem mapM_flatMap {α β γ ε : Type} (f : β → Except ε γ) (g : α → List β) (as : List α) :
    (as.flatMap g).mapM f = List.flatten <$> as.mapM fun a => (g a).mapM f := by
  induction as with
  | nil => rfl
  | cons a as ih =>
    rw [List.flatMap_cons, List.mapM_append, ih, List.mapM_cons]
    cases (g a).mapM f with
    | error e => rfl
    | ok bs =>
      cases as.mapM fun a => (g a).mapM f with
      | error e => rfl
      | ok bss => rfl

theorem breaksOff_iff_completed {line : Text} (hl : '\n' ∉ line) :
    BreaksOff line ↔ (inLine? (line ++ '\n' :: completion ['x'])).any (·.2 = []) = true := by
  constructor
  · intro hb
    have hx {c : Char} (hc : c ≠ 'x') : c ∉ ['x'] := fun hm => hc (List.mem_singleton.mp hm)
    obtain ⟨p, hfound, -⟩ := inLine?_append_completion hl hb (hx (by decide)) (hx (by decide)) (by decide)
    rw [hfound]
    rfl
  · intro hany
    by_contra hf
    rw [inLine?_append hl hf (.inr rfl)] at hany
    cases hfound : inLine? line with
    | none =>
      rw [hfound] at hany
      cases hany
    | some found =>
      rw [hfound] at hany
      cases hany

/-- A report is read line by line if no line with another behind it breaks off. Of its lines just those that do not
break off are read by themselves whatever is behind them. -/
theorem parseAll_eq_flatten_lines (report : Text) :
    ((∀ line ∈ report.lines.dropLast, ¬BreaksOff line) →
        parseAll report = List.flatten <$> report.lines.mapM parseAll) ∧
      ∀ line ∈ report.lines,
        (∀ rest, scan 0 true (line ++ '\n' :: rest) = scan 0 true line ++ scan 0 true rest) ↔
          ¬BreaksOff line := by
  constructor
  · intro hf
    have hscan := scan_unlines (fun line hm => Text.not_mem_of_mem_lines hm) hf
    rw [Text.unlines_lines] at hscan
    rw [parseAll, hscan, mapM_flatMap]
    rfl
  · intro line hm
    have hl := Text.not_mem_of_mem_lines hm
    constructor
    · intro hall hb
      obtain ⟨rest, hne⟩ := exists_scan_append_ne hl hb
      exact hne (hall rest)
    · exact fun hf rest => scan_append_of_not_breaksOff hl hf rest

def wrappedReport : Text := "x.jai:1,2: Error: bad: \nnote: 3:4:\nb:5:6: warning: c:\nd:7,8: error:".toList

theorem parseAll_eq_flatten_lines_note :
    (∀ line ∈ wrappedReport.lines.dropLast, ¬BreaksOff line) ∧
      parseAll wrappedReport = List.flatten <$> wrappedReport.lines.mapM parseAll ∧
      (parseAll wrappedReport).toOption =
        some [⟨1, 2, "error".toList, "bad:".toList⟩, ⟨5, 6, "warning".toList, "c:".toList⟩] := by
  have hf : ∀ line ∈ wrappedReport.lines.dropLast, ¬BreaksOff line := by
    intro line hm
    have hall : (wrappedReport.lines.dropLast.all fun line =>
        !(inLine? (line ++ '\n' :: completion ['x'])).any (·.2 = [])) = true := by
      decide +kernel
    rw [breaksOff_iff_completed (Text.not_mem_of_mem_lines (List.dropLast_subset _ hm))]
    simpa using List.all_eq_true.mp hall line hm
  have hread := (parseAll_eq_flatten_lines wrappedReport).1 hf
  exact ⟨hf, hread, by decide +kernel⟩

/-- The second line holds a diagnostic of its own, but the first line has no message. -/
theorem parseAll_ne_flatten_lines :
    parseAll "a.jai:1,2: Error:\nb.jai:3,4: Error: bad".toList ≠
      List.flatten <$> (Text.lines "a.jai:1,2: Error:\nb.jai:3,4: Error: bad".toList).mapM parseAll := by
  decide +kernel

end DisasmLens.Diagnostic
