import DisasmLens.Json.Parser
import DisasmLens.Json.Printer
import DisasmLens.Text.Boundary
import Mathlib.Data.Option.Basic

/-!
# Reading back what is written

A plain value is read back from its indented text (`parse_indented`). The readers go through the text in the order in
which it is written, so there is one lemma for each reader: it takes the text of its part off the front, whatever
follows (`Parser.ReadsBack`). What is written holds printable characters and line feeds only
(`isWritten_indentedAt`).
-/

namespace DisasmLens.Json

/-! ### Plain values -/

/-- A value without numbers that have a fraction or an exponent and without halves of characters, the integers of which
are not too long and the objects of which have each name once. At most so many arrays and objects stand inside each
other. -/
inductive Plain : (room : Nat) → Json → Prop
  | null {room : Nat} : Plain room .null
  | bool {room : Nat} (b : Bool) : Plain room (.bool b)
  | int {room : Nat} {n : Int} (h : (Text.decimal n.natAbs).length ≤ Text.maxDigits) : Plain room (.int n)
  | string {room : Nat} (t : Text) : Plain room (.ofText t)
  | array {room : Nat} {items : List Json} (h : ∀ v ∈ items, Plain room v) : Plain (room + 1) (.array items)
  | object {room : Nat} {fields : Fields} (hn : fields.names.Nodup) (ht : ∀ n ∈ fields.names, ∃ t, n = Text.runes t)
      (h : ∀ f ∈ fields, Plain room f.2) : Plain (room + 1) (.object fields)

theorem indentedItems_eq_map (level : Nat) (vs : List Json) : indentedItems level vs = vs.map (indentedAt level) := by
  induction vs with
  | nil => rfl
  | cons v vs ih => rw [indentedItems, ih, List.map_cons]

def indentedField (level : Nat) (f : List Rune × Json) : Text := quote f.1 ++ ": " ++ indentedAt level f.2

theorem indentedFields_eq_map (level : Nat) (fs : Fields) : indentedFields level fs = fs.map (indentedField level) := by
  induction fs with
  | nil => rfl
  | cons f fs ih => rw [indentedFields, ih, List.map_cons]; rfl

/-! ### Characters in strings -/

def escapeLetters : List Char := ['"', '\\', 'n', 'r', 't', 'f', 'b']

/-- The forms in which a character stands in a written string. -/
inductive Escaped (c : Char) : Text → Prop where
  | letter {l : Char} (hl : l ∈ escapeLetters) (he : Parser.escape? l = some c) : Escaped c ['\\', l]
  | itself (hq : c ≠ '"') (hb : c ≠ '\\') (hc : 0x20 ≤ c.toNat ∧ c.toNat ≤ 0x7E) : Escaped c [c]
  | unit (hc : c.toNat < 0x10000) : Escaped c (escapeUnit c.toNat)
  | pair {high low : Nat} (hc : 0x10000 ≤ c.toNat) (hs : Rune.splitPair c.toNat = (high, low)) :
      Escaped c (escapeUnit high ++ escapeUnit low)

theorem escaped_escapeRune (c : Char) : Escaped c (escapeRune (.scalar c)) := by
  have hletter {l d : Char} (hd : c.toNat = d.toNat) (hl : l ∈ escapeLetters) (he : Parser.escape? l = some d) :
      Escaped c ['\\', l] :=
    .letter hl (by rw [he, Char.toNat_inj.mp hd])
  unfold escapeRune
  dsimp only [Rune.code]
  -- One case for each letter, in the order of the tests.
  split
  · exact hletter (d := '"') ‹_› (by decide) rfl
  split
  · exact hletter (d := '\\') ‹_› (by decide) rfl
  split
  · exact hletter (d := '\n') ‹_› (by decide) rfl
  split
  · exact hletter (d := '\r') ‹_› (by decide) rfl
  split
  · exact hletter (d := '\t') ‹_› (by decide) rfl
  split
  · exact hletter (d := '\x0c') ‹_› (by decide) rfl
  split
  · exact hletter (d := '\x08') ‹_› (by decide) rfl
  split
  · rename_i hq hb _ _ _ _ _ hrange
    rw [Char.ofNat_toNat]
    exact .itself (fun h => hq (congrArg Char.toNat h)) (fun h => hb (congrArg Char.toNat h)) hrange
  split
  · exact .unit ‹_›
  · rename_i hlarge
    exact .pair (Nat.not_lt.mp hlarge) rfl

namespace Parser

theorem stringBody_escapeUnit {n : Nat} (h : n < 0x10000) (left : Nat) {rest : Text} (hr : rest ≠ []) :
    stringBody left (escapeUnit n ++ rest) = push (.ofCode n) (stringBody left rest) := by
  obtain ⟨c, rest, rfl⟩ := List.exists_cons_of_ne_nil hr
  have hcode : code? (Text.hexDigit (n / 4096)) (Text.hexDigit (n / 256)) (Text.hexDigit (n / 16))
      (Text.hexDigit (n / 1)) = some n := by
    simp only [code?, Text.hexValue?_hexDigit, Option.bind_eq_bind, Option.bind_some, Option.pure_def, Option.some.injEq]
    omega
  show stringBody left ('\\' :: 'u' :: Text.hexDigit (n / 4096) :: Text.hexDigit (n / 256) ::
    Text.hexDigit (n / 16) :: Text.hexDigit (n / 1) :: c :: rest) = _
  rw [stringBody]
  exact hcode

theorem stringBody_escape {c e : Char} (hc : c ≠ 'u') (he : escape? c = some e) (left : Nat) (rest : Text) :
    stringBody left ('\\' :: c :: rest) = push (.scalar e) (stringBody left rest) := by
  rw [stringBody]
  · rw [he]
  all_goals
    intros
    contradiction

theorem stringBody_cons {c : Char} (hq : c ≠ '"') (hb : c ≠ '\\') (hc : 0x20 ≤ c.toNat) (left : Nat) (rest : Text) :
    stringBody left (c :: rest) = push (.scalar c) (stringBody left rest) := by
  have hcontrol : ¬c.toNat ≤ 0x1F := by omega
  rw [stringBody, if_neg hcontrol]
  · exact hq
  all_goals
    intros
    contradiction

theorem pushRune_of_not_isHigh {r : Rune} (h : Rune.isHigh r.code = false) (s : List Rune) :
    pushRune r s = r :: s := by
  unfold pushRune
  split
  · rw [h, if_neg (fun hand => Bool.false_ne_true hand.1)]
  · rfl

theorem pushRune_scalar (c : Char) (s : List Rune) : pushRune (.scalar c) s = .scalar c :: s := by
  refine pushRune_of_not_isHigh ?_ s
  have hc := Rune.toNat_lt_or c
  rw [Bool.eq_false_iff, ne_eq, Rune.isHigh_eq_true_iff]
  show ¬(0xD800 ≤ c.toNat ∧ c.toNat < 0xDC00)
  omega

theorem pushRune_pushRune {c : Char} (h : 0x10000 ≤ c.toNat) {high low : Nat}
    (hs : Rune.splitPair c.toNat = (high, low)) (s : List Rune) :
    pushRune (.ofCode high) (pushRune (.ofCode low) s) = .scalar c :: s := by
  have hhalves := Rune.isHigh_splitPair h
  have hjoin := Rune.joinPair_splitPair h
  rw [hs] at hhalves hjoin
  dsimp only at hhalves hjoin
  have hhigh := Rune.isHigh_eq_true_iff.mp hhalves.1
  have hlow := Rune.isLow_eq_true_iff.mp hhalves.2
  obtain ⟨k, hk, hkcode⟩ := Rune.code_ofCode_surrogate (n := high) (by omega)
  obtain ⟨l, hl, hlcode⟩ := Rune.code_ofCode_surrogate (n := low) (by omega)
  have hnot : Rune.isHigh (Rune.surrogate l).code = false := by
    rw [Bool.eq_false_iff, ne_eq, Rune.isHigh_eq_true_iff, hlcode]
    omega
  rw [← hkcode, ← hlcode] at hhalves
  rw [hk, hl, pushRune_of_not_isHigh hnot, pushRune, if_pos hhalves, hkcode, hlcode, hjoin, Rune.ofCode_toNat]

theorem stringBody_escaped {c : Char} {t : Text} (h : Escaped c t) (left : Nat) {rest : Text} (hr : rest ≠ []) :
    stringBody left (t ++ rest) = push (.scalar c) (stringBody left rest) := by
  cases h with
  | letter hl he =>
    have hletters : 'u' ∉ escapeLetters := by decide
    exact stringBody_escape (fun hu => hletters (hu ▸ hl)) he left rest
  | itself hq hb hc => exact stringBody_cons hq hb hc.1 left rest
  | unit hc => rw [stringBody_escapeUnit hc left hr, Rune.ofCode_toNat]
  | @pair high low hc hs =>
    have hhalves := Rune.isHigh_splitPair hc
    rw [hs, Rune.isHigh_eq_true_iff, Rune.isLow_eq_true_iff] at hhalves
    dsimp only at hhalves
    have hne : escapeUnit low ++ rest ≠ [] := List.append_ne_nil_of_right_ne_nil _ hr
    rw [List.append_assoc, stringBody_escapeUnit (by omega) left hne, stringBody_escapeUnit (by omega) left hr]
    cases stringBody left rest with
    | error stop => rfl
    | ok read =>
      have hpair := pushRune_pushRune hc hs read.1
      simp only [push, Except.map, hpair, pushRune_scalar]

theorem stringBody_runes (t : Text) (left : Nat) (rest : Text) :
    stringBody left (t.runes.flatMap escapeRune ++ '"' :: rest) = .ok (t.runes, rest) := by
  induction t with
  | nil => rfl
  | cons c t ih =>
    have hruns : Text.runes (c :: t) = .scalar c :: Text.runes t := rfl
    have hne : (Text.runes t).flatMap escapeRune ++ '"' :: rest ≠ [] :=
      List.append_ne_nil_of_right_ne_nil _ (List.cons_ne_nil _ _)
    rw [hruns, List.flatMap_cons, List.append_assoc, stringBody_escaped (escaped_escapeRune c) left hne, ih]
    simp only [push, Except.map, pushRune_scalar]

/-! ### Numbers -/

def continuesNumber (c : Char) : Bool := isDigit c || c = '.' || c = 'e' || c = 'E'

theorem isDigit_of_mem_decimal {n : Nat} {c : Char} (h : c ∈ Text.decimal n) : isDigit c = true := by
  have hc := Text.isDigit_of_mem_decimal h
  simp only [Char.isDigit, Bool.and_eq_true, decide_eq_true_eq] at hc
  rw [isDigit, Bool.and_eq_true, decide_eq_true_eq, decide_eq_true_eq]
  exact hc

theorem wholePart?_decimal (n : Nat) {rest : Text} (hr : ∀ c ∈ rest.head?, continuesNumber c = false) :
    wholePart? (Text.decimal n ++ rest) = some (Text.decimal n, rest) := by
  by_cases hn : n = 0
  · rw [hn]
    rfl
  · have hhead := Text.head?_decimal (Nat.pos_of_ne_zero hn)
    have hdigits (c : Char) (hc : c ∈ Text.decimal n) : isDigit c = true := isDigit_of_mem_decimal hc
    have hstop (c : Char) (hc : c ∈ rest.head?) : isDigit c = false := by
      have hc' := hr c hc
      simp only [continuesNumber, Bool.or_eq_false_iff] at hc'
      exact hc'.1.1.1
    cases hd : Text.decimal n with
    | nil => exact absurd hd Nat.toDigits_ne_nil
    | cons d ds =>
      rw [hd] at hhead hdigits
      rw [List.forall_mem_cons] at hdigits
      have hzero : d ≠ '0' := fun he => hhead (congrArg some he)
      rw [List.cons_append, wholePart?, if_pos hdigits.1, Text.takeWhile_append_of_head? hdigits.2 hstop,
        Text.dropWhile_append_of_head? hdigits.2 hstop]
      exact hzero

theorem fraction_eq {rest : Text} (hr : ∀ c ∈ rest.head?, continuesNumber c = false) : fraction rest = ([], rest) := by
  unfold fraction
  split
  · have hc := hr '.' rfl
    cases hc
  · rfl

theorem exponent?_eq_none {rest : Text} (hr : ∀ c ∈ rest.head?, continuesNumber c = false) : exponent? rest = none := by
  cases rest with
  | nil => rfl
  | cons c rest =>
    have hc := hr c rfl
    simp only [continuesNumber, Bool.or_eq_false_iff, decide_eq_false_iff_not] at hc
    have hletter : ¬(c = 'e' ∨ c = 'E') := not_or.mpr ⟨hc.1.2, hc.2⟩
    unfold exponent?
    exact if_neg hletter

theorem exists_decimal_eq_cons (n : Nat) : ∃ d ds, Text.decimal n = d :: ds ∧ isDigit d = true := by
  cases hd : Text.decimal n with
  | nil => exact absurd hd Nat.toDigits_ne_nil
  | cons d ds => exact ⟨d, ds, rfl, isDigit_of_mem_decimal (hd ▸ List.mem_cons_self)⟩

theorem number_decimal {n : Nat} (hn : (Text.decimal n).length ≤ Text.maxDigits) {rest : Text}
    (hr : ∀ c ∈ rest.head?, continuesNumber c = false) :
    number (Text.decimal n ++ rest) = .ok (.int n, rest) := by
  unfold number
  split
  rename_i negative unsigned hs
  split at hs
  · rename_i tail he
    obtain ⟨d, ds, hd, hdigit⟩ := exists_decimal_eq_cons n
    rw [hd, List.cons_append] at he
    cases he
    cases hdigit
  · cases hs
    simp only [wholePart?_decimal n hr, fraction_eq hr, exponent?_eq_none hr, Text.boundedValue_decimal hn]
    rfl

theorem number_minus_decimal {n : Nat} (hn : (Text.decimal n).length ≤ Text.maxDigits) {rest : Text}
    (hr : ∀ c ∈ rest.head?, continuesNumber c = false) :
    number ('-' :: (Text.decimal n ++ rest)) = .ok (.int (-n), rest) := by
  simp only [number, wholePart?_decimal n hr, fraction_eq hr, exponent?_eq_none hr, Text.boundedValue_decimal hn]
  rfl

theorem number_decimalInt {n : Int} (hn : (Text.decimal n.natAbs).length ≤ Text.maxDigits) {rest : Text}
    (hr : ∀ c ∈ rest.head?, continuesNumber c = false) :
    number (Text.decimalInt n ++ rest) = .ok (.int n, rest) := by
  cases n with
  | ofNat n => exact number_decimal hn hr
  | negSucc n => exact number_minus_decimal hn hr

/-! ### Values -/

theorem value_decimalInt (n : Int) (bound room : Nat) (rest : Text) :
    value (bound + 1) room (Text.decimalInt n ++ rest) = number (Text.decimalInt n ++ rest) := by
  cases n with
  | ofNat n =>
    obtain ⟨d, ds, hd, hdigit⟩ := exists_decimal_eq_cons n
    rw [Text.decimalInt, hd, List.cons_append, value]
    all_goals
      intro tail he
      rw [(List.cons.inj he).1] at hdigit
      cases hdigit
  | negSucc n =>
    obtain ⟨d, ds, hd, hdigit⟩ := exists_decimal_eq_cons (n + 1)
    rw [Text.decimalInt, hd, List.cons_append, List.cons_append, value]
    all_goals
      intro tail he
      obtain ⟨hminus, htail⟩ := List.cons.inj he
      first
        | exact absurd hminus (by decide)
        | rw [(List.cons.inj htail).1] at hdigit
          cases hdigit

theorem skipBlanks_breakTo (level : Nat) {t : Text} (ht : ∀ c ∈ t.head?, isBlank c = false) :
    skipBlanks (breakTo level ++ t) = t := by
  refine Text.dropWhile_append_of_head? (fun c hc => ?_) ht
  rcases List.mem_cons.mp hc with rfl | hc
  · rfl
  · rw [List.eq_of_mem_replicate hc]
    rfl

theorem skipBlanks_eq_self {t : Text} (ht : ∀ c ∈ t.head?, isBlank c = false) : skipBlanks t = t :=
  Text.dropWhile_append_of_head? (List.forall_mem_nil (isBlank · = true)) ht

def IsStart (c : Char) : Prop := isBlank c = false ∧ c ≠ ']' ∧ c ≠ '\uFEFF'

theorem isStart_of_isDigit {c : Char} (h : isDigit c = true) : IsStart c := by
  have hne (d : Char) (hd : isDigit d = false) : c ≠ d := by
    rintro rfl
    rw [hd] at h
    cases h
  refine ⟨?_, hne _ rfl, hne _ rfl⟩
  simp only [isBlank, Bool.or_eq_false_iff, decide_eq_false_iff_not]
  exact ⟨⟨⟨hne _ rfl, hne _ rfl⟩, hne _ rfl⟩, hne _ rfl⟩

theorem exists_indentedAt {room : Nat} {v : Json} (h : Plain room v) (level : Nat) :
    ∃ c t, indentedAt level v = c :: t ∧ IsStart c := by
  have hblock (opening closing : Char) (ho : IsStart opening) (ts : List Text) :
      ∃ c t, block level opening closing ts = c :: t ∧ IsStart c := by
    unfold block
    split
    · exact ⟨_, _, rfl, ho⟩
    · exact ⟨_, _, rfl, ho⟩
  cases h with
  | null => exact ⟨'n', _, rfl, by unfold IsStart; decide⟩
  | bool b =>
    cases b with
    | false => exact ⟨'f', _, rfl, by unfold IsStart; decide⟩
    | true => exact ⟨'t', _, rfl, by unfold IsStart; decide⟩
  | @int _ n _ =>
    cases n with
    | ofNat n =>
      obtain ⟨d, ds, hd, hdigit⟩ := exists_decimal_eq_cons n
      exact ⟨d, ds, hd, isStart_of_isDigit hdigit⟩
    | negSucc n => exact ⟨'-', _, rfl, by unfold IsStart; decide⟩
  | string t => exact ⟨'"', _, rfl, by unfold IsStart; decide⟩
  | array _ => exact hblock '[' ']' (by unfold IsStart; decide) _
  | object _ _ _ => exact hblock '{' '}' (by unfold IsStart; decide) _

def Ends (rest : Text) : Prop := ∀ c ∈ rest.head?, continuesNumber c = false

theorem ends_nil : Ends [] := by
  intro c hc
  cases hc

theorem ends_cons {c : Char} (h : continuesNumber c = false) (rest : Text) : Ends (c :: rest) := by
  intro d hd
  cases hd
  exact h

/-- A value is read off its text, whatever ends it. -/
def ReadsBack (room : Nat) (v : Json) : Prop :=
  ∀ level bound rest, Ends rest → 2 * (indentedAt level v ++ rest).length < bound →
    value bound room (indentedAt level v ++ rest) = .ok (v, rest)

theorem readsBack_of_succ {room : Nat} {v : Json}
    (h : ∀ level bound rest, Ends rest → 2 * (indentedAt level v ++ rest).length ≤ bound →
      value (bound + 1) room (indentedAt level v ++ rest) = .ok (v, rest)) : ReadsBack room v := by
  intro level bound rest hr hb
  cases bound with
  | zero => exact absurd hb (Nat.not_lt_zero _)
  | succ bound => exact h level bound rest hr (Nat.le_of_lt_succ hb)

/-- What follows the opening bracket of a block and the first line break, up to the text behind the block. -/
def inBlock (level : Nat) (closing : Char) (pieces : List Text) (rest : Text) : Text :=
  Text.joinWith (',' :: breakTo (level + 1)) pieces ++ (breakTo level ++ closing :: rest)

theorem inBlock_singleton (level : Nat) (closing : Char) (piece rest : Text) :
    inBlock level closing [piece] rest = piece ++ (breakTo level ++ closing :: rest) := by
  rw [inBlock, Text.joinWith, List.intercalate_singleton]

theorem inBlock_cons {level : Nat} {closing : Char} {piece rest : Text} {pieces : List Text} (h : pieces ≠ []) :
    inBlock level closing (piece :: pieces) rest =
      piece ++ ',' :: (breakTo (level + 1) ++ inBlock level closing pieces rest) := by
  rw [inBlock, Text.joinWith, List.intercalate_cons_of_ne_nil h, List.append_assoc, List.append_assoc]
  rfl

theorem block_append {level : Nat} {pieces : List Text} (h : pieces ≠ []) (opening closing : Char) (rest : Text) :
    block level opening closing pieces ++ rest =
      opening :: (breakTo (level + 1) ++ inBlock level closing pieces rest) := by
  rw [block, if_neg h, inBlock]
  simp only [List.cons_append, List.append_assoc, List.nil_append]

theorem head?_inBlock {level : Nat} {closing c : Char} {t rest : Text} {pieces : List Text} :
    (inBlock level closing ((c :: t) :: pieces) rest).head? = some c := by
  cases pieces with
  | nil =>
    rw [inBlock_singleton]
    rfl
  | cons piece pieces =>
    rw [inBlock_cons (List.cons_ne_nil _ _)]
    rfl

theorem isStart_head?_inBlock {room : Nat} {vs : List Json} (hne : vs ≠ []) (hp : ∀ v ∈ vs, Plain room v)
    (level : Nat) (rest : Text) :
    ∀ c ∈ (inBlock level ']' (vs.map (indentedAt (level + 1))) rest).head?, IsStart c := by
  cases vs with
  | nil => exact absurd rfl hne
  | cons v vs =>
    obtain ⟨d, t, hd, hstart⟩ := exists_indentedAt (hp v List.mem_cons_self) (level + 1)
    rw [List.map_cons, hd, head?_inBlock]
    intro c hc
    cases hc
    exact hstart

theorem items_inBlock {room : Nat} {vs : List Json} (hne : vs ≠ []) (hp : ∀ v ∈ vs, Plain room v)
    (hv : ∀ v ∈ vs, ReadsBack room v) {level bound : Nat} {rest : Text}
    (hb : 2 * (inBlock level ']' (vs.map (indentedAt (level + 1))) rest).length + 2 ≤ bound) :
    items bound room (inBlock level ']' (vs.map (indentedAt (level + 1))) rest) = .ok (vs, rest) := by
  -- The bound falls by one for each value, the text by the comma at least, so twice the text stays below the bound.
  induction vs generalizing bound with
  | nil => exact absurd rfl hne
  | cons v vs ih =>
    rw [List.forall_mem_cons] at hp hv
    obtain ⟨bound, rfl⟩ : ∃ b, bound = b + 1 := ⟨bound - 1, by omega⟩
    by_cases hvs : vs = []
    · subst hvs
      rw [List.map_cons, List.map_nil, inBlock_singleton] at hb ⊢
      rw [items, hv.1 (level + 1) bound (breakTo level ++ ']' :: rest) (ends_cons rfl _) (by omega)]
      dsimp only
      rw [skipBlanks_breakTo level (by intro c hc; cases hc; rfl)]
      rfl
    · rw [List.map_cons, inBlock_cons (mt List.map_eq_nil_iff.mp hvs)] at hb ⊢
      have hstart := isStart_head?_inBlock hvs hp.2 level rest
      have hlength : 2 * (inBlock level ']' (vs.map (indentedAt (level + 1))) rest).length + 2 ≤ bound := by
        simp only [List.length_append, List.length_cons] at hb
        omega
      have hrest := ih hvs hp.2 hv.2 hlength
      generalize inBlock level ']' (vs.map (indentedAt (level + 1))) rest = tail at hb hstart hrest ⊢
      rw [items, hv.1 (level + 1) bound (',' :: (breakTo (level + 1) ++ tail)) (ends_cons rfl _) (by omega)]
      dsimp only
      rw [skipBlanks_eq_self (by intro c hc; cases hc; rfl)]
      show (items bound room (skipBlanks (breakTo (level + 1) ++ tail))).map _ = _
      rw [skipBlanks_breakTo (level + 1) (fun c hc => (hstart c hc).1), hrest]
      rfl

theorem fields_indentedField {room : Nat} {v : Json} (hv : ReadsBack room v) (hp : Plain room v) (t : Text)
    {level bound : Nat} {rest next : Text} {c : Char} (hc : continuesNumber c = false) (hs : skipBlanks rest = c :: next)
    (hr : Ends rest) (before : Fields) (hb : 2 * (indentedField level (t.runes, v) ++ rest).length ≤ bound) :
    (c = '}' → fields (bound + 1) room before (indentedField level (t.runes, v) ++ rest) =
        .ok (before.insert t.runes v, next)) ∧
      (c = ',' → fields (bound + 1) room before (indentedField level (t.runes, v) ++ rest) =
        fields bound room (before.insert t.runes v) (skipBlanks next)) := by
  have htext : indentedField level (t.runes, v) ++ rest =
      '"' :: (t.runes.flatMap escapeRune ++ '"' :: ':' :: ' ' :: (indentedAt level v ++ rest)) := by
    simp only [indentedField, quote, List.append_assoc, List.cons_append]
    rfl
  have hstart : ∀ c ∈ (indentedAt level v ++ rest).head?, isBlank c = false := by
    obtain ⟨d, tail, hd, hstart⟩ := exists_indentedAt hp level
    rw [hd]
    intro c hc
    cases hc
    exact hstart.1
  have hblank : skipBlanks (' ' :: (indentedAt level v ++ rest)) = indentedAt level v ++ rest :=
    skipBlanks_eq_self hstart
  have hcolon : skipBlanks (':' :: ' ' :: (indentedAt level v ++ rest)) = ':' :: ' ' :: (indentedAt level v ++ rest) :=
    skipBlanks_eq_self (by intro c hc; cases hc; rfl)
  rw [htext] at hb ⊢
  have hread := hv level bound rest hr (by
    simp only [List.length_append, List.length_cons] at hb ⊢
    omega)
  constructor
  · rintro rfl
    simp only [fields, stringBody_runes, hcolon, hblank, hread, hs]
  · rintro rfl
    simp only [fields, stringBody_runes, hcolon, hblank, hread, hs]

theorem head?_inBlock_indentedField (level : Nat) {fs : Fields} (hne : fs ≠ []) (rest : Text) :
    (inBlock level '}' (fs.map (indentedField (level + 1))) rest).head? = some '"' := by
  cases fs with
  | nil => exact absurd rfl hne
  | cons f fs => exact head?_inBlock

theorem fields_inBlock {room : Nat} {fs : Fields} (hne : fs ≠ []) (ht : ∀ n ∈ fs.names, ∃ t, n = Text.runes t)
    (hp : ∀ f ∈ fs, Plain room f.2) (hv : ∀ f ∈ fs, ReadsBack room f.2) {level bound : Nat} {rest : Text}
    {before : Fields} (hn : (before ++ fs).names.Nodup)
    (hb : 2 * (inBlock level '}' (fs.map (indentedField (level + 1))) rest).length + 2 ≤ bound) :
    fields bound room before (inBlock level '}' (fs.map (indentedField (level + 1))) rest) =
      .ok (before ++ fs, rest) := by
  -- The fields that were read stand in `before`. Each name is new there, so its field goes to the end.
  induction fs generalizing bound before with
  | nil => exact absurd rfl hne
  | cons f fs ih =>
    obtain ⟨name, v⟩ := f
    rw [List.forall_mem_cons] at hp hv
    obtain ⟨t, rfl⟩ := ht name List.mem_cons_self
    have hvalue : ReadsBack room v := hv.1
    have hplain : Plain room v := hp.1
    have hinsert : before.insert t.runes v = before ++ [(t.runes, v)] := by
      refine Fields.insert_of_not_mem (fun hmem => ?_) v
      rw [Fields.names, List.map_append, List.nodup_append] at hn
      exact hn.2.2 _ hmem _ List.mem_cons_self rfl
    obtain ⟨bound, rfl⟩ : ∃ b, bound = b + 1 := ⟨bound - 1, by omega⟩
    by_cases hfs : fs = []
    · subst hfs
      rw [List.map_cons, List.map_nil, inBlock_singleton] at hb ⊢
      have hclose : skipBlanks (breakTo level ++ '}' :: rest) = '}' :: rest :=
        skipBlanks_breakTo level (by intro c hc; cases hc; rfl)
      rw [(fields_indentedField hvalue hplain t rfl hclose (ends_cons rfl _) before (by omega)).1 rfl, hinsert]
    · rw [List.map_cons, inBlock_cons (mt List.map_eq_nil_iff.mp hfs)] at hb ⊢
      have hhead := head?_inBlock_indentedField level hfs rest
      have hnames : ((before ++ [(t.runes, v)]) ++ fs).names.Nodup := by rwa [List.append_assoc]
      have hlength : 2 * (inBlock level '}' (fs.map (indentedField (level + 1))) rest).length + 2 ≤ bound := by
        simp only [List.length_append, List.length_cons] at hb
        omega
      have hrest := ih hfs (fun n hn => ht n (List.mem_cons_of_mem _ hn)) hp.2 hv.2 hnames hlength
      generalize inBlock level '}' (fs.map (indentedField (level + 1))) rest = tail at hb hhead hrest ⊢
      have hcomma : skipBlanks (',' :: (breakTo (level + 1) ++ tail)) = ',' :: (breakTo (level + 1) ++ tail) :=
        skipBlanks_eq_self (by intro c hc; cases hc; rfl)
      have hquote : skipBlanks (breakTo (level + 1) ++ tail) = tail :=
        skipBlanks_breakTo (level + 1) (by rw [hhead]; intro c hc; cases hc; rfl)
      rw [(fields_indentedField hvalue hplain t rfl hcomma (ends_cons rfl _) before (by omega)).2 rfl, hinsert, hquote,
        hrest, List.append_assoc]
      rfl

theorem value_bracket {bound room : Nat} {text tail : Text} (hs : skipBlanks text = tail)
    (hne : tail.head? ≠ some ']') :
    value (bound + 1) (room + 1) ('[' :: text) = (items bound room tail).map fun r => (.array r.1, r.2) := by
  simp only [value, hs]
  split
  · rename_i hroom
    cases hroom
  · exact absurd rfl hne
  · rename_i hroom _
    cases hroom
    rfl

theorem value_brace {bound room : Nat} {text tail : Text} (hs : skipBlanks text = tail)
    (hne : tail.head? ≠ some '}') :
    value (bound + 1) (room + 1) ('{' :: text) = (fields bound room [] tail).map fun r => (.object r.1, r.2) := by
  simp only [value, hs]
  split
  · rename_i hroom
    cases hroom
  · exact absurd rfl hne
  · rename_i hroom _
    cases hroom
    rfl

theorem readsBack_array {room : Nat} {vs : List Json} (hp : ∀ v ∈ vs, Plain room v)
    (hv : ∀ v ∈ vs, ReadsBack room v) : ReadsBack (room + 1) (.array vs) := by
  refine readsBack_of_succ fun level bound rest _ hb => ?_
  by_cases hne : vs = []
  · subst hne
    rfl
  · have hmap : vs.map (indentedAt (level + 1)) ≠ [] := mt List.map_eq_nil_iff.mp hne
    have hstart := isStart_head?_inBlock hne hp level rest
    have hskip := skipBlanks_breakTo (level + 1) fun c hc => (hstart c hc).1
    have hbracket := fun he => (hstart ']' he).2.1 rfl
    rw [indentedAt, indentedItems_eq_map, block_append hmap] at hb ⊢
    rw [value_bracket hskip hbracket, items_inBlock hne hp hv]
    · rfl
    · simp only [List.length_append, List.length_cons] at hb
      omega

theorem readsBack_object {room : Nat} {fs : Fields} (hn : fs.names.Nodup)
    (ht : ∀ n ∈ fs.names, ∃ t, n = Text.runes t) (hp : ∀ f ∈ fs, Plain room f.2)
    (hv : ∀ f ∈ fs, ReadsBack room f.2) : ReadsBack (room + 1) (.object fs) := by
  refine readsBack_of_succ fun level bound rest _ hb => ?_
  by_cases hne : fs = []
  · subst hne
    rfl
  · have hmap : fs.map (indentedField (level + 1)) ≠ [] := mt List.map_eq_nil_iff.mp hne
    have hhead := head?_inBlock_indentedField level hne rest
    have hskip := skipBlanks_breakTo (level + 1) (t := inBlock level '}' (fs.map (indentedField (level + 1))) rest) (by
      rw [hhead]
      intro c hc
      cases hc
      rfl)
    have hbrace : (inBlock level '}' (fs.map (indentedField (level + 1))) rest).head? ≠ some '}' := by
      rw [hhead]
      decide
    rw [indentedAt, indentedFields_eq_map, block_append hmap] at hb ⊢
    have hnames : (Fields.names ([] ++ fs)).Nodup := hn
    rw [value_brace hskip hbrace, fields_inBlock hne ht hp hv hnames]
    · rfl
    · simp only [List.length_append, List.length_cons] at hb
      omega

theorem readsBack_of_plain {room : Nat} {v : Json} (h : Plain room v) : ReadsBack room v := by
  induction h with
  | null => exact readsBack_of_succ fun level bound rest _ _ => rfl
  | bool b =>
    refine readsBack_of_succ fun level bound rest _ _ => ?_
    cases b <;> rfl
  | @int room n hn =>
    refine readsBack_of_succ fun level bound rest hr _ => ?_
    exact (value_decimalInt n bound room rest).trans (number_decimalInt hn hr)
  | @string room t =>
    refine readsBack_of_succ fun level bound rest _ _ => ?_
    have htext : indentedAt level (.ofText t) ++ rest = '"' :: (t.runes.flatMap escapeRune ++ '"' :: rest) := by
      show quote t.runes ++ rest = _
      rw [quote, List.append_assoc]
      rfl
    rw [htext, value, stringBody_runes]
    rfl
  | array h ih => exact readsBack_array h ih
  | object hn ht h ih => exact readsBack_object hn ht h ih

theorem document_indented {room : Nat} {v : Json} (h : Plain room v) : document room (indented v) = .ok v := by
  have hlength : 2 * (indentedAt 0 v ++ []).length < 2 * (indented v).length + 2 := by
    rw [List.append_nil]
    exact Nat.lt_succ_of_lt (Nat.lt_succ_self _)
  have hread := readsBack_of_plain h 0 (2 * (indented v).length + 2) [] ends_nil hlength
  obtain ⟨c, t, htext, hstart⟩ := exists_indentedAt h 0
  rw [List.append_nil, ← indented] at hread
  rw [← indented] at htext
  have hskip : skipBlanks (indented v) = indented v := by
    refine skipBlanks_eq_self fun d hd => ?_
    rw [htext] at hd
    cases hd
    exact hstart.1
  unfold document
  split
  · rename_i tail he
    rw [htext] at he
    exact absurd (List.cons.inj he).1 hstart.2.2
  · rw [hskip, hread]
    rfl

end Parser

/-- A plain value is read back from its text. -/
theorem parse_indented {room : Nat} {v : Json} (h : Plain room v) : parse room (indented v) = .ok v := by
  rw [parse, Parser.document_indented h]

/-! ### Written characters -/

def IsWritten (c : Char) : Prop := c = '\n' ∨ 0x20 ≤ c.toNat ∧ c.toNat ≤ 0x7E

instance (c : Char) : Decidable (IsWritten c) := inferInstanceAs (Decidable (_ ∨ _))

theorem isWritten_hexDigit (n : Nat) : IsWritten (Text.hexDigit n) := by
  have hdigits : ∀ d < 16, IsWritten (Nat.digitChar d) := by decide
  exact hdigits (n % 16) (Nat.mod_lt n (by decide))

theorem isWritten_escapeUnit (n : Nat) : ∀ c ∈ escapeUnit n, IsWritten c := by
  have htext : escapeUnit n = ['\\', 'u', Text.hexDigit (n / 4096), Text.hexDigit (n / 256), Text.hexDigit (n / 16),
    Text.hexDigit (n / 1)] := rfl
  rw [htext]
  simp only [List.forall_mem_cons, isWritten_hexDigit, true_and]
  exact ⟨by decide, by decide, List.forall_mem_nil _⟩

theorem isWritten_of_all {t : Text} (h : (t.all fun c => decide (IsWritten c)) = true) : ∀ c ∈ t, IsWritten c :=
  fun c hc => of_decide_eq_true (List.all_eq_true.mp h c hc)

theorem isWritten_escaped {c : Char} {t : Text} (h : Escaped c t) : ∀ d ∈ t, IsWritten d := by
  cases h with
  | letter hl he =>
    have hletters : ∀ l ∈ escapeLetters, IsWritten l := isWritten_of_all (by decide)
    rw [List.forall_mem_cons, List.forall_mem_singleton]
    exact ⟨by decide, hletters _ hl⟩
  | itself hq hb hc => exact List.forall_mem_singleton.mpr (.inr hc)
  | unit hc => exact isWritten_escapeUnit _
  | pair hc hs => exact List.forall_mem_append.mpr ⟨isWritten_escapeUnit _, isWritten_escapeUnit _⟩

theorem isWritten_quote (t : Text) : ∀ c ∈ quote t.runes, IsWritten c := by
  have hquote : IsWritten '"' := by decide
  have hruns : ∀ c ∈ t.runes.flatMap escapeRune, IsWritten c := by
    intro c hc
    obtain ⟨r, hr, hc⟩ := List.mem_flatMap.mp hc
    obtain ⟨d, -, rfl⟩ := List.mem_map.mp hr
    exact isWritten_escaped (escaped_escapeRune d) c hc
  rw [quote, List.cons_append, List.forall_mem_cons, List.forall_mem_append, List.forall_mem_singleton]
  exact ⟨hquote, hruns, hquote⟩

theorem isWritten_breakTo (level : Nat) : ∀ c ∈ breakTo level, IsWritten c := by
  rw [breakTo, List.forall_mem_cons]
  refine ⟨.inl rfl, fun c hc => ?_⟩
  rw [List.eq_of_mem_replicate hc]
  decide

theorem isWritten_block {level : Nat} {opening closing : Char} (ho : IsWritten opening) (hc : IsWritten closing)
    {pieces : List Text} (h : ∀ piece ∈ pieces, ∀ c ∈ piece, IsWritten c) :
    ∀ c ∈ block level opening closing pieces, IsWritten c := by
  have hbetween : ∀ c ∈ ',' :: breakTo (level + 1), IsWritten c :=
    List.forall_mem_cons.mpr ⟨by decide, isWritten_breakTo _⟩
  have hjoined : ∀ c ∈ Text.joinWith (',' :: breakTo (level + 1)) pieces, IsWritten c := by
    intro c hc
    rcases Text.mem_joinWith hc with hc | ⟨piece, hp, hc⟩
    · exact hbetween c hc
    · exact h piece hp c hc
  unfold block
  split
  · exact List.forall_mem_cons.mpr ⟨ho, List.forall_mem_singleton.mpr hc⟩
  · simp only [List.forall_mem_append, List.forall_mem_cons, List.cons_append]
    exact ⟨ho, ⟨⟨isWritten_breakTo _, hjoined⟩, isWritten_breakTo _⟩, hc, List.forall_mem_nil _⟩

theorem isWritten_decimalInt (n : Int) : ∀ c ∈ Text.decimalInt n, IsWritten c := by
  have hdecimal (m : Nat) : ∀ c ∈ Text.decimal m, IsWritten c := by
    intro c hc
    have hdigit := Text.isDigit_of_mem_decimal hc
    simp only [Char.isDigit, Bool.and_eq_true, decide_eq_true_eq] at hdigit
    have hzero : 0x30 ≤ c.toNat := hdigit.1
    have hnine : c.toNat ≤ 0x39 := hdigit.2
    exact .inr (by omega)
  cases n with
  | ofNat n => exact hdecimal n
  | negSucc n => exact List.forall_mem_cons.mpr ⟨by decide, hdecimal (n + 1)⟩

theorem isWritten_indentedAt {room : Nat} {v : Json} (h : Plain room v) (level : Nat) :
    ∀ c ∈ indentedAt level v, IsWritten c := by
  induction h generalizing level with
  | null =>
    have hword : ∀ c ∈ compact .null, IsWritten c := isWritten_of_all (by decide)
    exact hword
  | bool b =>
    have hwords : ∀ b : Bool, ((compact (.bool b)).all fun c => decide (IsWritten c)) = true := by decide
    exact isWritten_of_all (hwords b)
  | int _ => exact isWritten_decimalInt _
  | string t => exact isWritten_quote t
  | array _ ih =>
    rw [indentedAt, indentedItems_eq_map]
    refine isWritten_block (by decide) (by decide) fun piece hp => ?_
    obtain ⟨v, hv, rfl⟩ := List.mem_map.mp hp
    exact ih v hv (level + 1)
  | object _ ht _ ih =>
    rw [indentedAt, indentedFields_eq_map]
    refine isWritten_block (by decide) (by decide) fun piece hp => ?_
    obtain ⟨f, hf, rfl⟩ := List.mem_map.mp hp
    obtain ⟨t, hname⟩ := ht f.1 (List.mem_map_of_mem hf)
    have hcolon : ∀ c ∈ (": " : Text), IsWritten c := isWritten_of_all (by decide)
    rw [indentedField, hname, List.forall_mem_append, List.forall_mem_append]
    exact ⟨⟨isWritten_quote t, hcolon⟩, ih f hf (level + 1)⟩

/-- A plain value is written without carriage returns, so that reading a file changes none of its line ends. -/
theorem normalizeNewlines_indented {room : Nat} {v : Json} (h : Plain room v) :
    (indented v).normalizeNewlines = indented v :=
  Text.normalizeNewlines_eq_self fun hc => absurd (isWritten_indentedAt h 0 _ hc) (by decide)

end DisasmLens.Json
