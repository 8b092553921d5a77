import DisasmLens.Markup.Line
import DisasmLens.Proofs.WordSearch

/-!
# The patterns of the word classes

Mnemonics, sizes, numbers and registers as patterns, alternative by alternative. A word is a member of a class if the
pattern of the class matches all of it (`Token.isMnemonic_iff`, `Token.isSize_iff`, `Token.isNumber_iff`,
`Token.isRegister_iff`), and the spans of the operands are the matches of the four patterns between word boundaries and
those of the pattern of a symbol reference (`Markup.operandSpans_eq_search`).
-/

namespace DisasmLens

open Text (isWord foldChar foldCase)

namespace Pattern

variable {fold : Char → Char}

/-! ### Finite patterns and stems -/

/-- The texts of a pattern are those of a list. -/
def hasTexts (p : Pattern) (us : List Text) : Bool := p.texts?.any fun ts => ts.all us.contains && us.all ts.contains

theorem accepts_iff_of_hasTexts {p : Pattern} {us : List Text} (h : p.hasTexts us = true) {t : Text} :
    p.Accepts fold t ↔ t.map fold ∈ us := by
  obtain ⟨ts, hts, hsame⟩ := (Option.any_eq_true _ _).mp h
  rw [Bool.and_eq_true, List.all_eq_true, List.all_eq_true] at hsame
  rw [accepts_iff_of_texts? hts]
  exact ⟨fun ht => List.contains_iff_mem.mp (hsame.1 _ ht), fun ht => List.contains_iff_mem.mp (hsame.2 _ ht)⟩

theorem accepts_stem_iff {s t : Text} {q : Pattern} :
    (text s ++ q).Accepts fold t ↔ (t.map fold).take s.length = s ∧ q.Accepts fold (t.drop s.length) := by
  constructor
  · rintro ⟨u, v, rfl, rfl, hv⟩
    rw [List.length_map, List.drop_left, List.map_append, ← List.length_map fold, List.take_left]
    exact ⟨rfl, hv⟩
  · rintro ⟨htake, hq⟩
    rw [← List.map_take] at htake
    exact ⟨t.take s.length, t.drop s.length, (List.take_append_drop _ t).symm, htake, hq⟩

theorem accepts_anyOf_append {ps qs : List Pattern} {t : Text} :
    (anyOf (ps ++ qs)).Accepts fold t ↔ (anyOf ps).Accepts fold t ∨ (anyOf qs).Accepts fold t := by
  simp only [accepts_anyOf, List.mem_append, or_and_right, exists_or]

theorem accepts_anyOf_cons {p : Pattern} {ps : List Pattern} {t : Text} :
    (anyOf (p :: ps)).Accepts fold t ↔ p.Accepts fold t ∨ (anyOf ps).Accepts fold t := Iff.rfl

theorem accepts_anyOf_nil {t : Text} : ¬(anyOf []).Accepts fold t := by
  simp [accepts_anyOf]

theorem accepts_manyWord_iff {t : Text} (h : ∀ c ∈ t, isWord c = true) : (many .word).Accepts fold t ↔ 0 < t.length := by
  rw [List.length_pos_iff]
  exact and_iff_left h

theorem accepts_wordOrTwo_iff {t : Text} (h : ∀ c ∈ t, isWord c = true) :
    (one .word ++ opt (one .word)).Accepts fold t ↔ t.length = 1 ∨ t.length = 2 := by
  constructor
  · rintro ⟨_, _, rfl, ⟨c, rfl, -⟩, ⟨d, rfl, -⟩ | rfl⟩
    · exact .inr rfl
    · exact .inl rfl
  · rintro (hlength | hlength)
    · obtain ⟨c, rfl⟩ := List.length_eq_one_iff.mp hlength
      exact ⟨[c], [], rfl, ⟨c, rfl, h c List.mem_cons_self⟩, .inr rfl⟩
    · obtain ⟨c, d, rfl⟩ : ∃ c d, t = [c, d] := by
        match t, hlength with
        | [c, d], _ => exact ⟨c, d, rfl⟩
      exact ⟨[c], [d], rfl, ⟨c, rfl, h c List.mem_cons_self⟩,
        .inl ⟨d, rfl, h d (List.mem_cons_of_mem c List.mem_cons_self)⟩⟩

/-! ### Patterns of words -/

def CharClass.isWordClass : CharClass → Bool
  | .among cs => cs.all isWord
  | .except _ => false
  | .word => true

def takesLetters : Pattern → Bool
  | text s => s.all isWord
  | one k => CharClass.isWordClass k
  | many k => CharClass.isWordClass k
  | next p q => p.takesLetters && q.takesLetters
  | either p q => p.takesLetters && q.takesLetters
  | opt p => p.takesLetters

def isNullable : Pattern → Bool
  | text s => s.isEmpty
  | one _ => false
  | many _ => false
  | next p q => p.isNullable && q.isNullable
  | either p q => p.isNullable || q.isNullable
  | opt _ => true

theorem isNullable_of_accepts {p : Pattern} (h : p.Accepts fold []) : p.isNullable = true := by
  induction p with
  | text s =>
    cases (h : [] = s)
    rfl
  | one k =>
    obtain ⟨c, hc, -⟩ := h
    cases hc
  | many k => exact absurd rfl h.1
  | next p q ihp ihq =>
    obtain ⟨u, v, huv, hu, hv⟩ := h
    obtain ⟨rfl, rfl⟩ := List.append_eq_nil_iff.mp huv.symm
    exact Bool.and_eq_true_iff.mpr ⟨ihp hu, ihq hv⟩
  | either p q ihp ihq => exact Bool.or_eq_true_iff.mpr (h.imp ihp ihq)
  | opt p => rfl

variable (hfold : ∀ c, isWord (fold c) = true → isWord c = true)
include hfold

theorem isWord_of_has {k : CharClass} (hk : CharClass.isWordClass k = true) {c : Char} (h : k.has fold c = true) :
    isWord c = true := by
  cases k with
  | among cs => exact hfold c (List.all_eq_true.mp hk _ (List.contains_iff_mem.mp h))
  | except cs => cases hk
  | word => exact h

theorem isWord_of_accepts {p : Pattern} (hp : p.takesLetters = true) {t : Text} (h : p.Accepts fold t) :
    ∀ c ∈ t, isWord c = true := by
  induction p generalizing t with
  | text s =>
    intro c hc
    obtain rfl : t.map fold = s := h
    exact hfold c (List.all_eq_true.mp hp _ (List.mem_map_of_mem hc))
  | one k =>
    obtain ⟨c, rfl, hc⟩ := h
    exact List.forall_mem_singleton.mpr (isWord_of_has hfold hp hc)
  | many k => exact fun c hc => isWord_of_has hfold hp (h.2 c hc)
  | next p q ihp ihq =>
    obtain ⟨u, v, rfl, hu, hv⟩ := h
    obtain ⟨hp, hq⟩ := Bool.and_eq_true_iff.mp hp
    exact List.forall_mem_append.mpr ⟨ihp hp hu, ihq hq hv⟩
  | either p q ihp ihq =>
    obtain ⟨hp, hq⟩ := Bool.and_eq_true_iff.mp hp
    exact h.elim (ihp hp) (ihq hq)
  | opt p ih =>
    rcases h with h | rfl
    · exact ih hp h
    · exact List.forall_mem_nil _

theorem matchesWords_of {p : Pattern} (hp : p.takesLetters = true) (hnull : p.isNullable = false) :
    p.MatchesWords fold := by
  intro t ht
  refine ⟨?_, isWord_of_accepts hfold hp ht⟩
  rintro rfl
  rw [isNullable_of_accepts ht] at hnull
  cases hnull

end Pattern

theorem Text.isWord_of_isWord_foldChar (c : Char) (h : isWord (foldChar c) = true) : isWord c = true := by
  unfold foldChar at h
  split at h
  · rename_i hi
    rcases hi with rfl | rfl <;> decide +kernel
  split at h
  · rename_i hs
    subst hs
    decide +kernel
  split at h
  · rename_i hk
    subst hk
    decide +kernel
  by_cases hcap : c.val ≥ 'A'.val ∧ c.val ≤ 'Z'.val
  · have hascii : c.toNat < 0x80 := by
      have hZ : c.toNat ≤ 90 := hcap.2
      omega
    have hupper : c.isUpper = true := decide_eq_true hcap
    have hletter : c.isAlpha = true := Bool.or_eq_true_iff.mpr (.inl hupper)
    have halphanum : c.isAlphanum = true := Bool.or_eq_true_iff.mpr (.inl hletter)
    rw [isWord, if_pos hascii, halphanum]
    rfl
  · have hsame : c.toLower = c := dif_neg hcap
    rwa [hsame] at h

namespace Token

open Pattern

/-! ### Mnemonics -/

def wordMnemonics : List Pattern :=
  [word "mov" ++ opt (word "s") ++ opt (oneOf "xzbwdq"), word "movabs", word "lea", word "add", word "sub", word "imul",
   word "idiv", word "mul", word "div", word "inc", word "dec", word "neg",
   word "cmp", word "test", word "and", word "or", word "xor", word "not", word "shl", word "shr", word "sar",
   word "sal", word "jmp", word "je", word "jne", word "jz", word "jnz", word "jg", word "jge", word "jl", word "jle", word "ja",
   word "jae", word "jb", word "jbe",
   word "call", word "ret", word "push", word "pop", word "nop", word "int" ++ opt (word "3"), word "syscall",
   word "leave", word "enter", word "endbr64"]

def familyMnemonics : List Pattern :=
  [word "cmov" ++ many .word, word "set" ++ (one .word ++ opt (one .word)), word "cvt" ++ many .word]

def scalarMnemonics : List Pattern :=
  ["movs", "adds", "subs", "muls", "divs"].map fun stem => word stem ++ oneOf "sd"

def mnemonicPattern : Pattern := anyOf (wordMnemonics ++ familyMnemonics ++ scalarMnemonics)

theorem isMnemonic_iff {w : Text} (h : ∀ c ∈ w, isWord c = true) :
    isMnemonic w = true ↔ mnemonicPattern.Accepts foldChar w := by
  have hfinite : (anyOf wordMnemonics).Accepts foldChar w ∨ (anyOf scalarMnemonics).Accepts foldChar w ↔
      foldCase w ∈ mnemonics := by
    rw [← accepts_anyOf_append]
    exact accepts_iff_of_hasTexts (by decide +kernel)
  have hdrop (n : Nat) : ∀ c ∈ w.drop n, isWord c = true := fun c hc => h c (List.mem_of_mem_drop hc)
  have hlength : (foldCase w).length = w.length := List.length_map _
  have hcmov : (word "cmov" ++ many .word).Accepts foldChar w ↔
      (foldCase w).take 4 = "cmov".toList ∧ 4 < w.length := by
    rw [word, accepts_stem_iff, accepts_manyWord_iff (hdrop _), List.length_drop, Nat.sub_pos_iff_lt]
    rfl
  have hcvt : (word "cvt" ++ many .word).Accepts foldChar w ↔
      (foldCase w).take 3 = "cvt".toList ∧ 3 < w.length := by
    rw [word, accepts_stem_iff, accepts_manyWord_iff (hdrop _), List.length_drop, Nat.sub_pos_iff_lt]
    rfl
  have hset : (word "set" ++ (one .word ++ opt (one .word))).Accepts foldChar w ↔
      (foldCase w).take 3 = "set".toList ∧ (w.length = 4 ∨ w.length = 5) := by
    have hrest : w.length - 3 = 1 ∨ w.length - 3 = 2 ↔ w.length = 4 ∨ w.length = 5 := by omega
    rw [word, accepts_stem_iff, accepts_wordOrTwo_iff (hdrop _), List.length_drop, ← hrest]
    rfl
  rw [mnemonicPattern, accepts_anyOf_append, accepts_anyOf_append, or_right_comm, hfinite, familyMnemonics,
    accepts_anyOf_cons, accepts_anyOf_cons, accepts_anyOf_cons, hcmov, hset, hcvt, or_iff_left accepts_anyOf_nil]
  simp only [isMnemonic, hlength, Bool.or_eq_true, Bool.and_eq_true, decide_eq_true_eq, List.contains_iff_mem, or_assoc]
  exact or_congr_right (or_congr_right or_comm)

/-! ### Sizes and numbers -/

def sizePattern : Pattern :=
  anyOf [word "DWORD", word "QWORD", word "WORD", word "BYTE", word "XMMWORD", word "YMMWORD", word "PTR"]

theorem isSize_iff {w : Text} : isSize w = true ↔ sizePattern.Accepts id w := by
  have hfinite : sizePattern.hasTexts sizes = true := by decide +kernel
  rw [accepts_iff_of_hasTexts hfinite, List.map_id, isSize, List.contains_iff_mem]

def digits : Text := "0123456789".toList

def hexDigits : Text := "0123456789abcdefABCDEF".toList

def numberPattern : Pattern := either (word "0x" ++ many (.among hexDigits)) (many (.among digits))

/-- Classes of ASCII characters are compared one code after the other. -/
theorem contains_eq_of_ascii {cs : Text} {has : Char → Bool}
    (hsame : ∀ n < 128, cs.contains (Char.ofNat n) = has (Char.ofNat n)) (hcs : cs.all (·.toNat < 128) = true)
    (hhas : ∀ c, has c = true → c.toNat < 128) (c : Char) : cs.contains c = has c := by
  by_cases hc : c.toNat < 128
  · rw [← Char.ofNat_toNat c]
    exact hsame _ hc
  · rw [Bool.eq_iff_iff, List.contains_iff_mem]
    exact ⟨fun h => absurd (of_decide_eq_true (List.all_eq_true.mp hcs c h)) hc, fun h => absurd (hhas c h) hc⟩

theorem contains_digits (c : Char) : digits.contains c = isDigit c := by
  have hsame : ∀ n < 128, digits.contains (Char.ofNat n) = isDigit (Char.ofNat n) := by decide +kernel
  refine contains_eq_of_ascii hsame (by decide +kernel) (fun c hc => ?_) c
  have hle : c.toNat ≤ 57 := (of_decide_eq_true (Bool.and_eq_true_iff.mp hc).2 : c ≤ '9')
  omega

theorem contains_hexDigits (c : Char) : hexDigits.contains c = (Text.hexValue? c).isSome := by
  have hsame : ∀ n < 128, hexDigits.contains (Char.ofNat n) = (Text.hexValue? (Char.ofNat n)).isSome := by
    decide +kernel
  refine @contains_eq_of_ascii _ (fun c => (Text.hexValue? c).isSome) hsame (by decide +kernel) (fun c hc => ?_) c
  simp only [Text.hexValue?] at hc
  split at hc
  · have hle : c.toNat ≤ 57 := ‹_ ∧ c ≤ '9'›.2
    omega
  split at hc
  · have hle : c.toNat ≤ 102 := ‹_ ∧ c ≤ 'f'›.2
    omega
  split at hc
  · have hle : c.toNat ≤ 70 := ‹_ ∧ c ≤ 'F'›.2
    omega
  · cases hc

theorem accepts_manyDigits_iff {fold : Char → Char} {w : Text} :
    (many (.among digits)).Accepts fold w ↔ w ≠ [] ∧ ∀ c ∈ w, isDigit (fold c) = true := by
  simp only [Accepts, CharClass.has, contains_digits]

theorem isNumber_iff {w : Text} : isNumber w = true ↔ numberPattern.Accepts id w := by
  have hhex : (word "0x" ++ many (.among hexDigits)).Accepts id w ↔
      w.take 2 = ['0', 'x'] ∧ w.drop 2 ≠ [] ∧ ∀ c ∈ w.drop 2, (Text.hexValue? c).isSome = true := by
    rw [word, accepts_stem_iff, List.map_id]
    simp only [Accepts, CharClass.has, contains_hexDigits]
    rfl
  have hpattern : numberPattern.Accepts id w ↔
      (w.take 2 = ['0', 'x'] ∧ w.drop 2 ≠ [] ∧ ∀ c ∈ w.drop 2, (Text.hexValue? c).isSome = true) ∨
        w ≠ [] ∧ ∀ c ∈ w, isDigit c = true := or_congr hhex accepts_manyDigits_iff
  rw [hpattern]
  unfold isNumber
  split
  · rename_i d rest
    have hx : ¬∀ c ∈ '0' :: 'x' :: d :: rest, isDigit c = true := fun h =>
      absurd (h 'x' (List.mem_cons_of_mem _ List.mem_cons_self)) (by decide)
    rw [or_iff_left fun h => hx h.2]
    simp
  · rename_i hnot
    have hstem : ¬(w.take 2 = ['0', 'x'] ∧ w.drop 2 ≠ [] ∧ ∀ c ∈ w.drop 2, (Text.hexValue? c).isSome = true) := by
      rintro ⟨htake, hne, -⟩
      obtain ⟨d, rest, hdrop⟩ := List.exists_cons_of_ne_nil hne
      refine hnot d rest ?_
      rw [← List.take_append_drop 2 w, htake, hdrop]
      rfl
    rw [or_iff_right hstem]
    simp

/-! ### Registers -/

def generalRegisters : List Pattern :=
  [word "r" ++ oneOf "abcd" ++ word "x", word "r" ++ oneOf "sd" ++ word "i", word "r" ++ oneOf "bs" ++ word "p",
   word "r" ++ anyOf [word "8", word "9", word "1" ++ oneOf "012345"] ++ opt (oneOf "dwb"), word "rip",
   word "e" ++ oneOf "abcd" ++ word "x", word "e" ++ oneOf "sd" ++ word "i", word "e" ++ oneOf "bs" ++ word "p",
   oneOf "abcd" ++ oneOf "hl", oneOf "abcd" ++ word "x", oneOf "sd" ++ word "i" ++ opt (word "l"),
   oneOf "bs" ++ word "p" ++ opt (word "l")]

def vectorRegisters : List Pattern := ["xmm", "ymm", "zmm"].map fun stem => word stem ++ many (.among digits)

def registerPattern : Pattern := anyOf (generalRegisters ++ vectorRegisters)

def numberedRegisters : List Text :=
  registerNumbers.flatMap fun n => ["", "d", "w", "b"].map fun size => 'r' :: n ++ size.toList

theorem mem_numberedRegisters_iff {w : Text} :
    w ∈ numberedRegisters ↔ w.take 1 = ['r'] ∧ isRegisterNumber (w.drop 1) = true := by
  constructor
  · have hall : ∀ w ∈ numberedRegisters, w.take 1 = ['r'] ∧ isRegisterNumber (w.drop 1) = true := by decide +kernel
    exact hall w
  · rintro ⟨hr, hnumber⟩
    have hw : w = 'r' :: w.drop 1 := by
      conv => lhs; rw [← List.take_append_drop 1 w, hr]
      rfl
    have hmem {n size : Text} (hn : n ∈ registerNumbers) (hsize : size ∈ ["", "d", "w", "b"].map String.toList) :
        'r' :: (n ++ size) ∈ numberedRegisters := by
      obtain ⟨s, hs, rfl⟩ := List.mem_map.mp hsize
      exact List.mem_flatMap.mpr ⟨n, hn, List.mem_map_of_mem hs⟩
    rw [hw]
    rw [isRegisterNumber, Bool.or_eq_true, Bool.and_eq_true, List.contains_iff_mem, List.contains_iff_mem,
      List.contains_iff_mem] at hnumber
    rcases hnumber with hn | ⟨hn, hlast⟩
    · have hbare := @hmem _ [] hn (by decide +kernel)
      rwa [List.append_nil] at hbare
    · have hsizes : ∀ last ∈ [some 'd', some 'w', some 'b'], last.toList ∈ ["", "d", "w", "b"].map String.toList := by
        decide +kernel
      have hsplit : (w.drop 1).dropLast ++ (w.drop 1).getLast?.toList = w.drop 1 := by
        cases hrest : (w.drop 1).getLast? with
        | none =>
          rw [List.getLast?_eq_none_iff.mp hrest]
          rfl
        | some c =>
          obtain ⟨front, hfront⟩ := List.getLast?_eq_some_iff.mp hrest
          rw [hfront, List.dropLast_concat]
          rfl
      rw [← hsplit]
      exact hmem hn (hsizes _ hlast)

theorem isRegister_iff {w : Text} : isRegister w = true ↔ registerPattern.Accepts foldChar w := by
  have hgeneral : (anyOf generalRegisters).Accepts foldChar w ↔ foldCase w ∈ registers ++ numberedRegisters :=
    accepts_iff_of_hasTexts (by decide +kernel)
  have hvector : (anyOf vectorRegisters).Accepts foldChar w ↔
      (foldCase w).take 3 ∈ ["xmm".toList, "ymm".toList, "zmm".toList] ∧ (foldCase w).drop 3 ≠ [] ∧
        ∀ c ∈ (foldCase w).drop 3, isDigit c = true := by
    have hstem {stem : String} (hlength : stem.toList.length = 3) :
        (word stem ++ many (.among digits)).Accepts foldChar w ↔ (foldCase w).take 3 = stem.toList ∧
          (foldCase w).drop 3 ≠ [] ∧ ∀ c ∈ (foldCase w).drop 3, isDigit c = true := by
      rw [word, accepts_stem_iff, accepts_manyDigits_iff, hlength, foldCase, ← List.map_drop, List.forall_mem_map, Ne,
        Ne, List.map_eq_nil_iff]
    simp only [vectorRegisters, List.map_cons, List.map_nil, accepts_anyOf_cons, accepts_anyOf_nil, or_false,
      List.mem_cons, List.not_mem_nil]
    rw [hstem (by decide), hstem (by decide), hstem (by decide), ← or_and_right, ← or_and_right]
  rw [registerPattern, accepts_anyOf_append, hgeneral, hvector, List.mem_append, mem_numberedRegisters_iff]
  simp only [isRegister, Bool.or_eq_true, Bool.and_eq_true, decide_eq_true_eq, List.contains_iff_mem, List.all_eq_true,
    and_assoc]

/-! ### Classes -/

/-- A class of words: how it is shown, and its pattern for characters in the form that `fold` gives them. -/
structure WordClass where
  style : Style
  fold : Char → Char
  pattern : Pattern

def wordPatterns : List WordClass :=
  [⟨.mnemonic, foldChar, mnemonicPattern⟩, ⟨.size, id, sizePattern⟩, ⟨.number, id, numberPattern⟩,
   ⟨.register, foldChar, registerPattern⟩]

def WordClass.spans (k : WordClass) (t : Text) : List Span :=
  (search (k.pattern.wordMatch k.fold) 0 0 none t).map fun place => ⟨place.1, place.2, k.style⟩

example : wordPatterns.map (·.style.description) = ["blue", "magenta", "cyan", "bold red"] := by decide

theorem matchesWords_of_mem {k : WordClass} (hk : k ∈ wordPatterns) : k.pattern.MatchesWords k.fold := by
  have hcaseless : ∀ c, isWord (foldChar c) = true → isWord c = true := Text.isWord_of_isWord_foldChar
  have hexact : ∀ c, isWord (id c) = true → isWord c = true := fun _ h => h
  simp only [wordPatterns, List.mem_cons, List.not_mem_nil, or_false] at hk
  rcases hk with rfl | rfl | rfl | rfl
  · exact matchesWords_of hcaseless (by decide +kernel) (by decide +kernel)
  · exact matchesWords_of hexact (by decide +kernel) (by decide +kernel)
  · exact matchesWords_of hexact (by decide +kernel) (by decide +kernel)
  · exact matchesWords_of hcaseless (by decide +kernel) (by decide +kernel)

theorem map_filter_words_eq_spans {k : WordClass} (hk : k ∈ wordPatterns) {isMember : Text → Bool}
    (h : ∀ w, (∀ c ∈ w, isWord c = true) → (isMember w = true ↔ k.pattern.Accepts k.fold w)) (t : Text) :
    (((words t).filter fun w => isMember w.letters).map fun w => ⟨w.start, w.stop, k.style⟩) = k.spans t := by
  have hfilter : ((words t).filter fun w => isMember w.letters) =
      (words t).filter fun w => k.pattern.accepts k.fold w.letters := by
    refine List.filter_congr fun w hw => ?_
    obtain ⟨left, right, -, -, hrun⟩ := mem_words_iff.mp hw
    rw [Bool.eq_iff_iff, accepts_iff]
    exact h w.letters hrun.all_word
  rw [hfilter, WordClass.spans, search_wordMatch (matchesWords_of_mem hk), List.map_map]
  rfl

/-! ### Symbol references -/

def symbolPattern : Pattern := text ['<'] ++ many (.except ['>']) ++ text ['>']

/-- The first way to match a symbol reference, which may stand anywhere. -/
def symbolMatch (_ : Option Char) (t : Text) : Option Nat := (symbolPattern.lengths id t).head?

theorem accepts_symbol_iff {t : Text} :
    symbolPattern.Accepts id t ↔ ∃ name, name ≠ [] ∧ '>' ∉ name ∧ t = '<' :: name ++ ['>'] := by
  have hexcept (c : Char) : (CharClass.except ['>']).has id c = true ↔ '>' ≠ c := by
    rw [CharClass.has, Bool.not_eq_true', ← Bool.not_eq_true, List.contains_iff_mem, List.mem_singleton, eq_comm]
    rfl
  constructor
  · rintro ⟨_, close, rfl, ⟨opening, name, rfl, hopening, hne, hname⟩, hclose⟩
    rw [Accepts, List.map_id] at hopening hclose
    subst hopening hclose
    refine ⟨name, hne, fun hmem => ?_, rfl⟩
    exact (hexcept '>').mp (hname _ hmem) rfl
  · rintro ⟨name, hne, hnot, rfl⟩
    refine ⟨'<' :: name, ['>'], rfl, ⟨['<'], name, rfl, rfl, hne, fun c hc => (hexcept c).mpr ?_⟩, rfl⟩
    rintro rfl
    exact hnot hc

theorem exists_of_symbolMatch {before : Option Char} {t : Text} {n : Nat} (h : symbolMatch before t = some n) :
    ∃ name rest, name ≠ [] ∧ '>' ∉ name ∧ t = '<' :: name ++ '>' :: rest ∧ n = name.length + 2 := by
  obtain ⟨hle, haccepts⟩ := mem_lengths_iff.mp (List.mem_of_head? h)
  obtain ⟨name, hne, hnot, htake⟩ := accepts_symbol_iff.mp haccepts
  refine ⟨name, t.drop n, hne, hnot, ?_, ?_⟩
  · conv => lhs; rw [← List.take_append_drop n t, htake]
    rw [List.append_assoc, List.singleton_append]
  · have hlength := congrArg List.length htake
    rw [List.length_take, Nat.min_eq_left hle] at hlength
    simpa using hlength

theorem symbolMatch_symbol (before : Option Char) {name : Text} (hne : name ≠ []) (hnot : '>' ∉ name) (rest : Text) :
    symbolMatch before ('<' :: name ++ '>' :: rest) = some (name.length + 2) := by
  have hsplit : '<' :: name ++ '>' :: rest = '<' :: name ++ ['>'] ++ rest := by
    rw [List.append_assoc, List.singleton_append]
  have hmem : ('<' :: name ++ ['>']).length ∈ symbolPattern.lengths id ('<' :: name ++ '>' :: rest) := by
    rw [mem_lengths_iff, hsplit, List.take_left, accepts_symbol_iff]
    exact ⟨(List.sublist_append_left _ _).length_le, name, hne, hnot, rfl⟩
  cases h : symbolMatch before ('<' :: name ++ '>' :: rest) with
  | none =>
    rw [List.head?_eq_none_iff.mp h] at hmem
    cases hmem
  | some n =>
    obtain ⟨name', rest', -, hnot', htext, rfl⟩ := exists_of_symbolMatch h
    rw [Text.eq_of_append_cons hnot hnot' (List.cons.inj htext).2]

theorem symbolMatch_eq_none (before : Option Char) {t : Text}
    (h : ∀ name rest, name ≠ [] → '>' ∉ name → t ≠ '<' :: name ++ '>' :: rest) : symbolMatch before t = none := by
  cases hmatch : symbolMatch before t with
  | none => rfl
  | some n =>
    obtain ⟨name, rest, hne, hnot, htext, -⟩ := exists_of_symbolMatch hmatch
    exact absurd htext (h name rest hne hnot)

theorem search_symbolMatch_of_not_mem (p : Nat) (before : Option Char) {t : Text} (h : '>' ∉ t) :
    search symbolMatch p 0 before t = [] := by
  induction t generalizing p before with
  | nil => rfl
  | cons c rest ih =>
    rw [search_of_eq_none, ih _ _ fun hmem => h (List.mem_cons_of_mem c hmem)]
    refine symbolMatch_eq_none _ fun name rest' _ _ htext => h ?_
    rw [htext]
    exact List.mem_append_right _ List.mem_cons_self

theorem symbolsFrom_some_of_not_mem (p start : Nat) {t : Text} (h : '>' ∉ t) : symbolsFrom p (some start) t = [] := by
  induction t generalizing p with
  | nil => rfl
  | cons c rest ih =>
    rw [List.mem_cons, not_or] at h
    rw [symbolsFrom, if_neg (Ne.symm h.1), ih _ h.2]

theorem symbolsFrom_some_append (p start : Nat) {name : Text} (h : '>' ∉ name) (rest : Text) :
    symbolsFrom p (some start) (name ++ '>' :: rest) = if start + 1 < p + name.length
      then (start, p + name.length + 1) :: symbolsFrom (p + name.length + 1) none rest
      else symbolsFrom (p + name.length + 1) none rest := by
  induction name generalizing p with
  | nil => rfl
  | cons c name ih =>
    rw [List.mem_cons, not_or] at h
    rw [List.cons_append, symbolsFrom, if_neg (Ne.symm h.1), ih _ h.2, List.length_cons, Nat.add_assoc p 1,
      Nat.add_comm 1]

theorem search_symbolMatch_symbol (p : Nat) (before : Option Char) {name : Text} (hne : name ≠ []) (hnot : '>' ∉ name)
    (rest : Text) :
    search symbolMatch p 0 before ('<' :: (name ++ '>' :: rest)) =
      (p, p + name.length + 2) :: search symbolMatch (p + name.length + 2) 0 (some '>') rest := by
  have hsplit : '<' :: name ++ '>' :: rest = ('<' :: name ++ ['>']) ++ rest := by
    rw [List.append_assoc, List.singleton_append]
  have hlength : ('<' :: name ++ ['>']).length = name.length + 2 := by
    rw [List.length_append, List.length_cons, List.length_singleton]
  have hfound : '<' :: name ++ ['>'] ≠ [] := List.cons_ne_nil _ _
  have hmatch := symbolMatch_symbol before hne hnot rest
  rw [hsplit, ← hlength] at hmatch
  rw [← List.cons_append, hsplit, search_of_eq_some hfound hmatch, hlength, List.getLast?_concat, Nat.add_assoc]
  rfl

theorem search_symbolMatch_empty (p : Nat) (before : Option Char) (rest : Text) :
    search symbolMatch p 0 before ('<' :: '>' :: rest) = search symbolMatch (p + 2) 0 (some '>') rest := by
  have hopening : symbolMatch before ('<' :: '>' :: rest) = none := by
    refine symbolMatch_eq_none _ fun name rest' hne hnot htext => ?_
    exact hne (Text.eq_of_append_cons List.not_mem_nil hnot (List.cons.inj htext).2).symm
  have hclosing : symbolMatch (some '<') ('>' :: rest) = none := by
    refine symbolMatch_eq_none _ fun name rest' _ _ htext => ?_
    cases htext
  rw [search_of_eq_none hopening, search_of_eq_none hclosing]

/-- The search for an opening bracket and its partner finds the matches of the pattern. -/
theorem search_symbolMatch (p : Nat) (before : Option Char) (t : Text) :
    search symbolMatch p 0 before t = symbolsFrom p none t := by
  generalize hn : t.length = n
  induction n using Nat.strongRecOn generalizing p before t with
  | ind n ih =>
    cases t with
    | nil => rfl
    | cons c rest =>
      have hlater (p : Nat) (before : Option Char) {t : Text} (ht : t.length ≤ rest.length) :
          search symbolMatch p 0 before t = symbolsFrom p none t := by
        refine ih t.length ?_ p before t rfl
        rw [← hn]
        exact Nat.lt_succ_of_le ht
      by_cases hc : c = '<'
      · subst hc
        rw [symbolsFrom, if_pos rfl]
        by_cases hclose : '>' ∈ rest
        · obtain ⟨name, behind, rfl, hnot⟩ := List.eq_append_cons_of_mem hclose
          have hbehind : behind.length ≤ (name ++ '>' :: behind).length := by
            rw [List.length_append, List.length_cons]
            omega
          rw [symbolsFrom_some_append _ _ hnot]
          by_cases hne : name = []
          · subst hne
            rw [List.nil_append, search_symbolMatch_empty, if_neg (by simp)]
            exact hlater _ _ hbehind
          · have hpos := List.length_pos_iff.mpr hne
            have hstop : p + 1 + name.length + 1 = p + name.length + 2 := by omega
            rw [search_symbolMatch_symbol _ _ hne hnot, if_pos (by omega), hlater _ _ hbehind, hstop]
        · have hnot : '>' ∉ '<' :: rest := List.not_mem_cons_of_ne_of_not_mem (by decide) hclose
          rw [search_symbolMatch_of_not_mem _ _ hnot, symbolsFrom_some_of_not_mem _ _ hclose]
      · have hnone : symbolMatch before (c :: rest) = none :=
          symbolMatch_eq_none _ fun name rest' _ _ htext => hc (List.cons.inj htext).1
        rw [search_of_eq_none hnone, symbolsFrom, if_neg hc]
        exact hlater _ _ (Nat.le_refl _)

def symbolSpans (t : Text) : List Span := (search symbolMatch 0 0 none t).map fun place => ⟨place.1, place.2, .symbol⟩

end Token

open Token in
/-- The spans of the operands are what a search for the patterns finds, one pattern after the other. -/
theorem Markup.operandSpans_eq_search (operands : Text) :
    operandSpans operands = (wordPatterns.flatMap fun k => k.spans operands) ++ symbolSpans operands := by
  have hmnemonic := @map_filter_words_eq_spans ⟨.mnemonic, foldChar, mnemonicPattern⟩ (.head _) isMnemonic
    (fun _ => isMnemonic_iff) operands
  have hsize := @map_filter_words_eq_spans ⟨.size, id, sizePattern⟩ (.tail _ (.head _)) isSize
    (fun _ _ => isSize_iff) operands
  have hnumber := @map_filter_words_eq_spans ⟨.number, id, numberPattern⟩ (.tail _ (.tail _ (.head _))) isNumber
    (fun _ _ => isNumber_iff) operands
  have hregister := @map_filter_words_eq_spans ⟨.register, foldChar, registerPattern⟩
    (.tail _ (.tail _ (.tail _ (.head _)))) isRegister (fun _ _ => isRegister_iff) operands
  rw [operandSpans, symbolSpans, search_symbolMatch, wordPatterns]
  simp only [List.flatMap_cons, List.flatMap_nil, ← hmnemonic, ← hsize, ← hnumber, ← hregister]
  rfl

end DisasmLens
