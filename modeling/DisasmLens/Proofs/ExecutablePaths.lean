import DisasmLens.Proofs.Locations

/-!
# Source files and their executables

A path names a source file by its last component (`Path.isSource_iff`), and the path of the executable is the text of the
resolved path without its end. Both go by the same name, since resolving a path keeps its last component unless that is
two dots (`Path.exists_resolve_of_isSource`).
-/

namespace DisasmLens.Path

/-! ### The extension -/

theorem extension_eq {p name : Text} (hp : (components p).getLast? = some name) :
    extension p =
      let part := (name.reverse.takeWhile (· ≠ '.')).length
      if part = 0 ∨ name.length ≤ part + 1 then [] else name.drop (name.length - (part + 1)) := by
  rw [extension, hp, Option.getD_some]

theorem extension_of_components_eq_nil {p : Text} (hp : components p = []) : extension p = [] := by
  rw [extension, hp]
  rfl

/-- A path names a source file if its last component is a name with the extension behind it. -/
theorem isSource_iff {p : Text} :
    isSource p = true ↔ ∃ stem, stem ≠ [] ∧ (components p).getLast? = some (stem ++ sourceExtension) := by
  rw [isSource, decide_eq_true_iff]
  constructor
  · intro he
    cases hp : (components p).getLast? with
    | none =>
      rw [extension_of_components_eq_nil (List.getLast?_eq_none_iff.mp hp)] at he
      cases he
    | some name =>
      rw [extension_eq hp] at he
      dsimp only at he
      split at he
      · cases he
      · rename_i hpart
        have hsplit := List.take_append_drop (name.length - ((name.reverse.takeWhile (· ≠ '.')).length + 1)) name
        rw [he] at hsplit
        refine ⟨_, ?_, by rw [hsplit]⟩
        rw [ne_eq, List.take_eq_nil_iff, not_or]
        refine ⟨by omega, ?_⟩
        rintro rfl
        exact hpart (.inl rfl)
  · rintro ⟨stem, hstem, hp⟩
    have hpart : ((stem ++ sourceExtension).reverse.takeWhile (· ≠ '.')).length = 3 := by
      rw [List.reverse_append]
      rfl
    have hlength : (stem ++ sourceExtension).length = stem.length + 4 := by
      rw [List.length_append]
      rfl
    have hpos : 0 < stem.length := List.length_pos_iff.mpr hstem
    have hlong : ¬(3 = 0 ∨ stem.length + 4 ≤ 3 + 1) := by omega
    rw [extension_eq hp]
    dsimp only
    rw [hpart, hlength, if_neg hlong, Nat.add_sub_cancel, List.drop_left]

/-! ### The executable -/

theorem executable_append (p : Text) : executable (p ++ sourceExtension) = p := by
  rw [executable, if_pos (List.suffix_append p sourceExtension), List.length_append, Nat.add_sub_cancel, List.take_left]

theorem exists_location_text_concat (l : Location) (name : Text) :
    ∃ above, Location.text (l ++ [name]) = above ++ '/' :: name := by
  induction l with
  | nil => exact ⟨[], congrArg _ List.intercalate_singleton⟩
  | cons d l ih =>
    obtain ⟨above, habove⟩ := ih
    have hne : l ++ [name] ≠ [] := List.append_ne_nil_of_right_ne_nil l (List.cons_ne_nil name [])
    refine ⟨'/' :: d ++ above, ?_⟩
    rw [List.append_assoc, ← habove, List.cons_append, Location.text, Text.joinWith,
      List.intercalate_cons_of_ne_nil hne, List.append_assoc]
    rfl

theorem exists_text_concat {p : AbsolutePath} {l : Location} {name : Text} (hp : p.location = l ++ [name]) :
    ∃ above, p.text = above ++ '/' :: name := by
  obtain ⟨above, habove⟩ := exists_location_text_concat l name
  rw [AbsolutePath.text, hp, habove]
  split
  · exact ⟨'/' :: above, rfl⟩
  · exact ⟨above, rfl⟩

/-! ### Resolved paths -/

theorem location_resolve_concat {p name : Text} (hp : (components p).getLast? = some name) (hname : name ≠ ['.', '.'])
    (directory : Text) : ∃ l, (resolve directory p).location = l ++ [name] := by
  obtain ⟨front, hfront⟩ := List.getLast?_eq_some_iff.mp hp
  rw [location_resolve]
  cases ha : isAbsolute p with
  | true =>
    rw [within, if_pos (.inl ha), hfront, follow_concat hname]
    exact ⟨_, rfl⟩
  | false =>
    rw [components_within ha, hfront, ← List.append_assoc, follow_concat hname]
    exact ⟨_, rfl⟩

theorem isName_of_mem_resolve (directory p : Text) : ∀ c ∈ (resolve directory p).location, IsName c := by
  unfold resolve
  dsimp only
  split
  · exact isName_of_mem_absolute directory p
  · exact isName_of_mem_absolute directory p

theorem append_sourceExtension_ne (stem : Text) : stem ++ sourceExtension ≠ ['.', '.'] := by
  intro h
  have hlength := congrArg List.length h
  rw [List.length_append] at hlength
  have hfour : sourceExtension.length = 4 := rfl
  have htwo : ['.', '.'].length = 2 := rfl
  omega

/-- A source file's path is resolved to a name with the extension in some directory. -/
theorem exists_resolve_of_isSource {p : Text} (h : isSource p = true) (directory : Text) :
    ∃ l stem above, stem ≠ [] ∧ '/' ∉ stem ∧ (resolve directory p).location = l ++ [stem ++ sourceExtension] ∧
      (resolve directory p).text = above ++ '/' :: stem ++ sourceExtension := by
  obtain ⟨stem, hstem, hp⟩ := isSource_iff.mp h
  obtain ⟨l, hl⟩ := location_resolve_concat hp (append_sourceExtension_ne stem) directory
  obtain ⟨above, habove⟩ := exists_text_concat hl
  have hname : IsName (stem ++ sourceExtension) := by
    refine isName_of_mem_resolve directory p _ ?_
    rw [hl]
    exact List.mem_append_right l (List.mem_singleton_self _)
  refine ⟨l, stem, above, hstem, fun hs => hname.1.2.2 (List.mem_append_left _ hs), hl, ?_⟩
  rw [habove, List.append_assoc, List.cons_append]

theorem isAbsolute_append_slash {p q : Text} (h : isAbsolute (p ++ '/' :: q) = true) (r : Text) :
    isAbsolute (p ++ '/' :: r) = true := by
  cases p with
  | nil => rfl
  | cons c p => exact h

/-- A name without the extension leads to another place: to an entry of the same directory, or to that directory or the
one above it if only dots are left of the name. -/
theorem follow_components_ne {l : Location} (hl : ∀ c ∈ l, IsName c) {stem : Text} (hstem : stem ≠ [])
    (hslash : '/' ∉ stem) : follow [] (l ++ components stem) ≠ l ++ [stem ++ sourceExtension] := by
  have hfollow : follow [] l = l := follow_names hl []
  by_cases hdot : stem = ['.']
  · subst hdot
    have hcomponents : components ['.'] = [] := rfl
    rw [hcomponents, List.append_nil, hfollow]
    intro h
    have hlength := congrArg List.length h
    rw [List.length_append, List.length_singleton] at hlength
    omega
  rw [components_of_isComponent ⟨hstem, hdot, hslash⟩]
  by_cases htwo : stem = ['.', '.']
  · rw [htwo, follow_append, hfollow]
    intro h
    have hlength : l.dropLast.length = (l ++ [['.', '.'] ++ sourceExtension]).length := congrArg List.length h
    rw [List.length_dropLast, List.length_append, List.length_singleton] at hlength
    omega
  · rw [follow_concat htwo, hfollow]
    intro h
    have hname : stem = stem ++ sourceExtension := List.singleton_inj.mp (List.append_cancel_left h)
    have hlength := congrArg List.length hname
    have hfour : sourceExtension.length = 4 := rfl
    rw [List.length_append] at hlength
    omega

theorem location_resolve_executable_ne {p : Text} (h : isSource p = true) (directory other : Text) :
    (resolve other (executable (resolve directory p).text)).location ≠ (resolve directory p).location := by
  obtain ⟨l, stem, above, hstem, hslash, hl, htext⟩ := exists_resolve_of_isSource h directory
  have hnames := isName_of_mem_resolve directory p
  have hl' : ∀ c ∈ l, IsName c := fun c hc => hnames c (by rw [hl]; exact List.mem_append_left _ hc)
  have hname : IsName (stem ++ sourceExtension) :=
    hnames _ (by rw [hl]; exact List.mem_append_right l (List.mem_singleton_self _))
  have habsolute : isAbsolute (above ++ '/' :: stem) = true := by
    have ha := isAbsolute_text (resolve directory p)
    rw [htext, List.append_assoc, List.cons_append] at ha
    exact isAbsolute_append_slash ha stem
  have habove : components above = l := by
    have hcomponents := components_text hnames
    rw [htext, List.append_assoc, List.cons_append, components_append_slash, components_of_isComponent hname.1, hl]
      at hcomponents
    exact List.append_cancel_right hcomponents
  rw [htext, executable_append, location_resolve, within, if_pos (.inl habsolute), components_append_slash, habove, hl]
  exact follow_components_ne hl' hstem hslash

/-- A source file's path in any spelling is still one when it is resolved, and then the executable's path is all of it
but the extension. It names something, is not the source file, and tells resolved paths apart. -/
theorem executable_resolve_of_isSource {p : Text} (h : isSource p = true) (directory : Text) :
    let r := (resolve directory p).text
    isSource r = true ∧ executable r ++ sourceExtension = r ∧ (executable r).getLast? ≠ some '/' ∧
      (∀ other, (resolve other (executable r)).location ≠ (resolve directory p).location) ∧
      ∀ q other, isSource q = true → (resolve other q).text ≠ r → executable (resolve other q).text ≠ executable r := by
  have hexecutable {p : Text} (h : isSource p = true) (directory : Text) :
      executable (resolve directory p).text ++ sourceExtension = (resolve directory p).text := by
    obtain ⟨l, stem, above, -, -, -, htext⟩ := exists_resolve_of_isSource h directory
    rw [htext, executable_append]
  obtain ⟨l, stem, above, hstem, hslash, hl, htext⟩ := exists_resolve_of_isSource h directory
  intro r
  refine ⟨?_, hexecutable h directory, ?_, location_resolve_executable_ne h directory, ?_⟩
  · refine isSource_iff.mpr ⟨stem, hstem, ?_⟩
    rw [components_text (isName_of_mem_resolve directory p), hl, List.getLast?_concat]
  · have hr : r = above ++ '/' :: stem ++ sourceExtension := htext
    rw [hr, executable_append, List.getLast?_append, List.getLast?_cons_of_ne_nil hstem,
      List.getLast?_eq_some_getLast hstem, Option.some_or]
    intro hs
    refine hslash ?_
    rw [← Option.some.inj hs]
    exact List.getLast_mem hstem
  · intro q other hq hne he
    refine hne ?_
    rw [← hexecutable hq other, he]
    exact hexecutable h directory

/-- A hidden file behind a slash too many, and one in the directory above. -/
theorem executable_resolve_of_isSource_hidden :
    isSource "sub/..//.x.jai/." = true ∧ executable (resolve "/work" "sub/..//.x.jai/.").text = "/work/.x".toList ∧
      isSource (resolve "/work" "sub/..//.x.jai/.").text = true ∧
      (resolve "/" "/work/.x").location ≠ (resolve "/work" "sub/..//.x.jai/.").location ∧
      executable (resolve "/work/sub" "../x.jai").text ≠ "/work/.x".toList := by
  have hsource : isSource "sub/..//.x.jai/." = true := by decide +kernel
  have hexecutable : executable (resolve "/work" "sub/..//.x.jai/.").text = "/work/.x".toList := by decide +kernel
  have hother : (resolve "/work/sub" "../x.jai").text ≠ (resolve "/work" "sub/..//.x.jai/.").text := by decide +kernel
  obtain ⟨hr, -, -, hplace, hapart⟩ := executable_resolve_of_isSource hsource "/work"
  rw [hexecutable] at hplace hapart
  exact ⟨hsource, hexecutable, hr, hplace "/", hapart "../x.jai" "/work/sub" (by decide +kernel) hother⟩

end DisasmLens.Path
