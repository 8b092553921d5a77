import DisasmLens.Json.Parser
import DisasmLens.Proofs.Layers

/-!
# The members of an object

An object may give a name several times. `Json.members?` reads its members as they stand, and the object that is read
has the last value of each name at the first place of that name (`Json.eq_layer_of_parse`).
-/

namespace DisasmLens.Json

namespace Parser

def members : (bound room : Nat) → Text → Result Fields
  | 0, _, s => .error (.at .noName s.length)
  | bound + 1, room, s =>
    match s with
    | '"' :: rest =>
      match stringBody s.length rest with
      | .error stop => .error stop
      | .ok (name, rest) =>
        match skipBlanks rest with
        | ':' :: rest =>
          match value bound room (skipBlanks rest) with
          | .error stop => .error stop
          | .ok (v, rest) =>
            match skipBlanks rest with
            | '}' :: rest => .ok ([(name, v)], rest)
            | ',' :: rest => (members bound room (skipBlanks rest)).map fun (ms, rest) => ((name, v) :: ms, rest)
            | rest => .error (.at .noComma rest.length)
        | rest => .error (.at .noColon rest.length)
    | s => .error (.at .noName s.length)

theorem exists_members_of_fields {bound room : Nat} {before fs : Fields} {s left : Text}
    (h : fields bound room before s = .ok (fs, left)) :
    ∃ ms, members bound room s = .ok (ms, left) ∧ fs = before.layer ms := by
  induction bound generalizing before s with
  | zero => cases h
  | succ bound ih =>
    unfold fields at h
    split at h
    · rename_i rest
      split at h
      · cases h
      · rename_i name rest hname
        split at h
        · rename_i rest hcolon
          split at h
          · cases h
          · rename_i v rest hvalue
            dsimp only at h
            split at h
            · rename_i hclose
              cases h
              refine ⟨[(name, v)], ?_, rfl⟩
              simp only [members, hname, hcolon, hvalue, hclose]
            · rename_i hcomma
              obtain ⟨ms, hms, rfl⟩ := ih h
              refine ⟨(name, v) :: ms, ?_, rfl⟩
              simp only [members, hname, hcolon, hvalue, hcomma, hms]
              rfl
            · cases h
        · cases h
    · cases h

theorem number_ne_object {s rest : Text} {fs : Fields} : number s ≠ .ok (.object fs, rest) := by
  intro h
  unfold number at h
  dsimp only at h
  repeat' split at h
  all_goals cases h

theorem exists_of_value_eq_object {bound room : Nat} {s rest : Text} {fs : Fields}
    (h : value (bound + 1) room s = .ok (.object fs, rest)) :
    ∃ inner tail, room = inner + 1 ∧ s = '{' :: tail ∧ ((∃ t, skipBlanks tail = '}' :: t ∧ fs = []) ∨
      (∀ t, skipBlanks tail ≠ '}' :: t) ∧ fields bound inner [] (skipBlanks tail) = .ok (fs, rest)) := by
  unfold value at h
  split at h
  case h_1 rest =>
    cases hread : stringBody (List.length ('"' :: rest)) rest <;> rw [hread] at h <;> cases h
  case h_2 =>
    split at h
    · cases h
    · cases h
    · rename_i inside _ _ inner _
      cases hread : items bound inner (skipBlanks inside) <;> rw [hread] at h <;> cases h
  case h_3 tail =>
    split at h
    · cases h
    · rename_i inner _ hclose
      cases h
      exact ⟨inner, tail, rfl, rfl, .inl ⟨_, hclose, rfl⟩⟩
    · rename_i inner hopen
      refine ⟨inner, tail, rfl, rfl, .inr ⟨hopen, ?_⟩⟩
      cases hread : fields bound inner [] (skipBlanks tail) with
      | error stop =>
        rw [hread] at h
        cases h
      | ok read =>
        rw [hread] at h
        cases h
        rfl
  case h_10 => exact absurd h number_ne_object
  all_goals cases h

end Parser

def members? (room : Nat) (s : Text) : Option Fields :=
  match parse room s, Parser.skipBlanks s with
  | .ok (.object _), '{' :: rest =>
    match Parser.skipBlanks rest with
    | '}' :: _ => some []
    | rest => (Parser.members (2 * s.length + 1) (room - 1) rest).toOption.map Prod.fst
  | _, _ => none

/-- An object has the last value of each of its members at the first place of their name. -/
theorem eq_layer_of_parse {room : Nat} {s : Text} {fs : Fields} (h : parse room s = .ok (.object fs)) :
    ∃ ms, members? room s = some ms ∧ fs = Fields.layer [] ms := by
  have hdocument : Parser.document room s = .ok (.object fs) := by
    unfold parse at h
    split at h
    · rename_i hread
      cases h
      exact hread
    all_goals cases h
  have hvalue : ∃ rest, Parser.value (2 * s.length + 1 + 1) room (Parser.skipBlanks s) = .ok (.object fs, rest) := by
    unfold Parser.document at hdocument
    split at hdocument
    · cases hdocument
    · split at hdocument
      · cases hdocument
      · rename_i v rest hread
        split at hdocument
        · cases hdocument
          exact ⟨rest, hread⟩
        · cases hdocument
  obtain ⟨rest, hvalue⟩ := hvalue
  obtain ⟨inner, tail, rfl, htail, ⟨t, hclose, rfl⟩ | ⟨hopen, hfields⟩⟩ := Parser.exists_of_value_eq_object hvalue
  · refine ⟨[], ?_, rfl⟩
    simp only [members?, h, htail, hclose]
  · obtain ⟨ms, hread, rfl⟩ := Parser.exists_members_of_fields hfields
    refine ⟨ms, ?_, rfl⟩
    simp only [members?, h, htail, Nat.add_sub_cancel, hread]
    rfl

end DisasmLens.Json
