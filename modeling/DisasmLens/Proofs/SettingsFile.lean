import DisasmLens.Proofs.Footprint
import DisasmLens.Proofs.ObjectMembers

/-!
# The preferences in the file

What loading gives is told by what is at the path of the file once its directory is there (`Settings.fst_load`). The
defaults stand in for a file that does not hold an object; but bytes that are no text, an integer with too many digits
and values that are nested too deep break the loading off (`Settings.hindrance?`).
-/

namespace DisasmLens

/-! ### Directories -/

theorem run_makeDirectoryHere (path : Text) (h : Host) :
    (makeDirectoryHere path).run.run h =
      match h.entry? path with
      | some .directory => (.ok (), h)
      | some _ => (.error (.occupied path), h)
      | none =>
        if h.hasParent path then (.ok (), h.withEntry path .directory) else (.error (.missing path), h) := by
  unfold makeDirectoryHere
  rw [Attempt.run_bind_of_eq_ok (Attempt.run_get h)]
  cases h.entry? path with
  | none =>
    dsimp only
    split <;> rfl
  | some e => cases e <;> rfl

theorem entry?_of_makeDirectoryHere {path : Text} {h h' : Host}
    (hm : (makeDirectoryHere path).run.run h = (.ok (), h')) : h'.entry? path = some .directory := by
  rw [run_makeDirectoryHere] at hm
  split at hm
  · cases hm
    assumption
  · cases hm
  · split at hm
    · cases hm
      exact Files.get?_insert_self _ _ _
    · cases hm

theorem leaves_makeDirectoryHere {β : Type} {view : Host → β} (hv : Host.HidesFiles view) (path : Text) :
    Attempt.Leaves view (makeDirectoryHere path) := by
  intro h
  show view ((makeDirectoryHere path).run.run h).2 = _
  rw [run_makeDirectoryHere]
  split
  · rfl
  · rfl
  · split
    · exact hv h _
    · rfl

theorem entry?_of_makeDirectoryBelow {above : List Text} {path : Text} {h h' : Host}
    (hm : (makeDirectoryBelow above path).run.run h = (.ok (), h')) : h'.entry? path = some .directory := by
  cases above with
  | nil => exact entry?_of_makeDirectoryHere hm
  | cons next above =>
    obtain ⟨h, _, hget, hm⟩ := Attempt.run_bind_eq_ok hm
    split at hm
    · exact entry?_of_makeDirectoryHere hm
    · obtain ⟨_, _, _, hm⟩ := Attempt.run_bind_eq_ok hm
      exact entry?_of_makeDirectoryHere hm

theorem leaves_makeDirectoryBelow {β : Type} {view : Host → β} (hv : Host.HidesFiles view) (above : List Text)
    (path : Text) : Attempt.Leaves view (makeDirectoryBelow above path) := by
  induction above generalizing path with
  | nil => exact leaves_makeDirectoryHere hv path
  | cons next above ih =>
    refine .bind .get fun h => ?_
    split
    · exact leaves_makeDirectoryHere hv path
    · exact .bind (ih next) fun _ => leaves_makeDirectoryHere hv path

theorem leaves_makeDirectory {β : Type} {view : Host → β} (hv : Host.HidesFiles view) (path : Text) :
    Attempt.Leaves view (makeDirectory path) :=
  leaves_makeDirectoryBelow hv _ path

theorem entry?_of_makeDirectory {path : Text} {h h' : Host} (hm : (makeDirectory path).run.run h = (.ok (), h')) :
    h'.entry? path = some .directory :=
  entry?_of_makeDirectoryBelow hm

theorem run_makeDirectory_of_entry {path : Text} {h : Host} (he : h.entry? path = some .directory) :
    (makeDirectory path).run.run h = (.ok (), h) := by
  have hhere : (makeDirectoryHere path).run.run h = (.ok (), h) := by rw [run_makeDirectoryHere, he]
  unfold makeDirectory
  cases Path.above path with
  | nil => exact hhere
  | cons next above =>
    have hthere : h.hasEntry path = true ∨ h.hasParent path = true := .inl (by rw [Host.hasEntry, he]; rfl)
    show (if h.hasEntry path ∨ h.hasParent path then makeDirectoryHere path
      else makeDirectoryBelow above next >>= fun _ => makeDirectoryHere path : Attempt Unit).run.run h = _
    rw [if_pos hthere, hhere]

namespace Settings

/-! ### What is at the path -/

def ofContent (room : Nat) (content : Text) : Except Fault Settings :=
  match Json.parse room content with
  | .ok (.object fields) => .ok ⟨Fields.layer defaults.fields fields⟩
  | .error (.longInteger numeral) => .error (.longNumeral numeral)
  | .error (.deepNesting innermost) => .error (.deepNesting innermost)
  | _ => .ok defaults

def ofEntry (room : Nat) : Option Entry → Except Fault Settings
  | some (.file bytes) => readText bytes >>= ofContent room
  | _ => .ok defaults

/-- What keeps the preferences from being read: a file that is not text, or one that holds an integer with too many
digits or values nested too deep. -/
def hindrance? (room : Nat) : Option Entry → Option Fault
  | some (.file bytes) =>
    match Utf8.decode bytes with
    | .error failure => some (.encoding failure)
    | .ok t =>
      match Json.parse room t.normalizeNewlines with
      | .error (.longInteger numeral) => some (.longNumeral numeral)
      | .error (.deepNesting innermost) => some (.deepNesting innermost)
      | _ => none
  | _ => none

def members? (room : Nat) : Option Entry → Option Fields
  | some (.file bytes) => (Utf8.decode bytes).toOption.bind fun t => Json.members? room t.normalizeNewlines
  | _ => none

theorem nodup_defaults : defaults.fields.names.Nodup := by decide

theorem members?_of_parse {room : Nat} {t : Text} (h : ∀ fs, Json.parse room t ≠ .ok (.object fs)) :
    Json.members? room t = none := by
  unfold Json.members?
  split
  · exact absurd ‹_› (h _)
  · rfl

theorem ofEntry_file {bytes : List UInt8} {t : Text} (ht : Utf8.decode bytes = .ok t) (room : Nat) :
    ofEntry room (some (.file bytes)) = ofContent room t.normalizeNewlines := by
  rw [ofEntry, readText, ht]
  rfl

theorem ofEntry_eq (room : Nat) (e : Option Entry) :
    ofEntry room e =
      match hindrance? room e, members? room e with
      | some f, _ => .error f
      | none, some members => .ok ⟨Fields.layered defaults.fields members⟩
      | none, none => .ok defaults := by
  match e with
  | none | some .directory | some .sealed => rfl
  | some (.file bytes) =>
    cases ht : Utf8.decode bytes with
    | error failure =>
      simp only [ofEntry, readText, hindrance?, ht]
      rfl
    | ok t =>
      have hmembers : members? room (some (.file bytes)) = Json.members? room t.normalizeNewlines := by
        rw [members?, ht]
        rfl
      rw [ofEntry_file ht room, hmembers]
      simp only [ofContent, hindrance?, ht]
      cases hp : Json.parse room t.normalizeNewlines with
      | error defect =>
        have hnone : Json.members? room t.normalizeNewlines = none := members?_of_parse fun fs hfs => by
          rw [hp] at hfs
          cases hfs
        rw [hnone]
        cases defect <;> rfl
      | ok v =>
        cases v with
        | object fs =>
          obtain ⟨members, hread, rfl⟩ := Json.eq_layer_of_parse hp
          simp only [hread, Fields.layer_layer_nil nodup_defaults, Fields.layer_eq_layered nodup_defaults]
        | _ =>
          rw [members?_of_parse fun fs hfs => by
            rw [hp] at hfs
            cases hfs]

/-! ### Loading -/

theorem fst_ofFile (path content : Text) (h : Host) :
    ((ofFile path content).run.run h).1 = ofContent h.maxDepth content := by
  unfold ofFile ofContent
  rw [Attempt.run_bind_of_eq_ok (Attempt.run_get h)]
  cases Json.parse h.maxDepth content with
  | error defect => cases defect <;> rfl
  | ok v => cases v <;> rfl

theorem fst_load {h made : Host} (hh : h.hasHome = true)
    (hm : (makeDirectory (directory h)).run.run h = (.ok (), made)) :
    (load.run.run h).1 = ofEntry made.maxDepth (made.entry? (path h)) := by
  have hread : (readFile (path h)).result.run.run made = (.ok (made.text (path h)), made) := by
    rw [Attempt.run_result, run_readFile]
  unfold load
  rw [Attempt.run_bind_of_eq_ok (Attempt.run_get h)]
  simp only [hh, Bool.not_true, Bool.false_eq_true, if_false]
  rw [Attempt.run_bind_of_eq_ok hm, Attempt.run_bind_of_eq_ok (Attempt.run_get made)]
  cases he : made.entry? (path h) with
  | none =>
    have hnone : (!made.hasEntry (path h)) = true := by
      rw [Host.hasEntry, he]
      rfl
    rw [if_pos hnone]
    rfl
  | some e =>
    have hsome : ¬(!made.hasEntry (path h)) = true := by
      rw [Host.hasEntry, he]
      exact Bool.false_ne_true
    have htext : made.text (path h) = made.bytes (path h) >>= readText := rfl
    rw [if_neg hsome, Attempt.run_bind_of_eq_ok hread, htext, Host.bytes, he]
    cases e with
    | file bytes =>
      have hbind : (Except.ok bytes >>= readText : Except Fault Text) = readText bytes := rfl
      dsimp only
      rw [hbind, ofEntry]
      cases hbytes : readText bytes with
      | ok content => exact fst_ofFile (path h) content made
      | error f =>
        have hsystem : f.isSystem = false := by
          unfold readText at hbytes
          split at hbytes
          · cases hbytes
          · cases hbytes
            rfl
        simp only [hsystem]
        rfl
    | directory => rfl
    | sealed => rfl

theorem leaves_ofFile {β : Type} {view : Host → β} (hl : Host.HidesLogs view) (path content : Text) :
    Attempt.Leaves view (ofFile path content) := by
  refine .bind .get fun h => ?_
  split
  · exact .pure _
  · exact .pure _
  · exact .bind (.lift (.log hl)) fun _ => .pure _
  · exact .throw _
  · exact .throw _

theorem leaves_load {β : Type} {view : Host → β} (hf : Host.HidesFiles view) (hl : Host.HidesLogs view) :
    Attempt.Leaves view load := by
  refine .bind .get fun h => ?_
  dsimp only
  split
  · exact .throw _
  · refine .bind (leaves_makeDirectory hf _) fun _ => .bind .get fun made => ?_
    split
    · exact .pure _
    · refine .bind (.result (leaves_readFile _)) fun content => ?_
      cases content with
      | ok content => exact leaves_ofFile hl _ content
      | error f =>
        dsimp only
        split
        · exact .bind (.lift (.log hl)) fun _ => .pure _
        · exact .throw _

/-- Loading by the members of the file. They are laid over the defaults, the last one of each name at its first place;
without members the defaults are left. -/
theorem fst_load_eq_layered {h made : Host} (hh : h.hasHome = true)
    (hm : (makeDirectory (directory h)).run.run h = (.ok (), made)) :
    (load.run.run h).1 =
      match hindrance? made.maxDepth (made.entry? (path h)), members? made.maxDepth (made.entry? (path h)) with
      | some f, _ => .error f
      | none, some members => .ok ⟨Fields.layered defaults.fields members⟩
      | none, none => .ok defaults :=
  (fst_load hh hm).trans (ofEntry_eq _ _)

def bareHost : Host := Host.withOwnDirectories {}

def hostWithFile (bytes : List UInt8) : Host :=
  bareHost.withEntry "/home/u/.jaibolt/config.json" (.file bytes)

def repeatedName : Text := "\x7b\"theme\": 1, \"flags\": 2, \"theme\": null\x7d"

theorem fst_load_eq_layered_repeated :
    ∃ h made : Host, h.hasHome = true ∧ (makeDirectory (directory h)).run.run h = (.ok (), made) ∧
      made.entry? (path h) = some (.file (Utf8.encode repeatedName)) ∧
      (load.run.run h).1 = .ok ⟨[(compilerName, defaultCompiler), (disassemblerName, defaultDisassembler),
        (intelName, .bool true), (flagsName, .int 2), (Text.runes "theme".toList, .null)]⟩ := by
  have hm : (makeDirectory (directory (hostWithFile (Utf8.encode repeatedName)))).run.run
      (hostWithFile (Utf8.encode repeatedName)) = (.ok (), hostWithFile (Utf8.encode repeatedName)) :=
    run_makeDirectory_of_entry rfl
  have hentry : Host.entry? (hostWithFile (Utf8.encode repeatedName)) (path (hostWithFile (Utf8.encode repeatedName))) =
      some (.file (Utf8.encode repeatedName)) := rfl
  have hread : hindrance? 985 (some (.file (Utf8.encode repeatedName))) = none := by
    rw [hindrance?, Utf8.decode_encode]
    cbv
  have hmembers : members? 985 (some (.file (Utf8.encode repeatedName))) =
      some [(Text.runes "theme".toList, .int 1), (flagsName, .int 2), (Text.runes "theme".toList, .null)] := by
    rw [members?, Utf8.decode_encode]
    cbv
  have hload := fst_load_eq_layered rfl hm
  have hroom : Host.maxDepth (hostWithFile (Utf8.encode repeatedName)) = 985 := rfl
  rw [hentry, hroom, hread, hmembers] at hload
  exact ⟨_, _, rfl, hm, hentry, hload.trans rfl⟩

/-- A byte that starts no character is not caught. -/
theorem exists_fst_load_eq_error :
    ∃ h made : Host, h.hasHome = true ∧ (makeDirectory (directory h)).run.run h = (.ok (), made) ∧
      made.entry? (path h) = some (.file [0xFF]) ∧ ∀ s, (load.run.run h).1 ≠ .ok s := by
  have hm : (makeDirectory (directory (hostWithFile [0xFF]))).run.run (hostWithFile [0xFF]) =
      (.ok (), hostWithFile [0xFF]) := run_makeDirectory_of_entry rfl
  have hload : (load.run.run (hostWithFile [0xFF])).1 = .error (.encoding ⟨.badStart, 0xFF, 0, 0⟩) := rfl
  refine ⟨_, _, rfl, hm, rfl, fun s hs => ?_⟩
  rw [hload] at hs
  cases hs

end Settings

end DisasmLens
