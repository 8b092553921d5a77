import DisasmLens.Proofs.CommandEndings
import DisasmLens.Proofs.LatestBuild

/-!
# Listings that are printed once

A request to print (`CommandLine.Request.Prints`) whose session can be opened ends with the listing and the exit code
0, or with a complaint and the exit code 1 (`CommandLine.run_of_prints`). Which of them is told by the outcome of the
one rebuild (`Session.Outcome.printable?`).
-/

namespace DisasmLens

/-! ### Printable outcomes -/

theorem Build.isShowable_iff (b : Build) :
    b.isShowable = true ↔ (∀ d ∈ b.diagnostics, ¬d.isError = true) ∧ b.listing ≠ [] := by
  rw [isShowable, hasErrors, Bool.and_eq_true, Bool.not_eq_true', List.any_eq_false, decide_eq_true_iff]

def Build.shown? (b : Build) : Option Text := if b.isShowable then some b.listing else none

theorem Build.shown?_withoutListing (b : Build) (time : Int) : (b.withoutListing time).shown? = none := by
  have hempty : (b.withoutListing time).isShowable = false := Bool.and_false _
  rw [shown?, hempty, if_neg Bool.false_ne_true]

namespace Session

/-- The part of the listing that is printed: the rebuild was not broken off, it made a listing, no error was reported,
and something of the listing belongs to the target. -/
def Outcome.printable? (target : Text) : Outcome → Option Text
  | .complete _ whole _ diagnostics =>
    if whole ≠ [] ∧ (∀ d ∈ diagnostics, ¬d.isError = true) ∧ Listing.retain target whole ≠ [] then
      some (Listing.retain target whole)
    else none
  | _ => none

/-- After a rebuild that was broken off nothing is shown, whatever diagnostics an earlier one has left. -/
theorem shown?_update (o : Outcome) (flags : List Text) (time : Int) (b : Build) :
    (o.update flags time b).shown? = o.printable? b.source := by
  cases o with
  | unread f => exact Build.shown?_withoutListing _ time
  | uncompiled code f => exact Build.shown?_withoutListing _ time
  | unparsed code report numeral => exact Build.shown?_withoutListing _ time
  | complete code whole report diagnostics =>
    unfold Outcome.update Outcome.printable?
    dsimp only
    split
    · rename_i hw
      rw [if_neg fun h => h.1 hw]
      exact Build.shown?_withoutListing _ time
    · rename_i hw
      have hshowable {b : Build} (hb : b.diagnostics = diagnostics) :
          b.isShowable = true ↔ whole ≠ [] ∧ (∀ d ∈ diagnostics, ¬d.isError = true) ∧ b.listing ≠ [] := by
        rw [Build.isShowable_iff, hb]
        exact (and_iff_right hw).symm
      exact ite_congr (propext (hshowable rfl)) (fun _ => rfl) fun _ => rfl

end Session

namespace CommandLine

open Command

/-! ### Pieces of the run -/

def Terminal.logged (t : Terminal) (isVerbose : Bool) : Terminal := ((logTo .console isVerbose).run.run t).2

theorem run_openSession {t : Terminal} {source : Text} {s : Session} {made : Host}
    (hl : (Session.load source).run.run t.host = (.ok s, made)) (flags : List Text) :
    (openSession source flags).run.run t = (.ok { s with flags }, { t with host := made }) := by
  unfold openSession
  rw [run_bind_of_eq_ok (run_attempt _ t), hl]
  rfl

def printed (b : Build) : Output :=
  match b.shown? with
  | some listing => .listing (Markup.listing listing)
  | none => .err (failureReport b)

theorem run_printOnce {t : Terminal} {source : Text} {s : Session} {made : Host}
    (hl : (Session.load source).run.run t.host = (.ok s, made)) (flags : List Text) :
    let built := (Session.refresh { s with flags, isSubscribed := false }).run made
    (printOnce source flags).run.run t =
      (if built.1.build.shown?.isSome then .ok () else .error (.exit 1),
        { t with host := built.2, output := t.output ++ [printed built.1.build] }) := by
  intro built
  have hact : (act (Session.refresh { s with flags, isSubscribed := false })).run.run { t with host := made } =
      (.ok built.1, { t with host := built.2 }) := rfl
  unfold printOnce printed Build.shown?
  rw [run_bind_of_eq_ok (run_openSession hl flags), run_bind_of_eq_ok hact]
  split <;> rfl

structure Request.Prints (r : Request) (file : Text) (flags : List Text) : Prop where
  showsVersion : r.showsVersion = false
  dump : given? r.dump = none
  printsOnce : r.printsOnce = true
  file : given? r.file = some file
  words : r.words = .ok flags

variable {arguments flags : List Text} {t : Terminal} {r : Request} {file : Text}

theorem Request.Prints.run_serve (hp : r.Prints file flags) (t : Terminal) :
    (serve r).run.run t = (do
      let source ← sourcePath (some file)
      logTo .console r.isVerbose
      printOnce source flags : Command Unit).run.run t := by
  rw [run_serve_source hp.showsVersion hp.words hp.dump, hp.file, hp.printsOnce]
  rfl

/-! ### The whole run -/

theorem run_eq_printed {s : Session} {made : Host} (hr : Request.ofArguments arguments = .ok r)
    (hp : r.Prints file flags) (he : t.host.hasEntry (t.source file) = true)
    (hs : Path.isSource (t.source file) = true)
    (hl : (Session.load (t.source file)).run.run (t.logged r.isVerbose).host = (.ok s, made)) :
    let built := (Session.refresh { s with flags, isSubscribed := false }).run made
    run arguments t =
      (.exit (if built.1.build.shown?.isSome then 0 else 1),
        { t.logged r.isVerbose with host := built.2, output := t.output ++ [printed built.1.build] }) := by
  intro built
  have hsource : (sourcePath (some file)).run.run t.started = (.ok (t.source file), t.started) :=
    run_sourcePath (t := t.started) ⟨he, hs⟩
  have hlog : (logTo .console r.isVerbose).run.run t.started = (.ok (), t.logged r.isVerbose) := rfl
  rw [run_eq_of_request hr, hp.run_serve, run_bind_of_eq_ok hsource, run_bind_of_eq_ok hlog, run_printOnce hl]
  dsimp only [built]
  by_cases hshown : built.1.build.shown?.isSome = true
  · rw [if_pos hshown, if_pos hshown]
    rfl
  · rw [if_neg hshown, if_neg hshown]
    rfl

end CommandLine

end DisasmLens
