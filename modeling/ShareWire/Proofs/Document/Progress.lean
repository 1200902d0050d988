import ShareWire.Document.Tree
import ShareWire.Proofs.Markup.Reading

/-!
# Reading on

What a document reader makes of the rest of an input, as a function of its progress so far. Each
construct at the front of the rest is one step of the progress, so documents can be read construct by
construct.
-/

namespace ShareWire

open Text (encode decode)
open Markup (Event Reading Spells endsText blankBytes isBlankByte)

namespace Progress

/-- What the rest of the events makes of a progress. -/
def run (progress : Progress) (reading : Reading) : Except DocumentError Element := do
  let progress ← reading.events.foldlM step progress
  match reading.fault with
  | some fault => .error (.markup fault)
  | none => progress.finish

theorem run_cons (progress : Progress) (event : Event) (reading : Reading) :
    progress.run (reading.cons event) = (progress.step event).bind fun next => next.run reading := by
  simp only [run, Reading.cons, List.foldlM_cons]
  cases progress.step event <;> rfl

/-- The names of the elements that are open, innermost first. -/
def openNames : Progress → List Bytes
  | .within opened => opened.map fun o => encode o.name
  | .after _ => []

/-- What the rest of an input makes of a progress. -/
def resume (progress : Progress) (input : Bytes) : Except DocumentError Element :=
  progress.run (Reading.within progress.openNames input)

theorem resume_nil (progress : Progress) : progress.resume [] = progress.finish := by
  rw [resume, Reading.within_nil]
  rfl

theorem openNames_attach (opened : List OpenElement) (e : Element) :
    (attach opened e).openNames = (Progress.within opened).openNames := by
  cases opened <;> rfl

theorem decoded_encode (wrap : Text.Utf8Error → ValueError) (s : String) :
    decoded wrap (encode s) = .ok s := by
  rw [decoded, Text.decode_encode]

variable {lexeme rest : Bytes} {name : String} {opened outer : List OpenElement} {o : OpenElement}

/-! ## Tags -/

theorem resume_start (h : Spells lexeme (.start (encode name))) :
    (within opened).resume (lexeme ++ rest) = (within ({ name } :: opened)).resume rest := by
  rw [resume, Reading.within_start h, run_cons, step, stepWithin, decoded_encode]
  rfl

theorem resume_empty (h : Spells lexeme (.empty (encode name))) :
    (within opened).resume (lexeme ++ rest) = (attach opened { name }).resume rest := by
  rw [resume, Reading.within_of_spells h (by simp) (by simp), run_cons, step, stepWithin,
    decoded_encode, resume, openNames_attach]
  rfl

theorem resume_close (h : Spells lexeme (.close (encode o.name))) :
    (within (o :: outer)).resume (lexeme ++ rest) = (attach outer o.toElement).resume rest := by
  rw [resume, openNames, List.map_cons, Reading.within_close h, run_cons, resume, openNames_attach]
  rfl

/-! ## Constructs without content -/

theorem resume_ignored {event : Event} (h : Spells lexeme event)
    (hevent : event = .declaration ∨ event = .comment ∨ event = .instruction ∨ event = .doctype) :
    (within opened).resume (lexeme ++ rest) = (within opened).resume rest := by
  rw [resume, Reading.within_of_spells h (by rcases hevent with rfl | rfl | rfl | rfl <;> simp)
    (by rcases hevent with rfl | rfl | rfl | rfl <;> simp), run_cons]
  rcases hevent with rfl | rfl | rfl | rfl <;> rfl

theorem resume_ignored_after {event : Event} {root : Element} (h : Spells lexeme event)
    (hevent : event = .comment ∨ event = .instruction) :
    (after root).resume (lexeme ++ rest) = (after root).resume rest := by
  rw [resume, Reading.within_of_spells h (by rcases hevent with rfl | rfl <;> simp)
    (by rcases hevent with rfl | rfl <;> simp), run_cons]
  rcases hevent with rfl | rfl <;> rfl

/-! ## Text -/

theorem resume_cdata {s : String} (h : Spells lexeme (.cdata (encode s))) :
    (within (o :: outer)).resume (lexeme ++ rest) = (append o outer s).resume rest := by
  rw [resume, Reading.within_of_spells h (by simp) (by simp), run_cons, step, stepWithin]
  simp only [decoded_encode]
  rfl

theorem resume_reference {body : String} {c : Char} (h : Spells lexeme (.reference (encode body)))
    (hc : Reference.resolve body = .ok c) :
    (within (o :: outer)).resume (lexeme ++ rest) =
      (append o outer (String.singleton c)).resume rest := by
  rw [resume, Reading.within_of_spells h (by simp) (by simp), run_cons, step, stepWithin]
  simp only [decoded_encode, bind, Except.bind, hc]
  rfl

theorem step_text_open (o : OpenElement) (outer : List OpenElement) (s : String) :
    step (.within (o :: outer)) (.text (encode s)) = .ok (append o outer s) := by
  rw [step, stepWithin]
  simp only [decoded_encode]
  rfl

theorem step_text_nil (progress : Progress) : progress.step (.text []) = .ok progress := by
  match progress with
  | .within [] => rfl
  | .within (o :: outer) =>
    have hstep := step_text_open o outer ""
    rw [append, String.append_empty] at hstep
    exact hstep
  | .after root => rfl

/-- Two runs of characters make the same progress as both of them at once. -/
theorem step_text_append {progress next last : Progress} {xs ys : Bytes}
    (hxs : progress.step (.text xs) = .ok next) (hys : next.step (.text ys) = .ok last) :
    progress.step (.text (xs ++ ys)) = .ok last := by
  have hblank (zs : Bytes) : blankBytes (zs ++ ys) = (blankBytes zs && blankBytes ys) :=
    List.all_append
  match progress with
  | .within [] =>
    simp only [step, stepWithin] at hxs ⊢
    split at hxs
    · next hx => cases hxs; rw [hblank, hx]; exact hys
    · contradiction
  | .within (o :: outer) =>
    cases hx : decode xs with
    | error fault => simp [step, stepWithin, decoded, hx, bind, Except.bind] at hxs
    | ok s =>
      rw [Text.decode_eq_ok_iff] at hx
      subst hx
      rw [step_text_open] at hxs
      cases hxs
      cases hy : decode ys with
      | error fault => simp [step, append, stepWithin, decoded, hy, bind, Except.bind] at hys
      | ok t =>
        rw [Text.decode_eq_ok_iff] at hy
        subst hy
        rw [append, step_text_open] at hys
        cases hys
        rw [← Text.encode_append, step_text_open, append, append, String.append_assoc]
  | .after root =>
    simp only [step, stepAfter] at hxs ⊢
    split at hxs
    · next hx => cases hxs; rw [hblank, hx]; exact hys
    · contradiction

theorem resume_run {progress : Progress} {run more : Bytes}
    (hrun : ∀ b ∈ run, endsText b = false) (hmore : ∀ b ∈ more.head?, endsText b = true) :
    progress.resume (run ++ more) = (progress.step (.text run)).bind fun next =>
      next.run (Reading.within progress.openNames more) := by
  by_cases hne : run = []
  · subst hne
    rw [step_text_nil]
    rfl
  · rw [resume, Reading.within_text hne hrun hmore, run_cons]

/-- Characters in front of an input that can be read to its end. They may join the characters that
the input begins with, so it matters that the input can be read behind them. -/
theorem resume_text {progress next : Progress} {run rest : Bytes} {root : Element}
    (hrun : ∀ b ∈ run, endsText b = false) (hstep : progress.step (.text run) = .ok next)
    (hnames : next.openNames = progress.openNames) (hrest : next.resume rest = .ok root) :
    progress.resume (run ++ rest) = .ok root := by
  obtain ⟨joined, more, rfl, hjoined, hmore⟩ := Reading.exists_run rest
  rw [resume_run hjoined hmore] at hrest
  cases hlast : next.step (.text joined) with
  | error fault => simp [hlast, Except.bind] at hrest
  | ok last =>
    have hboth : ∀ b ∈ run ++ joined, endsText b = false := fun b hb =>
      (List.mem_append.1 hb).elim (hrun b) (hjoined b)
    rw [← List.append_assoc, resume_run hboth hmore, step_text_append hstep hlast, ← hnames]
    rw [hlast] at hrest
    exact hrest

end Progress

end ShareWire
