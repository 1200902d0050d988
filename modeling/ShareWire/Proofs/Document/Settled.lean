import ShareWire.Proofs.Document.Grammar
import ShareWire.Proofs.Markup.Extension

/-!
# Settled parts of a document

A document that can be read to its end falls into a part that is read in the same way whatever stands
behind it, and a run of characters, which may go on.
-/

namespace ShareWire

open Markup (Event Reading Spells endsText readEvent blankBytes)

namespace Progress

variable {progress next : Progress} {lexeme rest : Bytes} {event : Event} {root : Element}

/-- A construct that is part of a readable input makes one step of progress. -/
theorem exists_resume_of_spells (h : Spells lexeme event)
    (hok : progress.resume (lexeme ++ rest) = .ok root) :
    ∃ next : Progress, ∀ more, progress.resume (lexeme ++ more) = next.resume more := by
  obtain ⟨b, tail, rfl, hread⟩ := h
  simp only [List.cons_append, resume] at hok ⊢
  cases hnest : Reading.nest progress.openNames event with
  | none =>
    obtain ⟨fault, hfault⟩ := Reading.within_of_nest_none (hread rest) hnest
    rw [hfault] at hok
    cases hok
  | some names =>
    rw [Reading.within_of_nest (hread rest) hnest, run_cons] at hok
    obtain ⟨next, hstep, -⟩ := exists_of_bind_ok hok
    refine ⟨next, fun more => ?_⟩
    rw [Reading.within_of_nest (hread more) hnest, run_cons, hstep, openNames_of_step hstep hnest]
    rfl

theorem openNames_of_step_text {content : Bytes} (h : progress.step (.text content) = .ok next) :
    next.openNames = progress.openNames :=
  openNames_of_step h rfl

/-- A run of characters that ends inside a readable input makes one step of progress. -/
theorem exists_resume_of_run {run : Bytes} (hrun : ∀ b ∈ run, endsText b = false)
    (hrest : ∀ b ∈ rest.head?, endsText b = true) (hok : progress.resume (run ++ rest) = .ok root) :
    ∃ next : Progress, progress.step (.text run) = .ok next ∧
      ∀ more, (∀ b ∈ more.head?, endsText b = true) →
        progress.resume (run ++ more) = next.resume more := by
  rw [resume_run hrun hrest] at hok
  obtain ⟨next, hstep, -⟩ := exists_of_bind_ok hok
  refine ⟨next, hstep, fun more hmore => ?_⟩
  rw [resume_run hrun hmore, hstep, ← openNames_of_step_text hstep]
  rfl

/-- What comes before the last run of characters of a readable input does not depend on what stands
behind it. -/
theorem exists_settled {progress : Progress} {input : Bytes} (hok : progress.resume input = .ok root) :
    ∃ (front run : Bytes) (next : Progress), input = front ++ run ∧
      (∀ b ∈ run, endsText b = false) ∧
      ∀ more, progress.resume (front ++ more) = next.resume more := by
  obtain ⟨run, rest, hinput, hrun, hrest⟩ := Reading.exists_run input
  rw [hinput] at hok
  cases rest with
  | nil => exact ⟨[], run, progress, by simp [hinput], hrun, fun more => rfl⟩
  | cons b rest =>
    have hb : endsText b = true := hrest b rfl
    obtain ⟨middle, -, hmiddle⟩ := exists_resume_of_run hrun hrest hok
    rw [hmiddle _ hrest] at hok
    cases hread : readEvent b rest with
    | error fault =>
      rw [resume, Reading.within_cons, hread] at hok
      cases hok
    | ok result =>
      obtain ⟨event, after⟩ := result
      obtain ⟨tail, rfl, hspells⟩ := Markup.spells_of_readEvent hb hread
      rw [← List.cons_append] at hok
      obtain ⟨behind, hbehind⟩ := exists_resume_of_spells hspells hok
      have hafter : behind.resume after = .ok root := (hbehind after).symm.trans hok
      have hlength : after.length < input.length := by
        simp only [hinput, List.length_append, List.length_cons]
        omega
      obtain ⟨front, last, next, hfront, hlast, hnext⟩ := exists_settled hafter
      refine ⟨run ++ (b :: tail ++ front), last, next, by simp [hinput, hfront], hlast, fun more => ?_⟩
      have hhead : ∀ c ∈ (b :: tail ++ front ++ more).head?, endsText c = true := by
        simpa using hb
      rw [List.append_assoc, hmiddle _ hhead, List.append_assoc, hbehind, hnext]
termination_by input.length

/-- Behind the last construct of a document the root element is closed, and only white space is left. -/
theorem after_of_resume_run {run : Bytes} (hrun : ∀ b ∈ run, endsText b = false)
    (hok : progress.resume run = .ok root) : progress = .after root ∧ blankBytes run = true := by
  rw [← List.append_nil run, resume_run hrun (by simp), Reading.within_nil] at hok
  obtain ⟨next, hstep, hok⟩ := exists_of_bind_ok hok
  have hnext : next = .after root := by
    match next with
    | .within [] => cases hok
    | .within (_ :: _) => cases hok
    | .after other => exact congrArg Progress.after (Except.ok.inj hok)
  subst hnext
  match progress with
  | .after other =>
    obtain ⟨hblank, hother⟩ := trailing_of_step hstep
    exact ⟨hother.symm, hblank⟩
  | .within [] =>
    rcases leading_of_step hstep with ⟨-, hother⟩ | ⟨name, ⟨hother, -⟩ | ⟨hother, -⟩⟩ <;> cases hother
  | .within (o :: opened) =>
    rcases inner_of_step hstep with
      ⟨-, text, hother⟩ | ⟨name, ⟨hother, -⟩ | ⟨hother, -⟩⟩ | ⟨bytes, hother, -⟩ <;> cases hother

end Progress

end ShareWire
