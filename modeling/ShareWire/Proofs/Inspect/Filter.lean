import ShareWire.Inspect.Filter
import ShareWire.Proofs.Inspect.Directive
import ShareWire.Proofs.Text.Commas

/-!
# Following filters

What becomes of a filter, by the grammar of its directives. Main statements: a filter is followed strictly exactly
if all of its directives can be followed, and leniently exactly if none of them is cut inside a character.
-/

namespace ShareWire.Inspect

/-- The directives of a filter are the parts between its commas that are not empty. -/
def Lists (filter : String) (directives : List (List Char)) : Prop :=
  ∃ parts : List (List Char), parts ≠ [] ∧ (∀ part ∈ parts, ',' ∉ part) ∧
    filter.toList = [','].intercalate parts ∧ directives = parts.filter (· ≠ [])

theorem lists_iff {filter : String} {list : List (List Char)} :
    Lists filter list ↔ directives filter = list := by
  have hempty (parts : List (List Char)) :
      (parts.filter fun part => !part.isEmpty) = parts.filter (· ≠ []) :=
    List.filter_congr fun part _ => by cases part <;> rfl
  rw [directives, Text.splitAtCommas_eq, hempty]
  constructor
  · rintro ⟨parts, hne, hcommas, hfilter, rfl⟩
    rw [hfilter, List.splitOn_intercalate ',' hcommas hne]
  · rintro rfl
    refine ⟨_, List.splitOn_ne_nil ',' _, fun part hpart => ?_, ?_, rfl⟩
    · rw [← Text.splitAtCommas_eq] at hpart
      exact Text.comma_not_mem_of_mem_splitAtCommas hpart
    · exact (List.intercalate_splitOn ',').symm

/-! ## Strictly -/

/-- The first directive of a list that cannot be followed. -/
def FirstObstacle (list : List (List Char)) (directive : List Char) : Prop :=
  ∃ before after, list = before ++ directive :: after ∧ (∀ d ∈ before, Followed d) ∧ ¬ Followed directive

theorem checkDirectives_cons (directive : List Char) (list : List (List Char)) :
    checkDirectives (directive :: list) = checkDirective directive >>= fun _ => checkDirectives list :=
  rfl

theorem checkDirectives_eq_ok_iff {list : List (List Char)} :
    checkDirectives list = .ok () ↔ ∀ d ∈ list, Followed d := by
  induction list with
  | nil => exact iff_of_true rfl (List.forall_mem_nil _)
  | cons directive list ih =>
    rw [List.forall_mem_cons, ← ih, ← checkDirective_eq_ok_iff, checkDirectives_cons]
    constructor
    · intro h
      obtain ⟨_, hfirst, hrest⟩ := exists_of_bind_ok h
      exact ⟨hfirst, hrest⟩
    · rintro ⟨hfirst, hrest⟩
      exact bind_ok hfirst hrest

theorem checkDirectives_eq_error_iff {list : List (List Char)} {obstacle : Obstacle} :
    checkDirectives list = .error obstacle ↔
      ∃ directive, FirstObstacle list directive ∧ checkDirective directive = .error obstacle := by
  constructor
  · intro h
    induction list with
    | nil => cases h
    | cons directive list ih =>
      rcases bind_error_iff.1 h with hfirst | ⟨_, hfirst, hrest⟩
      · have hnot : ¬ Followed directive := fun hfollowed =>
          nomatch hfirst.symm.trans hfollowed.checkDirective_eq
        exact ⟨directive, ⟨[], list, rfl, List.forall_mem_nil _, hnot⟩, hfirst⟩
      · obtain ⟨next, ⟨before, after, rfl, hbefore, hnot⟩, hcheck⟩ := ih hrest
        have hfollowed := checkDirective_eq_ok_iff.1 hfirst
        exact ⟨next, ⟨directive :: before, after, rfl, List.forall_mem_cons.2 ⟨hfollowed, hbefore⟩, hnot⟩,
          hcheck⟩
  · rintro ⟨directive, ⟨before, after, rfl, hbefore, -⟩, hcheck⟩
    induction before with
    | nil =>
      rw [List.nil_append, checkDirectives_cons, hcheck]
      rfl
    | cons first before ih =>
      obtain ⟨hfirst, hbefore⟩ := List.forall_mem_cons.1 hbefore
      rw [List.cons_append, checkDirectives_cons, hfirst.checkDirective_eq]
      exact ih hbefore

/-! ## Leniently -/

/-- What is noted of directives, one behind the other. -/
inductive Noted : List (List Char) → String → Prop where
  | nil : Noted [] ""
  | followed {directive : List Char} {list : List (List Char)} {notes : String} : Followed directive →
      Noted list notes → Noted (directive :: list) notes
  | faulty {directive : List Char} {fault : DirectiveFault} {list : List (List Char)} {notes : String} :
      Faulty directive fault → Noted list notes → Noted (directive :: list) (note directive fault ++ notes)

/-- What is noted of directives before one that is cut. -/
def NotedUntilCut (list : List (List Char)) (notes : String) : Prop :=
  ∃ before directive after, list = before ++ directive :: after ∧ Noted before notes ∧ Cut directive

theorem Noted.noteDirectives_append {before : List (List Char)} {notes : String} (h : Noted before notes)
    (noted : String) (rest : List (List Char)) :
    noteDirectives noted (before ++ rest) = noteDirectives (noted ++ notes) rest := by
  induction h generalizing noted with
  | nil => rw [String.append_empty]; rfl
  | followed hfirst _ ih =>
    rw [List.cons_append, noteDirectives, hfirst.checkDirective_eq]
    exact ih noted
  | faulty hfirst _ ih =>
    rw [List.cons_append, noteDirectives, checkDirective_eq_fault_iff.2 hfirst, ← String.append_assoc]
    exact ih _

theorem noted_or_notedUntilCut (list : List (List Char)) :
    (∃ notes, Noted list notes) ∨ ∃ notes, NotedUntilCut list notes := by
  induction list with
  | nil => exact .inl ⟨_, .nil⟩
  | cons directive list ih =>
    cases hcheck : checkDirective directive with
    | ok =>
      have hfollowed := checkDirective_eq_ok_iff.1 hcheck
      refine ih.imp (fun ⟨notes, h⟩ => ⟨notes, .followed hfollowed h⟩) ?_
      rintro ⟨notes, before, cut, after, rfl, hnoted, hcut⟩
      exact ⟨notes, directive :: before, cut, after, rfl, .followed hfollowed hnoted, hcut⟩
    | error obstacle =>
      cases obstacle with
      | cut => exact .inr ⟨"", [], directive, list, rfl, .nil, checkDirective_eq_cut_iff.1 hcheck⟩
      | fault fault =>
        have hfaulty := checkDirective_eq_fault_iff.1 hcheck
        refine ih.imp (fun ⟨notes, h⟩ => ⟨_, .faulty hfaulty h⟩) ?_
        rintro ⟨notes, before, cut, after, rfl, hnoted, hcut⟩
        exact ⟨_, directive :: before, cut, after, rfl, .faulty hfaulty hnoted, hcut⟩

theorem Noted.noteDirectives_eq {list : List (List Char)} {notes : String} (h : Noted list notes) :
    noteDirectives "" list = .ok notes := by
  have hnotes := h.noteDirectives_append "" []
  rwa [List.append_nil, String.empty_append] at hnotes

theorem NotedUntilCut.noteDirectives_eq {list : List (List Char)} {notes : String}
    (h : NotedUntilCut list notes) : noteDirectives "" list = .error notes := by
  obtain ⟨before, directive, after, rfl, hnoted, hcut⟩ := h
  rw [hnoted.noteDirectives_append, String.empty_append, noteDirectives, hcut.checkDirective_eq]

end ShareWire.Inspect
