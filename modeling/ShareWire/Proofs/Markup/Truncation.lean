import ShareWire.Proofs.Markup.Extension
import ShareWire.Proofs.Markup.Reading

/-!
# Inputs cut short

An input that can be read to its end is a row of constructs and runs of characters. Cut short anywhere,
it is read as the same events up to the cut, where it ends in a fault or in a shorter run of
characters.
-/

namespace ShareWire.Markup

open Reading (nest within within_of_nest within_of_nest_none within_spells within_text)

/-- Inputs that are read to their end, with their events, inside the elements whose names are given. -/
inductive Reads : List Bytes → Bytes → List Event → Prop where
  | nil {opened : List Bytes} : Reads opened [] []
  | construct {opened names : List Bytes} {b : UInt8} {tail rest : Bytes} {event : Event}
      {events : List Event} : endsText b = true → Spells (b :: tail) event →
      nest opened event = some names → Reads names rest events →
      Reads opened (b :: tail ++ rest) (event :: events)
  | characters {opened : List Bytes} {run more : Bytes} {events : List Event} : run ≠ [] →
      (∀ b ∈ run, endsText b = false) → (∀ b ∈ more.head?, endsText b = true) →
      Reads opened more events → Reads opened (run ++ more) (.text run :: events)

variable {opened : List Bytes} {input left : Bytes} {events : List Event}

theorem within_of_reads (h : Reads opened input events) : within opened input = ⟨events, none⟩ := by
  induction h with
  | nil => exact Reading.within_nil _
  | construct _ hspells hnest _ ih =>
    rw [within_spells hspells hnest, ih]
    rfl
  | characters hne hrun hmore _ ih =>
    rw [within_text hne hrun hmore, ih]
    rfl

theorem Reading.of_cons_eq {event : Event} {reading : Reading}
    (h : reading.cons event = ⟨events, none⟩) :
    ∃ more, events = event :: more ∧ reading = ⟨more, none⟩ := by
  obtain ⟨events', fault⟩ := reading
  cases h
  exact ⟨events', rfl, rfl⟩

theorem reads_of_within {opened : List Bytes} {input : Bytes} {events : List Event}
    (h : within opened input = ⟨events, none⟩) : Reads opened input events := by
  obtain ⟨run, rest, hinput, hrun, hrest⟩ := Reading.exists_run input
  rcases List.eq_nil_or_concat run with rfl | ⟨_, _, hconcat⟩
  · match rest, hrest with
    | [], _ =>
      rw [hinput, List.nil_append, Reading.within_nil] at h
      cases h
      rw [hinput]
      exact .nil
    | b :: rest, hrest =>
      have hb : endsText b = true := hrest b rfl
      rw [List.nil_append] at hinput
      rw [hinput] at h ⊢
      cases hread : readEvent b rest with
      | error fault =>
        rw [Reading.within_cons, hread] at h
        cases h
      | ok result =>
        obtain ⟨event, after⟩ := result
        cases hnest : nest opened event with
        | none =>
          obtain ⟨fault, hfault⟩ := within_of_nest_none hread hnest
          rw [hfault] at h
          cases h
        | some names =>
          rw [within_of_nest hread hnest] at h
          obtain ⟨more, rfl, hmore⟩ := Reading.of_cons_eq h
          have hlength : after.length < input.length := by
            have := readEvent_length hread
            rw [hinput, List.length_cons]
            omega
          obtain ⟨tail, rfl, hspells⟩ := spells_of_readEvent hb hread
          exact .construct hb hspells hnest (reads_of_within hmore)
  · have hne : run ≠ [] := by simp [hconcat]
    rw [hinput, within_text hne hrun hrest] at h
    obtain ⟨more, rfl, hmore⟩ := Reading.of_cons_eq h
    have hlength : rest.length < input.length := by
      have := List.length_pos_of_ne_nil hne
      rw [hinput, List.length_append]
      omega
    rw [hinput]
    exact .characters hne hrun hrest (reads_of_within hmore)
termination_by input.length

theorem reads_iff : Reads opened input events ↔ within opened input = ⟨events, none⟩ :=
  ⟨within_of_reads, reads_of_within⟩

/-! ## Cuts -/

/-- How what is left of a row of events is read: the events up to some place, and there nothing, a fault,
or a part of the run of characters that stood there. -/
inductive Cut : List Event → Reading → Prop where
  | stop {events : List Event} : Cut events ⟨[], none⟩
  | fault {events : List Event} (fault : MarkupError) : Cut events ⟨[], some fault⟩
  | characters {run part : Bytes} {events : List Event} : part <+: run →
      Cut (.text run :: events) ⟨[.text part], none⟩
  | cons {event : Event} {events : List Event} {reading : Reading} : Cut events reading →
      Cut (event :: events) (reading.cons event)

/-- A construct that lacks some of its last bytes is a fault. -/
theorem Spells.exists_fault {b : UInt8} {part missing : Bytes} {event : Event}
    (h : Spells (b :: (part ++ missing)) event) (hb : endsText b = true) (hmissing : missing ≠ []) :
    ∃ fault, readEvent b part = .error fault := by
  cases hread : readEvent b part with
  | error fault => exact ⟨fault, rfl⟩
  | ok result =>
    exfalso
    obtain ⟨other, after⟩ := result
    -- What was read in the part would also be read in the whole, and leave something behind.
    obtain ⟨tail, rfl, c, tail', hlexeme, hpart⟩ := spells_of_readEvent hb hread
    obtain ⟨rfl, rfl⟩ := List.cons.inj hlexeme
    obtain ⟨c, tail', hlexeme, hwhole⟩ := h
    obtain ⟨rfl, rfl⟩ := List.cons.inj hlexeme
    have hboth := (hpart (after ++ missing)).symm.trans (by simpa using hwhole [])
    have hrest : after ++ missing = [] := congrArg Prod.snd (Except.ok.inj hboth)
    exact hmissing (List.append_eq_nil_iff.1 hrest).2

theorem mem_head?_of_isPrefix {α : Type} {xs ys : List α} {a : α} (h : xs <+: ys)
    (ha : a ∈ xs.head?) : a ∈ ys.head? := by
  obtain ⟨more, rfl⟩ := h
  rw [List.head?_append, Option.mem_def.1 ha]
  rfl

/-- An input that is cut short is read as its events up to the cut. -/
theorem Reads.cut (h : Reads opened input events) (hleft : left <+: input) :
    Cut events (within opened left) := by
  induction h generalizing left with
  | nil =>
    rw [List.prefix_nil.1 hleft, Reading.within_nil]
    exact .stop
  | @construct opened names b tail rest event events hb hspells hnest _ ih =>
    by_cases hlong : (b :: tail).length ≤ left.length
    · obtain ⟨more, rfl⟩ := List.prefix_of_prefix_length_le (List.prefix_append _ _) hleft hlong
      rw [within_spells hspells hnest]
      exact .cons (ih ((List.prefix_append_right_inj _).1 hleft))
    · obtain ⟨missing, hmissing⟩ := List.prefix_of_prefix_length_le hleft
        (List.prefix_append _ _) (by omega)
      cases left with
      | nil =>
        rw [Reading.within_nil]
        exact .stop
      | cons c part =>
        obtain ⟨rfl, rfl⟩ := List.cons.inj hmissing
        have hne : missing ≠ [] := by
          rintro rfl
          simp at hlong
        obtain ⟨fault, hfault⟩ := hspells.exists_fault hb hne
        rw [Reading.within_cons, hfault]
        exact .fault fault
  | @characters opened run more events hne hrun hmore _ ih =>
    by_cases hlong : run.length ≤ left.length
    · obtain ⟨more', rfl⟩ := List.prefix_of_prefix_length_le (List.prefix_append _ _) hleft hlong
      have hleft := (List.prefix_append_right_inj _).1 hleft
      have hhead : ∀ b ∈ more'.head?, endsText b = true := fun b hb =>
        hmore b (mem_head?_of_isPrefix hleft hb)
      rw [within_text hne hrun hhead]
      exact .cons (ih hleft)
    · have hpart := List.prefix_of_prefix_length_le hleft (List.prefix_append _ _) (by omega)
      by_cases hnil : left = []
      · rw [hnil, Reading.within_nil]
        exact .stop
      · have hread : within opened (left ++ []) = (within opened []).cons (.text left) :=
          within_text hnil (fun b hb => hrun b (hpart.subset hb)) (by simp) opened
        rw [List.append_nil, Reading.within_nil] at hread
        rw [hread]
        exact .characters hpart

/-- An input can be cut behind every one of its events. -/
theorem Reads.exists_cut {first last : List Event} (h : Reads opened input (first ++ last)) :
    ∃ front, front <+: input ∧ Reads opened front first := by
  generalize hevents : first ++ last = events at h
  induction h generalizing first with
  | nil =>
    obtain ⟨rfl, -⟩ := List.append_eq_nil_iff.1 hevents
    exact ⟨[], List.prefix_rfl, .nil⟩
  | construct hb hspells hnest _ ih =>
    cases first with
    | nil => exact ⟨[], List.nil_prefix, .nil⟩
    | cons event first =>
      obtain ⟨rfl, hrest⟩ := List.cons.inj hevents
      obtain ⟨front, hfront, hreads⟩ := ih hrest
      exact ⟨_, (List.prefix_append_right_inj _).2 hfront, .construct hb hspells hnest hreads⟩
  | characters hne hrun hmore _ ih =>
    cases first with
    | nil => exact ⟨[], List.nil_prefix, .nil⟩
    | cons event first =>
      obtain ⟨rfl, hrest⟩ := List.cons.inj hevents
      obtain ⟨front, hfront, hreads⟩ := ih hrest
      exact ⟨_, (List.prefix_append_right_inj _).2 hfront,
        .characters hne hrun (fun b hb => hmore b (mem_head?_of_isPrefix hfront hb)) hreads⟩

end ShareWire.Markup
