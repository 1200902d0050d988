import ShareWire.Text.Slice

/-!
# Slices between characters

A slice is there exactly if it can be told by what stands around it: behind characters that take up the bytes
before the first place, and up to the second place.
-/

namespace ShareWire.Text

theorem byteLength_cons (c : Char) (cs : List Char) :
    byteLength (c :: cs) = c.utf8Size + byteLength cs :=
  rfl

theorem byteLength_append (cs ds : List Char) :
    byteLength (cs ++ ds) = byteLength cs + byteLength ds := by
  induction cs with
  | nil => exact (Nat.zero_add _).symm
  | cons c cs ih => rw [List.cons_append, byteLength_cons, byteLength_cons, ih, Nat.add_assoc]

theorem byteLength_eq_zero_iff {cs : List Char} : byteLength cs = 0 ↔ cs = [] := by
  cases cs with
  | nil => simp [byteLength]
  | cons c cs =>
    have hpos := c.utf8Size_pos
    rw [byteLength_cons]
    exact iff_of_false (by omega) (List.cons_ne_nil c cs)

theorem splitAtPlace?_zero_eq_some_iff {cs before behind : List Char} :
    splitAtPlace? 0 cs = some (before, behind) ↔ cs = before ++ behind ∧ byteLength before = 0 := by
  simp only [splitAtPlace?, Option.some.injEq, Prod.mk.injEq, byteLength_eq_zero_iff]
  constructor
  · rintro ⟨rfl, rfl⟩
    exact ⟨rfl, rfl⟩
  · rintro ⟨hcs, rfl⟩
    exact ⟨rfl, hcs⟩

theorem splitAtPlace?_eq_some_iff {place : Nat} {cs before behind : List Char} :
    splitAtPlace? place cs = some (before, behind) ↔
      cs = before ++ behind ∧ byteLength before = place := by
  induction cs generalizing place before with
  | nil =>
    cases place with
    | zero => exact splitAtPlace?_zero_eq_some_iff
    | succ place =>
      refine iff_of_false (by simp [splitAtPlace?]) ?_
      rintro ⟨hnil, hlength⟩
      obtain ⟨rfl, -⟩ := List.append_eq_nil_iff.1 hnil.symm
      contradiction
  | cons c cs ih =>
    cases place with
    | zero => exact splitAtPlace?_zero_eq_some_iff
    | succ place =>
      have hpos := c.utf8Size_pos
      rw [splitAtPlace?]
      cases before with
      | nil =>
        refine iff_of_false ?_ fun h => absurd h.2 (Nat.succ_ne_zero place).symm
        split <;> simp
      | cons d before =>
        rw [byteLength_cons, List.cons_append, List.cons.injEq]
        split
        · next hle =>
          rw [Option.map_eq_some_iff]
          constructor
          · rintro ⟨⟨first, rest⟩, hsplit, hpair⟩
            obtain ⟨⟨rfl, rfl⟩, rfl⟩ : (c = d ∧ first = before) ∧ rest = behind := by simpa using hpair
            obtain ⟨hcs, hlength⟩ := ih.1 hsplit
            exact ⟨⟨rfl, hcs⟩, by omega⟩
          · rintro ⟨⟨rfl, hcs⟩, hlength⟩
            exact ⟨(before, behind), ih.2 ⟨hcs, by omega⟩, rfl⟩
        · next hgt =>
          refine iff_of_false nofun ?_
          rintro ⟨⟨rfl, -⟩, hlength⟩
          omega

/-- The second text stands in the first one from one place to another. -/
def Slices (text slice : List Char) (start stop : Nat) : Prop :=
  ∃ before behind, text = before ++ slice ++ behind ∧
    byteLength before = start ∧ byteLength (before ++ slice) = stop

theorem slice?_eq_some_iff {text slice : List Char} {start stop : Nat} :
    slice? text start stop = some slice ↔ Slices text slice start stop := by
  simp only [slice?, Slices, bind, pure, Option.bind_eq_some_iff, Prod.exists,
    splitAtPlace?_eq_some_iff, Option.some.injEq]
  constructor
  · rintro ⟨upTo, behind, ⟨rfl, hstop⟩, before, slice, ⟨rfl, hstart⟩, rfl⟩
    exact ⟨before, behind, rfl, hstart, hstop⟩
  · rintro ⟨before, behind, rfl, hstart, hstop⟩
    exact ⟨before ++ slice, behind, ⟨rfl, hstop⟩, before, slice, ⟨rfl, hstart⟩, rfl⟩

/-- A slice has the bytes between its places. -/
theorem Slices.byteLength_eq {text slice : List Char} {start stop : Nat}
    (h : Slices text slice start stop) : start + byteLength slice = stop := by
  obtain ⟨before, behind, -, rfl, rfl⟩ := h
  exact (byteLength_append before slice).symm

/-! ## Texts of single bytes -/

theorem exists_append_of_le {cs : List Char} {place : Nat} (hwidth : ∀ c ∈ cs, c.utf8Size = 1)
    (hle : place ≤ byteLength cs) : ∃ before behind, cs = before ++ behind ∧ byteLength before = place := by
  induction cs generalizing place with
  | nil => exact ⟨[], [], rfl, (Nat.le_zero.1 hle).symm⟩
  | cons c cs ih =>
    obtain ⟨hc, hcs⟩ := List.forall_mem_cons.1 hwidth
    cases place with
    | zero => exact ⟨[], c :: cs, rfl, rfl⟩
    | succ place =>
      rw [byteLength_cons, hc] at hle
      have hplace : place ≤ byteLength cs := by omega
      obtain ⟨before, behind, rfl, hbefore⟩ := ih hcs hplace
      exact ⟨c :: before, behind, rfl, by rw [byteLength_cons, hc, hbefore, Nat.add_comm]⟩

theorem exists_slices_of_le {text : List Char} {start stop : Nat} (hwidth : ∀ c ∈ text, c.utf8Size = 1)
    (hle : start ≤ stop) (hstop : stop ≤ byteLength text) : ∃ slice, Slices text slice start stop := by
  obtain ⟨upTo, behind, htext, rfl⟩ := exists_append_of_le hwidth hstop
  have hupTo : ∀ c ∈ upTo, c.utf8Size = 1 := fun c hc => hwidth c (by simp [htext, hc])
  obtain ⟨before, slice, rfl, rfl⟩ := exists_append_of_le hupTo hle
  exact ⟨slice, before, behind, htext, rfl, rfl⟩

end ShareWire.Text
