import Mathlib.Data.List.Nodup
import ShareWire.Http.Headers

/-!
# Walking a header map

A walk has all fields of the map, brings the values of a name together and keeps their order. Fields
whose names do not matter can be left out before the walk or after it.
-/

namespace ShareWire.Http

namespace Headers

theorem mem_firstOfEach {seen : List HeaderName} {fields : List (HeaderName × HeaderValue)}
    {name : HeaderName} :
    name ∈ firstOfEach seen fields ↔ name ∉ seen ∧ name ∈ fields.map Prod.fst := by
  induction fields generalizing seen with
  | nil => simp [firstOfEach]
  | cons field rest ih =>
    obtain ⟨first, value⟩ := field
    rw [firstOfEach]
    split
    · next hseen =>
      rw [ih, List.map_cons, List.mem_cons]
      refine and_congr_right fun hname => ⟨.inr, fun h => h.resolve_left ?_⟩
      rintro rfl
      exact hname hseen
    · next hseen =>
      rw [List.mem_cons, ih, List.map_cons, List.mem_cons, List.mem_cons, not_or]
      by_cases hfirst : name = first
      · subst hfirst
        simp [hseen]
      · simp [hfirst]

theorem nodup_firstOfEach (seen : List HeaderName) (fields : List (HeaderName × HeaderValue)) :
    (firstOfEach seen fields).Nodup := by
  induction fields generalizing seen with
  | nil => exact List.nodup_nil
  | cons field rest ih =>
    rw [firstOfEach]
    split
    · exact ih seen
    · exact List.nodup_cons.2 ⟨fun h => (mem_firstOfEach.1 h).1 List.mem_cons_self, ih _⟩

/-- Names that are left out of the fields are left out of the names. Which of them count as seen
makes no difference. -/
theorem firstOfEach_filter (keep : HeaderName → Bool) {seen seen' : List HeaderName}
    (fields : List (HeaderName × HeaderValue))
    (hseen : ∀ name, keep name = true → (name ∈ seen ↔ name ∈ seen')) :
    firstOfEach seen (fields.filter fun field => keep field.1) =
      (firstOfEach seen' fields).filter keep := by
  induction fields generalizing seen seen' with
  | nil => rfl
  | cons field rest ih =>
    obtain ⟨first, value⟩ := field
    by_cases hkeep : keep first = true
    · have hcons : ∀ name, keep name = true → (name ∈ first :: seen ↔ name ∈ first :: seen') :=
        fun name hname => by rw [List.mem_cons, List.mem_cons, hseen name hname]
      rw [List.filter_cons, if_pos hkeep, firstOfEach, firstOfEach]
      by_cases hfirst : first ∈ seen
      · rw [if_pos hfirst, if_pos ((hseen first hkeep).1 hfirst), ih hseen]
      · rw [if_neg hfirst, if_neg fun h => hfirst ((hseen first hkeep).2 h), ih hcons,
          List.filter_cons_of_pos hkeep]
    · rw [List.filter_cons, if_neg hkeep, firstOfEach]
      split
      · exact ih hseen
      · rw [List.filter_cons_of_neg hkeep]
        refine ih fun name hname => (hseen name hname).trans ?_
        have hne : name ≠ first := by
          rintro rfl
          exact hkeep hname
        simp [hne]

def fieldsOf (h : Headers) (name : HeaderName) : List (HeaderName × HeaderValue) :=
  h.fields.filter fun field => field.1 = name

theorem map_values (h : Headers) (name : HeaderName) :
    (h.values name).map (fun value => (name, value)) = h.fieldsOf name := by
  rw [values, List.map_map]
  refine (List.map_congr_left fun field hfield => ?_).trans (List.map_id _)
  have hname : field.1 = name := by simpa using (List.mem_filter.1 hfield).2
  exact Prod.ext hname.symm rfl

theorem walk_eq_flatMap (h : Headers) : h.walk = h.names.flatMap h.fieldsOf :=
  List.flatMap_congr fun name _ => h.map_values name

variable {h : Headers}

/-- A walk and the map have the same fields. -/
theorem mem_walk {field : HeaderName × HeaderValue} : field ∈ h.walk ↔ field ∈ h.fields := by
  rw [walk_eq_flatMap, List.mem_flatMap]
  constructor
  · rintro ⟨name, -, hfield⟩
    exact (List.mem_filter.1 hfield).1
  · intro hfield
    refine ⟨field.1, mem_firstOfEach.2 ⟨List.not_mem_nil, List.mem_map_of_mem hfield⟩, ?_⟩
    exact List.mem_filter.2 ⟨hfield, decide_eq_true rfl⟩

theorem filter_fieldsOf (h : Headers) (keep : HeaderName → Bool) (name : HeaderName) :
    (h.fieldsOf name).filter (fun field => keep field.1) =
      if keep name = true then h.fieldsOf name else [] := by
  have hname : ∀ field ∈ h.fieldsOf name, field.1 = name := fun field hfield => by
    simpa using (List.mem_filter.1 hfield).2
  split
  · next hkeep =>
    refine List.filter_eq_self.2 fun field hfield => ?_
    rw [hname field hfield, hkeep]
  · next hkeep =>
    refine List.filter_eq_nil_iff.2 fun field hfield => ?_
    rw [hname field hfield]
    exact hkeep

theorem flatMap_ite {α β : Type} (keep : α → Bool) (f : α → List β) (xs : List α) :
    xs.flatMap (fun a => if keep a = true then f a else []) = (xs.filter keep).flatMap f := by
  induction xs with
  | nil => rfl
  | cons a xs ih =>
    rw [List.flatMap_cons, ih]
    by_cases ha : keep a = true
    · rw [if_pos ha, List.filter_cons_of_pos ha, List.flatMap_cons]
    · rw [if_neg ha, List.filter_cons_of_neg ha, List.nil_append]

theorem filter_walk_eq_flatMap (h : Headers) (keep : HeaderName → Bool) :
    (h.walk.filter fun field => keep field.1) = (h.names.filter keep).flatMap h.fieldsOf := by
  rw [walk_eq_flatMap, List.filter_flatMap]
  simp only [filter_fieldsOf]
  exact flatMap_ite keep h.fieldsOf h.names

/-- Fields that are left out of the map are left out of the walk, and nothing else changes. -/
theorem walk_filter (h : Headers) (keep : HeaderName → Bool) :
    walk ⟨h.fields.filter fun field => keep field.1⟩ = h.walk.filter fun field => keep field.1 := by
  have hfields (name : HeaderName) (hname : keep name = true) :
      fieldsOf ⟨h.fields.filter fun field => keep field.1⟩ name = h.fieldsOf name := by
    rw [fieldsOf, List.filter_filter]
    refine List.filter_congr fun field _ => ?_
    by_cases hfield : field.1 = name
    · simp [hfield, hname]
    · simp [hfield]
  rw [filter_walk_eq_flatMap, walk_eq_flatMap, names, names,
    firstOfEach_filter keep h.fields fun _ _ => Iff.rfl]
  exact List.flatMap_congr fun name hname => hfields name (List.mem_filter.1 hname).2

/-- The fields of one name stand in a walk in their order. -/
theorem filter_walk (h : Headers) (name : HeaderName) :
    (h.walk.filter fun field => field.1 = name) = h.fieldsOf name := by
  rw [filter_walk_eq_flatMap h fun other => other = name, List.filter_eq]
  by_cases hname : name ∈ h.names
  · have hnodup : h.names.Nodup := nodup_firstOfEach [] h.fields
    rw [List.count_eq_one_of_mem hnodup hname]
    exact List.flatMap_singleton ..
  · have hnone : h.fieldsOf name = [] := by
      refine List.filter_eq_nil_iff.2 fun field hfield hown => hname ?_
      rw [← of_decide_eq_true hown]
      exact mem_firstOfEach.2 ⟨List.not_mem_nil, List.mem_map_of_mem hfield⟩
    rw [List.count_eq_zero_of_not_mem hname, hnone]
    rfl

end Headers

end ShareWire.Http
