/-!
# Keyed lists

Two ways to keep values under distinct texts: in the order in which the keys first came, and in
ascending order of the keys.
-/

namespace ShareWire

/-- Puts a value under a key: in place of the value that is there, or at the end. -/
def upsert {α : Type} (key : String) (value : α) : List (String × α) → List (String × α)
  | [] => [(key, value)]
  | (k, v) :: rest => if k = key then (key, value) :: rest else (k, v) :: upsert key value rest

theorem mem_keys_upsert {α : Type} {key k : String} {value : α} {l : List (String × α)} :
    k ∈ (upsert key value l).map Prod.fst ↔ k = key ∨ k ∈ l.map Prod.fst := by
  induction l with
  | nil => simp [upsert]
  | cons p rest ih =>
    obtain ⟨a, v⟩ := p
    by_cases h : a = key
    · subst h; simp [upsert]
    · simp [upsert, h] at ih ⊢
      rw [ih]
      constructor <;> (rintro (h | h | h) <;> simp_all)

theorem nodup_upsert {α : Type} {key : String} {value : α} {l : List (String × α)}
    (h : (l.map Prod.fst).Nodup) : ((upsert key value l).map Prod.fst).Nodup := by
  induction l with
  | nil => simp [upsert]
  | cons p rest ih =>
    obtain ⟨a, v⟩ := p
    simp only [List.map_cons, List.nodup_cons] at h
    by_cases hk : a = key
    · subst hk; simpa [upsert] using h
    · rw [upsert, if_neg hk, List.map_cons, List.nodup_cons, mem_keys_upsert]
      exact ⟨fun hm => hm.elim hk h.1, ih h.2⟩

/-- Puts a value under a key into a list with ascending keys: in place of the value that is there, or
before the first greater key. -/
def insertAscending {α : Type} (key : String) (value : α) : List (String × α) → List (String × α)
  | [] => [(key, value)]
  | (k, v) :: rest =>
    if k < key then (k, v) :: insertAscending key value rest
    else if k = key then (key, value) :: rest
    else (key, value) :: (k, v) :: rest

theorem mem_keys_insertAscending {α : Type} {key k : String} {value : α}
    {l : List (String × α)} :
    k ∈ (insertAscending key value l).map Prod.fst ↔ k = key ∨ k ∈ l.map Prod.fst := by
  induction l with
  | nil => simp [insertAscending]
  | cons p rest ih =>
    obtain ⟨a, v⟩ := p
    by_cases h : a < key
    · simp [insertAscending, h] at ih ⊢
      rw [ih]
      constructor <;> (rintro (h | h | h) <;> simp_all)
    · by_cases hk : a = key
      · subst hk; simp [insertAscending]
      · simp [insertAscending, h, hk]

theorem ascending_insertAscending {α : Type} {key : String} {value : α}
    {l : List (String × α)} (h : (l.map Prod.fst).Pairwise (· < ·)) :
    ((insertAscending key value l).map Prod.fst).Pairwise (· < ·) := by
  induction l with
  | nil => simp [insertAscending]
  | cons p rest ih =>
    obtain ⟨a, v⟩ := p
    simp only [List.map_cons, List.pairwise_cons] at h
    by_cases hl : a < key
    · simp only [insertAscending, hl, if_true, List.map_cons, List.pairwise_cons]
      refine ⟨fun b hb => ?_, ih h.2⟩
      rcases mem_keys_insertAscending.1 hb with rfl | hb
      · exact hl
      · exact h.1 b hb
    · by_cases hk : a = key
      · subst hk
        simpa [insertAscending, hl] using h
      · have hlt : key < a := by
          have hle : key ≤ a := String.not_lt.1 hl
          by_cases hlt : key < a
          · exact hlt
          · exact absurd (String.le_antisymm (String.not_lt.1 hlt) hle) hk
        simp only [insertAscending, hl, hk, if_false, List.map_cons, List.pairwise_cons]
        refine ⟨fun b hb => ?_, h.1, h.2⟩
        rcases List.mem_cons.1 hb with rfl | hb
        · exact hlt
        · exact String.lt_trans hlt (h.1 b hb)

end ShareWire
