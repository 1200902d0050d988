import Mathlib.Data.List.Induction
import ShareWire.Metadata

/-!
# Looking up metadata

An entry that was put under a name is found there until another one takes its place.
-/

namespace ShareWire

theorem lookup_cons_ite {α : Type} (k key : String) (value : α) (rest : List (String × α)) :
    ((key, value) :: rest).lookup k = if k = key then some value else rest.lookup k := by
  rw [List.lookup_cons]
  by_cases hk : k = key
  · simp [hk]
  · rw [beq_eq_false_iff_ne.2 hk, if_neg hk]

theorem lookup_upsert {α : Type} (key : String) (value : α) (l : List (String × α)) (k : String) :
    (upsert key value l).lookup k = if k = key then some value else l.lookup k := by
  induction l with
  | nil => exact lookup_cons_ite k key value []
  | cons entry rest ih =>
    obtain ⟨a, v⟩ := entry
    rw [upsert]
    split
    · next ha =>
      subst ha
      rw [lookup_cons_ite, lookup_cons_ite]
      split <;> rfl
    · next ha =>
      rw [lookup_cons_ite, lookup_cons_ite, ih]
      by_cases hk : k = a
      · rw [if_pos hk, if_pos hk, if_neg (hk ▸ ha)]
      · rw [if_neg hk, if_neg hk]

namespace Metadata

theorem get?_insert (m : Metadata) (name text key : String) :
    (m.insert name text).get? key = if key = name then some text else m.get? key :=
  lookup_upsert name text m.entries key

/-- Of the texts of a name, the last one stays. -/
theorem get?_ofList (entries : List (String × String)) (name : String) :
    (ofList entries).get? name =
      ((entries.filter fun entry => entry.1 = name).getLast?).map Prod.snd := by
  induction entries using List.reverseRecOn with
  | nil => rfl
  | append_singleton entries entry ih =>
    have hlast : ofList (entries ++ [entry]) = (ofList entries).insert entry.1 entry.2 :=
      List.foldl_append
    rw [hlast, get?_insert, ih, List.filter_append]
    by_cases h : entry.1 = name
    · simp [h]
    · simp [h, Ne.symm h]

/-- A new name comes last. -/
theorem upsert_of_not_mem {α : Type} {key : String} (value : α) {l : List (String × α)}
    (h : key ∉ l.map Prod.fst) : upsert key value l = l ++ [(key, value)] := by
  induction l with
  | nil => rfl
  | cons entry rest ih =>
    obtain ⟨hentry, hrest⟩ := not_or.1 (mt List.mem_cons.2 h)
    rw [upsert, if_neg (Ne.symm hentry), ih hrest]
    rfl

theorem entries_foldl_insert (m : Metadata) {more : List (String × String)}
    (h : ((m.entries ++ more).map Prod.fst).Nodup) :
    (more.foldl (fun m entry => m.insert entry.1 entry.2) m).entries = m.entries ++ more := by
  induction more generalizing m with
  | nil => exact (List.append_nil _).symm
  | cons entry more ih =>
    have hlast : (m.insert entry.1 entry.2).entries = m.entries ++ [entry] := by
      refine upsert_of_not_mem entry.2 fun hmem => ?_
      rw [List.map_append, List.nodup_append] at h
      exact h.2.2 entry.1 hmem entry.1 (by simp) rfl
    have hsplit : m.entries ++ entry :: more = (m.insert entry.1 entry.2).entries ++ more := by
      rw [hlast, List.append_assoc]
      rfl
    rw [hsplit] at h
    rw [List.foldl_cons, ih _ h, hsplit]

theorem ofList_entries (m : Metadata) : ofList m.entries = m := by
  have hentries : (ofList m.entries).entries = m.entries :=
    entries_foldl_insert ∅ m.nodup
  cases m
  cases h : ofList _
  simp_all

/-- The entries are exactly what can be looked up. -/
theorem mem_entries_iff {m : Metadata} {name text : String} :
    (name, text) ∈ m.entries ↔ m.get? name = some text := by
  rw [get?, List.lookup_eq_some_iff]
  constructor
  · intro hmem
    obtain ⟨before, after, hentries⟩ := List.append_of_mem hmem
    have hnodup := m.nodup
    rw [hentries, List.map_append, List.map_cons] at hnodup
    have hdisjoint := (List.nodup_append.1 hnodup).2.2
    refine ⟨before, after, hentries, fun entry hentry => ?_⟩
    have hne : entry.1 ≠ name := hdisjoint _ (List.mem_map_of_mem hentry) _ List.mem_cons_self
    simpa using hne.symm
  · rintro ⟨before, after, hentries, -⟩
    simp [hentries]

end Metadata

end ShareWire
