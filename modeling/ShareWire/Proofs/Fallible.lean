import Mathlib.Data.List.Forall2

/-!
# Results of fallible steps

What a successful chain of steps says about its steps, and how a list of steps ends: with all results,
or with the first error. Two runs of the same steps on related data end alike.
-/

namespace ShareWire

variable {ε α β γ : Type}

theorem bind_ok {x : Except ε α} {f : α → Except ε β} {a : α} {b : β} (hx : x = .ok a)
    (hf : f a = .ok b) : x >>= f = .ok b := by
  rw [hx]
  exact hf

theorem exists_of_bind_ok {x : Except ε α} {f : α → Except ε β} {b : β} (h : x >>= f = .ok b) :
    ∃ a, x = .ok a ∧ f a = .ok b := by
  cases x with
  | error e => cases h
  | ok a => exact ⟨a, rfl, h⟩

theorem bind_error_iff {x : Except ε α} {f : α → Except ε β} {e : ε} :
    x >>= f = .error e ↔ x = .error e ∨ ∃ a, x = .ok a ∧ f a = .error e := by
  cases x with
  | error fault =>
    constructor
    · intro h
      obtain rfl := Except.error.inj h
      exact .inl rfl
    · rintro (h | ⟨a, ha, -⟩)
      · obtain rfl := Except.error.inj h
        rfl
      · cases ha
  | ok a =>
    constructor
    · intro h
      exact .inr ⟨a, rfl, h⟩
    · rintro (h | ⟨b, hb, h⟩)
      · cases h
      · obtain rfl := Except.ok.inj hb
        exact h

theorem exists_of_map_ok {x : Except ε α} {f : α → β} {b : β} (h : x.map f = .ok b) :
    ∃ a, x = .ok a ∧ f a = b := by
  cases x with
  | error e => cases h
  | ok a => exact ⟨a, rfl, Except.ok.inj h⟩

theorem exists_map_ok_iff {x : Except ε α} {f : α → β} :
    (∃ b, x.map f = .ok b) ↔ ∃ a, x = .ok a := by
  cases x with
  | error e => exact ⟨fun ⟨_, h⟩ => (nomatch h), fun ⟨_, h⟩ => (nomatch h)⟩
  | ok a => exact ⟨fun _ => ⟨a, rfl⟩, fun _ => ⟨f a, rfl⟩⟩

theorem map_error_iff {x : Except ε α} {f : α → β} {e : ε} :
    x.map f = .error e ↔ x = .error e := by
  cases x with
  | error fault =>
    constructor
    · intro h
      rw [Except.error.inj h]
    · intro h
      rw [h]
      rfl
  | ok a => exact ⟨fun h => (nomatch h), fun h => (nomatch h)⟩

theorem ite_ok_iff {p : Prop} [Decidable p] {a b : α} {e : ε} :
    (if p then Except.ok a else .error e) = .ok b ↔ p ∧ a = b := by
  by_cases h : p <;> simp [h]

theorem mapM_ok_iff {f : α → Except ε β} {xs : List α} {ys : List β} :
    xs.mapM f = .ok ys ↔ List.Forall₂ (fun x y => f x = .ok y) xs ys := by
  induction xs generalizing ys with
  | nil => exact ⟨fun h => by cases h; exact .nil, fun h => by cases h; rfl⟩
  | cons x xs ih =>
    rw [List.mapM_cons]
    constructor
    · intro h
      obtain ⟨y, hy, h⟩ := exists_of_bind_ok h
      obtain ⟨more, hmore, h⟩ := exists_of_bind_ok h
      obtain rfl := Except.ok.inj h
      exact .cons hy (ih.1 hmore)
    · rintro (_ | ⟨hy, hmore⟩)
      rw [hy, ih.2 hmore]
      rfl

theorem exists_mapM_ok_iff {f : α → Except ε β} {xs : List α} :
    (∃ ys, xs.mapM f = .ok ys) ↔ ∀ x ∈ xs, ∃ y, f x = .ok y := by
  induction xs with
  | nil => exact ⟨fun _ => List.forall_mem_nil _, fun _ => ⟨[], rfl⟩⟩
  | cons x xs ih =>
    rw [List.mapM_cons, List.forall_mem_cons, ← ih]
    constructor
    · intro ⟨ys, h⟩
      obtain ⟨y, hy, h⟩ := exists_of_bind_ok h
      obtain ⟨more, hmore, -⟩ := exists_of_bind_ok h
      exact ⟨⟨y, hy⟩, more, hmore⟩
    · intro ⟨⟨y, hy⟩, more, hmore⟩
      exact ⟨y :: more, bind_ok hy (bind_ok hmore rfl)⟩

/-- A list of steps fails with the error of the first step that fails. -/
theorem mapM_error_iff {f : α → Except ε β} {xs : List α} {e : ε} :
    xs.mapM f = .error e ↔ ∃ before x after, xs = before ++ x :: after ∧
      (∀ earlier ∈ before, ∃ y, f earlier = .ok y) ∧ f x = .error e := by
  constructor
  · intro h
    induction xs with
    | nil => cases h
    | cons x xs ih =>
      rw [List.mapM_cons] at h
      rcases bind_error_iff.1 h with hx | ⟨y, hy, h⟩
      · exact ⟨[], x, xs, rfl, List.forall_mem_nil _, hx⟩
      · rcases bind_error_iff.1 h with hxs | ⟨ys, -, h⟩
        · obtain ⟨before, z, after, rfl, hbefore, hz⟩ := ih hxs
          exact ⟨x :: before, z, after, rfl, List.forall_mem_cons.2 ⟨⟨y, hy⟩, hbefore⟩, hz⟩
        · cases h
  · rintro ⟨before, x, after, rfl, hbefore, hx⟩
    obtain ⟨ys, hys⟩ := exists_mapM_ok_iff.2 hbefore
    rw [List.mapM_append, hys, List.mapM_cons, hx]
    rfl

/-- Every result of a list of steps is the result of one of them. -/
theorem exists_mem_of_mapM_ok {f : α → Except ε β} {xs : List α} {ys : List β}
    (h : xs.mapM f = .ok ys) {y : β} (hy : y ∈ ys) : ∃ x ∈ xs, f x = .ok y := by
  have hall := mapM_ok_iff.1 h
  clear h
  induction hall with
  | nil => cases hy
  | cons hx _ ih =>
    rcases List.mem_cons.1 hy with rfl | hy
    · exact ⟨_, by simp, hx⟩
    · obtain ⟨x, hmem, hx⟩ := ih hy
      exact ⟨x, by simp [hmem], hx⟩

/-- Steps none of which changes anything. -/
theorem foldlM_fixed {f : β → α → Except ε β} {xs : List α} {b : β} (h : ∀ a ∈ xs, f b a = .ok b) :
    xs.foldlM f b = .ok b := by
  induction xs with
  | nil => rfl
  | cons a xs ih =>
    rw [List.foldlM_cons, h a List.mem_cons_self]
    exact ih fun later hlater => h later (List.mem_cons_of_mem a hlater)

/-- Steps that change nothing can be left out. -/
theorem foldlM_filter {f : β → α → Except ε β} (keep : α → Bool)
    (h : ∀ b a, keep a = false → f b a = .ok b) (xs : List α) (b : β) :
    (xs.filter keep).foldlM f b = xs.foldlM f b := by
  induction xs generalizing b with
  | nil => rfl
  | cons a xs ih =>
    by_cases ha : keep a = true
    · rw [List.filter_cons_of_pos ha, List.foldlM_cons, List.foldlM_cons]
      exact congrArg (f b a >>= ·) (funext ih)
    · rw [List.filter_cons_of_neg ha, List.foldlM_cons, h b a (Bool.eq_false_iff.2 ha)]
      exact ih b

/-- A run of steps that fails has a first step that fails. -/
theorem exists_of_foldlM_error {f : β → α → Except ε β} {xs : List α} {b : β} {e : ε}
    (h : xs.foldlM f b = .error e) : ∃ before a after reached, xs = before ++ a :: after ∧
      before.foldlM f b = .ok reached ∧ f reached a = .error e := by
  induction xs generalizing b with
  | nil => cases h
  | cons a xs ih =>
    rw [List.foldlM_cons] at h
    rcases bind_error_iff.1 h with ha | ⟨next, hnext, h⟩
    · exact ⟨[], a, xs, b, rfl, rfl, ha⟩
    · obtain ⟨before, later, after, reached, rfl, hbefore, hlater⟩ := ih h
      exact ⟨a :: before, later, after, reached, rfl,
        (List.foldlM_cons ..).trans (bind_ok hnext hbefore), hlater⟩

/-! ## Two runs -/

/-- Both runs end with results that are related, or both with errors that are related. -/
inductive OutcomeRel (R : α → β → Prop) (E : ε → ε → Prop) :
    Except ε α → Except ε β → Prop where
  | ok {a : α} {b : β} : R a b → OutcomeRel R E (.ok a) (.ok b)
  | error {e f : ε} : E e f → OutcomeRel R E (.error e) (.error f)

namespace OutcomeRel

variable {α' β' : Type} {R S : α → α' → Prop} {Q : β → β' → Prop} {E F : ε → ε → Prop}

theorem bind {x : Except ε α} {x' : Except ε α'} {f : α → Except ε β} {f' : α' → Except ε β'}
    (hx : OutcomeRel R E x x') (hf : ∀ a a', R a a' → OutcomeRel Q E (f a) (f' a')) :
    OutcomeRel Q E (x >>= f) (x' >>= f') := by
  cases hx with
  | ok ha => exact hf _ _ ha
  | error he => exact .error he

theorem map {x : Except ε α} {x' : Except ε α'} {f : α → β} {f' : α' → β'} (hx : OutcomeRel R E x x')
    (hf : ∀ a a', R a a' → Q (f a) (f' a')) : OutcomeRel Q E (x.map f) (x'.map f') := by
  cases hx with
  | ok ha => exact .ok (hf _ _ ha)
  | error he => exact .error he

theorem imp {x : Except ε α} {x' : Except ε α'} (h : OutcomeRel R E x x')
    (hR : ∀ a a', R a a' → S a a') (hE : ∀ e e', E e e' → F e e') : OutcomeRel S F x x' := by
  cases h with
  | ok ha => exact .ok (hR _ _ ha)
  | error he => exact .error (hE _ _ he)

/-- The results of lists of steps are related one by one. -/
theorem mapM {f : α → Except ε β} {f' : α' → Except ε β'} {xs : List α} {xs' : List α'}
    (hxs : List.Forall₂ R xs xs') (hf : ∀ a a', R a a' → OutcomeRel Q E (f a) (f' a')) :
    OutcomeRel (List.Forall₂ Q) E (xs.mapM f) (xs'.mapM f') := by
  induction hxs with
  | nil => exact .ok .nil
  | cons ha _ ih =>
    rw [List.mapM_cons, List.mapM_cons]
    exact (hf _ _ ha).bind fun b b' hb => ih.bind fun bs bs' hbs => .ok (.cons hb hbs)

theorem equivalence {R : α → α → Prop} (hR : Equivalence R) (hE : Equivalence E) :
    Equivalence (OutcomeRel R E) where
  refl x := by
    cases x with
    | error e => exact .error (hE.refl e)
    | ok a => exact .ok (hR.refl a)
  symm h := by
    cases h with
    | ok ha => exact .ok (hR.symm ha)
    | error he => exact .error (hE.symm he)
  trans h h' := by
    cases h with
    | ok ha =>
      cases h' with
      | ok hb => exact .ok (hR.trans ha hb)
    | error he =>
      cases h' with
      | error hf => exact .error (hE.trans he hf)

end OutcomeRel

end ShareWire
