import ShareWire.Proofs.Markup.Construct

/-!
# Document type declarations

How document type declarations are spelled: quoted parts, and an internal subset in brackets with
comments, instructions and declarations of its own. The scan ends at the `>` behind all of them.
-/

namespace ShareWire.Markup

/-! ## Grammar -/

/-- The words behind `<!` whose declarations have quoted parts: entities, attribute lists and
notations. -/
def quotingWords : List Bytes :=
  [[0x45, 0x4E, 0x54, 0x49, 0x54, 0x59], [0x41, 0x54, 0x54, 0x4C, 0x49, 0x53, 0x54],
    [0x4E, 0x4F, 0x54, 0x41, 0x54, 0x49, 0x4F, 0x4E]]

def subsetMarks : List Bytes :=
  [0x3F] :: [0x21, 0x2D, 0x2D] :: quotingWords.map (0x21 :: ·)

inductive Subset : Bytes → Prop where
  | nil : Subset []
  | plain {b : UInt8} {rest : Bytes} : b ≠ 0x5D → b ≠ angleOpen → Subset rest → Subset (b :: rest)
  | comment {body rest : Bytes} : ¬ commentEnd <:+: body → Subset rest →
      Subset (angleOpen :: ([0x21, 0x2D, 0x2D] ++ (body ++ (commentEnd ++ rest))))
  | instruction {body rest : Bytes} : ¬ instructionEnd <:+: body → Subset rest →
      Subset (angleOpen :: ([0x3F] ++ (body ++ (instructionEnd ++ rest))))
  | quoting {word body rest : Bytes} : word ∈ quotingWords → Enclosed [angleClose] body →
      Subset rest → Subset (angleOpen :: (0x21 :: (word ++ (body ++ (angleClose :: rest)))))
  | tag {body rest : Bytes} : angleClose ∉ body → (∀ mark ∈ subsetMarks, ¬ mark <+: body) →
      Subset rest → Subset (angleOpen :: (body ++ angleClose :: rest))

/-- What may stand between the word that begins a document type declaration and the `>` that ends
it. -/
inductive DoctypeBody : Bytes → Prop where
  | bare {lead : Bytes} : Enclosed [angleClose, 0x5B] lead → DoctypeBody lead
  | withSubset {lead inner tail : Bytes} : Enclosed [angleClose, 0x5B] lead → Subset inner →
      angleClose ∉ tail → DoctypeBody (lead ++ 0x5B :: (inner ++ 0x5D :: tail))

/-! ## Scanning -/

def prefixed (front : Bytes) (split : Option (Bytes × Bytes)) : Option (Bytes × Bytes) :=
  split.map fun (body, after) => (front ++ body, after)

theorem prefixed_nil (split : Option (Bytes × Bytes)) : prefixed [] split = split := by
  cases split <;> rfl

theorem prefixed_prefixed (xs ys : Bytes) (split : Option (Bytes × Bytes)) :
    prefixed xs (prefixed ys split) = prefixed (xs ++ ys) split := by
  cases split <;> simp [prefixed]

theorem splitDoctype_skip (state : DoctypeState) (skipped rest : Bytes) :
    splitDoctype state skipped.length (skipped ++ rest) =
      prefixed skipped (splitDoctype state 0 rest) := by
  induction skipped with
  | nil => rw [prefixed_nil]; rfl
  | cons b skipped ih =>
    have hstep : splitDoctype state (skipped.length + 1) (b :: (skipped ++ rest)) =
        prefixed [b] (splitDoctype state skipped.length (skipped ++ rest)) := by
      rw [splitDoctype.eq_def]
      rfl
    rw [List.cons_append, List.length_cons, hstep, ih, prefixed_prefixed]
    rfl

/-- A state that goes on to its end mark takes up a body without the mark, and the mark. -/
theorem splitDoctype_until {state : DoctypeState} (mark : Bytes) {z : UInt8} (hz : z ∉ mark)
    (hstop : ∀ rest, splitDoctype state 0 (mark ++ [z] ++ rest) =
      prefixed (mark ++ [z]) (splitDoctype .subset 0 rest))
    (hstep : ∀ b rest, ¬ mark ++ [z] <+: b :: rest →
      splitDoctype state 0 (b :: rest) = prefixed [b] (splitDoctype state 0 rest))
    {body : Bytes} (h : ¬ mark ++ [z] <:+: body) (rest : Bytes) :
    splitDoctype state 0 (body ++ (mark ++ [z] ++ rest)) =
      prefixed (body ++ (mark ++ [z])) (splitDoctype .subset 0 rest) := by
  induction body with
  | nil => exact hstop rest
  | cons b body ih =>
    have hbody : ¬ mark ++ [z] <:+: body := fun hi => h (hi.trans (List.suffix_cons b body).isInfix)
    rw [List.cons_append, hstep _ _ (not_prefix_append hz h), ih hbody, prefixed_prefixed]
    rfl

theorem splitDoctype_comment {body : Bytes} (h : ¬ commentEnd <:+: body) (rest : Bytes) :
    splitDoctype .comment 0 (body ++ (commentEnd ++ rest)) =
      prefixed (body ++ commentEnd) (splitDoctype .subset 0 rest) := by
  refine splitDoctype_until [0x2D, 0x2D] (by decide) (fun rest => ?_)
    (fun b rest hp => ?_) h rest
  · have hskip : splitDoctype .subset 2 (0x2D :: 0x3E :: rest) =
        prefixed [0x2D, 0x3E] (splitDoctype .subset 0 rest) := splitDoctype_skip _ [0x2D, 0x3E] rest
    have hstep : splitDoctype .comment 0 (0x2D :: 0x2D :: 0x3E :: rest) =
        prefixed [0x2D] (splitDoctype .subset 2 (0x2D :: 0x3E :: rest)) := by
      rw [splitDoctype.eq_def]
      simp [prefixed]
    exact hstep.trans (hskip ▸ prefixed_prefixed _ _ _)
  · have hp : ¬ [0x2D, 0x2D, 0x3E].isPrefixOf (b :: rest) = true :=
      mt List.isPrefixOf_iff_prefix.1 hp
    rw [splitDoctype.eq_def]
    simp only [if_neg hp]
    rfl

theorem splitDoctype_instruction {body : Bytes} (h : ¬ instructionEnd <:+: body) (rest : Bytes) :
    splitDoctype .instruction 0 (body ++ (instructionEnd ++ rest)) =
      prefixed (body ++ instructionEnd) (splitDoctype .subset 0 rest) := by
  refine splitDoctype_until [0x3F] (by decide) (fun rest => ?_)
    (fun b rest hp => ?_) h rest
  · have hskip : splitDoctype .subset 1 (0x3E :: rest) =
        prefixed [0x3E] (splitDoctype .subset 0 rest) := splitDoctype_skip _ [0x3E] rest
    have hstep : splitDoctype .instruction 0 (0x3F :: 0x3E :: rest) =
        prefixed [0x3F] (splitDoctype .subset 1 (0x3E :: rest)) := by
      rw [splitDoctype.eq_def]
      simp [prefixed]
    exact hstep.trans (hskip ▸ prefixed_prefixed _ _ _)
  · have hp : ¬ [0x3F, 0x3E].isPrefixOf (b :: rest) = true := mt List.isPrefixOf_iff_prefix.1 hp
    rw [splitDoctype.eq_def]
    simp only [if_neg hp]
    rfl

/-- A state that minds quotation marks takes up enclosed bytes. -/
theorem splitDoctype_enclosed (state : Option Quote → DoctypeState) (special : Bytes)
    (hspecial : ∀ quote : Quote, quote.byte ∉ special)
    (hplain : ∀ b rest, b ∉ special → splitDoctype (state none) 0 (b :: rest) =
      prefixed [b] (splitDoctype (state (Quote.ofByte? b)) 0 rest))
    (hquoted : ∀ q b rest, splitDoctype (state (some q)) 0 (b :: rest) =
      prefixed [b] (splitDoctype (state (if b = Quote.byte q then none else some q)) 0 rest))
    {body : Bytes} (h : Enclosed special body) (rest : Bytes) :
    splitDoctype (state none) 0 (body ++ rest) =
      prefixed body (splitDoctype (state none) 0 rest) := by
  have hvalue (quote : Quote) (value rest : Bytes) (hv : quote.byte ∉ value) :
      splitDoctype (state (some quote)) 0 (value ++ quote.byte :: rest) =
        prefixed (value ++ [quote.byte]) (splitDoctype (state none) 0 rest) := by
    induction value with
    | nil => rw [List.nil_append, hquoted, if_pos rfl]; rfl
    | cons b value ih =>
      rw [List.cons_append, hquoted, if_neg fun he => hv (by simp [he]),
        ih fun hm => hv (by simp [hm]), prefixed_prefixed]
      rfl
  induction h with
  | nil => rw [prefixed_nil]; rfl
  | plain hb hq _ ih =>
    rw [List.cons_append, hplain _ _ hb, hq, ih, prefixed_prefixed]
    rfl
  | @quoted quote value more hv _ ih =>
    rw [List.cons_append, hplain _ _ (hspecial quote), quote.ofByte?_byte, List.append_assoc,
      List.cons_append, hvalue _ _ _ hv, ih, prefixed_prefixed, prefixed_prefixed]
    simp

theorem splitDoctype_quoting {body : Bytes} (h : Enclosed [angleClose] body) (rest : Bytes) :
    splitDoctype (.quoting none) 0 (body ++ angleClose :: rest) =
      prefixed (body ++ [angleClose]) (splitDoctype .subset 0 rest) := by
  have hbody := splitDoctype_enclosed .quoting [angleClose]
    (fun quote => by cases quote <;> decide)
    (fun b rest hb => by
      have hb : b ≠ angleClose := by simpa using hb
      rw [splitDoctype.eq_def]
      simp only [if_neg hb]
      rfl)
    (fun quote b rest => by rw [splitDoctype.eq_def]; rfl) h (angleClose :: rest)
  have hend : splitDoctype (.quoting none) 0 (angleClose :: rest) =
      prefixed [angleClose] (splitDoctype .subset 0 rest) := by
    rw [splitDoctype.eq_def]
    rfl
  rw [hbody, hend, prefixed_prefixed]

theorem splitDoctype_outer {lead : Bytes} (h : Enclosed [angleClose, 0x5B] lead) (rest : Bytes) :
    splitDoctype (.outer none) 0 (lead ++ rest) =
      prefixed lead (splitDoctype (.outer none) 0 rest) :=
  splitDoctype_enclosed .outer [angleClose, 0x5B]
    (fun quote => by cases quote <;> decide)
    (fun b rest hb => by
      have hb : b ≠ angleClose ∧ b ≠ 0x5B := by simpa using hb
      rw [splitDoctype.eq_def]
      simp only [if_neg hb.1, if_neg hb.2]
      rfl)
    (fun quote b rest => by rw [splitDoctype.eq_def]; rfl) h rest

theorem splitDoctype_skipping {body : Bytes} (h : angleClose ∉ body) (rest : Bytes) :
    splitDoctype .skipping 0 (body ++ angleClose :: rest) =
      prefixed (body ++ [angleClose]) (splitDoctype .subset 0 rest) := by
  induction body with
  | nil => rw [List.nil_append, splitDoctype.eq_def]; rfl
  | cons b body ih =>
    have hb : b ≠ angleClose := fun he => h (by simp [he])
    rw [List.cons_append, splitDoctype.eq_def]
    simp only [if_neg hb, ih fun hm => h (by simp [hm])]
    exact prefixed_prefixed [b] _ _

theorem splitDoctype_tail {tail : Bytes} (h : angleClose ∉ tail) (rest : Bytes) :
    splitDoctype .tail 0 (tail ++ angleClose :: rest) = some (tail, rest) := by
  induction tail with
  | nil => rw [List.nil_append, splitDoctype.eq_def]; rfl
  | cons b tail ih =>
    have hb : b ≠ angleClose := fun he => h (by simp [he])
    rw [List.cons_append, splitDoctype.eq_def]
    simp only [if_neg hb, ih fun hm => h (by simp [hm])]
    rfl

/-! ## Whole declarations -/

theorem prefix_of_prefix_append {mark body rest : Bytes} {z : UInt8} (hz : z ∉ mark)
    (h : mark <+: body ++ z :: rest) : mark <+: body := by
  by_cases hle : mark.length ≤ body.length
  · exact List.prefix_of_prefix_length_le h (List.prefix_append _ _) hle
  · have hbody : body ++ [z] <+: mark :=
      List.prefix_of_prefix_length_le ⟨rest, by simp⟩ h (by simp; omega)
    exact absurd (hbody.subset (by simp)) hz

theorem ofSubsetTag_tag {body rest : Bytes} (h : ∀ mark ∈ subsetMarks, ¬ mark <+: body) :
    DoctypeState.ofSubsetTag (body ++ angleClose :: rest) = .skipping := by
  have hmark (mark : Bytes) (hm : mark ∈ subsetMarks) (hz : angleClose ∉ mark) :
      mark.isPrefixOf (body ++ angleClose :: rest) = false := by
    rw [← Bool.not_eq_true, List.isPrefixOf_iff_prefix]
    exact fun hp => h mark hm (prefix_of_prefix_append hz hp)
  rw [DoctypeState.ofSubsetTag, hmark [0x3F] (by decide) (by decide),
    hmark [0x21, 0x2D, 0x2D] (by decide) (by decide),
    hmark [0x21, 0x45, 0x4E, 0x54, 0x49, 0x54, 0x59] (by decide) (by decide),
    hmark [0x21, 0x41, 0x54, 0x54, 0x4C, 0x49, 0x53, 0x54] (by decide) (by decide),
    hmark [0x21, 0x4E, 0x4F, 0x54, 0x41, 0x54, 0x49, 0x4F, 0x4E] (by decide) (by decide)]
  rfl

theorem ofSubsetTag_quoting {word : Bytes} (h : word ∈ quotingWords) (rest : Bytes) :
    DoctypeState.ofSubsetTag (0x21 :: (word ++ rest)) = .quoting none := by
  simp only [quotingWords, List.mem_cons, List.not_mem_nil, or_false] at h
  rcases h with rfl | rfl | rfl <;> simp [DoctypeState.ofSubsetTag]

theorem splitDoctype_subset_open (rest : Bytes) : splitDoctype .subset 0 (angleOpen :: rest) =
    match DoctypeState.ofSubsetTag rest with
    | .comment => prefixed [angleOpen] (splitDoctype .comment 3 rest)
    | .instruction => prefixed [angleOpen] (splitDoctype .instruction 1 rest)
    | state => prefixed [angleOpen] (splitDoctype state 0 rest) := by
  rw [splitDoctype.eq_def]
  rfl

theorem splitDoctype_subset_comment {body : Bytes} (h : ¬ commentEnd <:+: body) (rest : Bytes) :
    splitDoctype .subset 0 (angleOpen :: ([0x21, 0x2D, 0x2D] ++ (body ++ (commentEnd ++ rest)))) =
      prefixed (angleOpen :: ([0x21, 0x2D, 0x2D] ++ (body ++ commentEnd)))
        (splitDoctype .subset 0 rest) := by
  have hstate : DoctypeState.ofSubsetTag ([0x21, 0x2D, 0x2D] ++ (body ++ (commentEnd ++ rest))) =
      .comment := by
    simp [DoctypeState.ofSubsetTag]
  have hskip := splitDoctype_skip .comment [0x21, 0x2D, 0x2D] (body ++ (commentEnd ++ rest))
  rw [splitDoctype_comment h, prefixed_prefixed] at hskip
  rw [splitDoctype_subset_open, hstate]
  exact (congrArg (prefixed [angleOpen]) hskip).trans (prefixed_prefixed _ _ _)

theorem splitDoctype_subset_instruction {body : Bytes} (h : ¬ instructionEnd <:+: body)
    (rest : Bytes) :
    splitDoctype .subset 0 (angleOpen :: ([0x3F] ++ (body ++ (instructionEnd ++ rest)))) =
      prefixed (angleOpen :: ([0x3F] ++ (body ++ instructionEnd)))
        (splitDoctype .subset 0 rest) := by
  have hstate : DoctypeState.ofSubsetTag ([0x3F] ++ (body ++ (instructionEnd ++ rest))) =
      .instruction := by
    simp [DoctypeState.ofSubsetTag]
  have hskip := splitDoctype_skip .instruction [0x3F] (body ++ (instructionEnd ++ rest))
  rw [splitDoctype_instruction h, prefixed_prefixed] at hskip
  rw [splitDoctype_subset_open, hstate]
  exact (congrArg (prefixed [angleOpen]) hskip).trans (prefixed_prefixed _ _ _)

theorem splitDoctype_subset_quoting {word body : Bytes} (hword : word ∈ quotingWords)
    (h : Enclosed [angleClose] body) (rest : Bytes) :
    splitDoctype .subset 0 (angleOpen :: (0x21 :: (word ++ (body ++ angleClose :: rest)))) =
      prefixed (angleOpen :: (0x21 :: (word ++ (body ++ [angleClose]))))
        (splitDoctype .subset 0 rest) := by
  -- The scan reads the word over again, which has no quotation mark to mind.
  have hplain : Enclosed [angleClose] (0x21 :: word) := by
    simp only [quotingWords, List.mem_cons, List.not_mem_nil, or_false] at hword
    rcases hword with rfl | rfl | rfl <;> exact .of_forall (forall_mem_of_all (by decide))
  have hquoting := splitDoctype_quoting (hplain.append h) rest
  simp only [List.cons_append, List.append_assoc] at hquoting
  rw [splitDoctype_subset_open, ofSubsetTag_quoting hword]
  exact (congrArg (prefixed [angleOpen]) hquoting).trans (prefixed_prefixed _ _ _)

theorem splitDoctype_subset_tag {body : Bytes} (hmark : ∀ mark ∈ subsetMarks, ¬ mark <+: body)
    (h : angleClose ∉ body) (rest : Bytes) :
    splitDoctype .subset 0 (angleOpen :: (body ++ angleClose :: rest)) =
      prefixed (angleOpen :: (body ++ [angleClose])) (splitDoctype .subset 0 rest) := by
  rw [splitDoctype_subset_open, ofSubsetTag_tag hmark]
  simp only [splitDoctype_skipping h]
  exact prefixed_prefixed _ _ _

/-- The scan inside the brackets takes up an internal subset. -/
theorem splitDoctype_subset {inner : Bytes} (h : Subset inner) (rest : Bytes) :
    splitDoctype .subset 0 (inner ++ rest) =
      prefixed inner (splitDoctype .subset 0 rest) := by
  induction h with
  | nil => rw [prefixed_nil]; rfl
  | plain hclose hopen _ ih =>
    rw [List.cons_append, splitDoctype.eq_def]
    simp only [if_neg hclose, if_neg hopen, ih]
    exact prefixed_prefixed [_] _ _
  | @comment body more hbody _ ih =>
    have hstep := splitDoctype_subset_comment hbody (more ++ rest)
    rw [ih, prefixed_prefixed] at hstep
    simpa using hstep
  | @instruction body more hbody _ ih =>
    have hstep := splitDoctype_subset_instruction hbody (more ++ rest)
    rw [ih, prefixed_prefixed] at hstep
    simpa using hstep
  | @quoting word body more hword hbody _ ih =>
    have hstep := splitDoctype_subset_quoting hword hbody (more ++ rest)
    rw [ih, prefixed_prefixed] at hstep
    simpa using hstep
  | @tag body more hbody hmark _ ih =>
    have hstep := splitDoctype_subset_tag hmark hbody (more ++ rest)
    rw [ih, prefixed_prefixed] at hstep
    simpa using hstep

theorem splitDoctype_body {body : Bytes} (h : DoctypeBody body) (rest : Bytes) :
    splitDoctype (.outer none) 0 (body ++ angleClose :: rest) = some (body, rest) := by
  cases h with
  | bare hlead =>
    rw [splitDoctype_outer hlead, splitDoctype.eq_def]
    simp [prefixed]
  | @withSubset lead inner tail hlead hinner htail =>
    have hopen : splitDoctype (.outer none) 0 (0x5B :: (inner ++ 0x5D :: tail) ++ angleClose :: rest) =
        prefixed [0x5B] (splitDoctype .subset 0 (inner ++ (0x5D :: (tail ++ angleClose :: rest)))) := by
      rw [List.cons_append, splitDoctype.eq_def]
      simp [prefixed, angleClose]
    have hclose : splitDoctype .subset 0 (0x5D :: (tail ++ angleClose :: rest)) =
        prefixed [0x5D] (splitDoctype .tail 0 (tail ++ angleClose :: rest)) := by
      rw [splitDoctype.eq_def]
      rfl
    rw [List.append_assoc, splitDoctype_outer hlead, hopen, splitDoctype_subset hinner, hclose,
      splitDoctype_tail htail]
    simp [prefixed]

theorem upperByte_eq {b : UInt8} (h : upperByte b = 0x44) : b = 0x44 ∨ b = 0x64 := by
  unfold upperByte at h
  split at h
  · right
    rw [← UInt8.toNat_inj] at h ⊢
    simp [UInt8.toNat_sub] at h ⊢
    have := b.toNat_lt
    omega
  · exact .inl h

/-- A document type declaration, the word that begins it in any case. -/
theorem spells_doctype {word body : Bytes} (hword : word.map upperByte = doctypeWord)
    (hbody : DoctypeBody body) (hname : ∃ b ∈ body, isTagBlank b = false) :
    Spells ([angleOpen, exclamation] ++ word ++ body ++ [angleClose]) .doctype := by
  refine ⟨angleOpen, [exclamation] ++ word ++ body ++ [angleClose], rfl, fun rest => ?_⟩
  have hlength : word.length = doctypeWord.length := by rw [← hword, List.length_map]
  have hread : readDoctype (word ++ (body ++ angleClose :: rest)) = .ok (.doctype, rest) := by
    rw [readDoctype, ← hlength, List.take_left, List.drop_left, if_pos hword,
      splitDoctype_body hbody]
    have hall : body.all isTagBlank = false := by simpa using hname
    simp [hall]
  obtain ⟨b, word, rfl⟩ := List.exists_cons_of_length_pos (show 0 < word.length by
    rw [hlength]; decide)
  have hb : b = 0x44 ∨ b = 0x64 := upperByte_eq (by simp [doctypeWord] at hword; exact hword.1)
  have hdeclaration : readDeclaration (b :: word ++ (body ++ angleClose :: rest)) =
      .ok (.doctype, rest) := by
    rw [List.cons_append] at hread ⊢
    rcases hb with rfl | rfl <;> simpa [readDeclaration] using hread
  simp only [List.cons_append, List.append_assoc, List.nil_append] at hdeclaration ⊢
  simp [readEvent, readMarkup, hdeclaration, angleOpen, exclamation, slash]

end ShareWire.Markup
