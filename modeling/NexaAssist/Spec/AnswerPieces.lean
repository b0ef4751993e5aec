import NexaAssist.Realtime.Answers

/-!
# The pieces of a finished answer

`chunk` takes the words of a text and the runs of white space between them in turn, and ends
a piece only behind a word. So every piece but the first starts with a whole run.
-/

namespace NexaAssist.Spec.AnswerPieces

open NexaAssist PyJson

/-! ## White space at the start of a piece -/

/-- Starts with no word. -/
def StartsSpace (piece : PyStr) : Prop := ∀ c, piece.head? = some c → isSpace c = true

/-- Nothing starts with a space. -/
theorem startsSpace_nil : StartsSpace [] := by
  intro c h
  cases h

/-- A text that starts with a space does so with more behind it. -/
theorem StartsSpace.append {piece more : PyStr} (h : StartsSpace piece)
    (hmore : piece = [] → StartsSpace more) : StartsSpace (piece ++ more) := by
  cases piece with
  | nil => exact hmore rfl
  | cons c piece => exact h

/-- Pieces that each start with a space do so together. -/
theorem StartsSpace.flatten {pieces : List PyStr} (h : ∀ piece ∈ pieces, StartsSpace piece) :
    StartsSpace pieces.flatten := by
  induction pieces with
  | nil => exact fun _ hc => nomatch hc
  | cons piece pieces ih =>
    rw [List.flatten_cons]
    apply (h piece List.mem_cons_self).append
    intro _
    exact ih fun piece hpiece => h piece (List.mem_cons_of_mem _ hpiece)

/-- A run of white space starts with a space. -/
theorem IsRun.startsSpace {run : PyStr} (h : IsRun run) : StartsSpace run :=
  fun c hc => h.2 c (List.mem_of_mem_head? hc)

/-- A run of white space is white space, as `isspace` tells. -/
theorem IsRun.isspace {run : PyStr} (h : IsRun run) : run.isspace = true := by
  obtain ⟨hne, hall⟩ := h
  have hnonempty : run.isEmpty = false := by simpa using hne
  simpa [PyStr.isspace, hnonempty] using hall

/-- The words of a text after the first, each after its run of white space. -/
def spaced (pairs : List (PyStr × PyStr)) : List PyStr :=
  pairs.flatMap fun (run, word) => [run, word]

/-- A run of white space is kept with what was collected, and no piece ends with it. -/
theorem chunkLoop_run (size : Nat) (piece word : PyStr) {run : PyStr} (words : List PyStr)
    (h : IsRun run) :
    chunkLoop size piece (run :: word :: words) =
      chunkLoop size (piece ++ run) (word :: words) := by
  rw [chunkLoop]
  simp only [IsRun.isspace h, Bool.not_true, Bool.and_false, Bool.false_eq_true, if_false]

/-- Every piece but the one being collected starts with white space. -/
theorem chunkLoop_startsSpace (size : Nat) (piece : PyStr) {pairs : List (PyStr × PyStr)}
    (hpairs : ∀ p ∈ pairs, IsRun p.1) :
    (∀ later ∈ (chunkLoop size piece (spaced pairs)).tail, StartsSpace later) ∧
      (StartsSpace piece →
        ∀ some ∈ chunkLoop size piece (spaced pairs), StartsSpace some) := by
  induction pairs generalizing piece with
  | nil =>
    show (∀ later ∈ (chunkLoop size piece []).tail, StartsSpace later) ∧
      (StartsSpace piece → ∀ some ∈ chunkLoop size piece [], StartsSpace some)
    unfold chunkLoop
    split
    · exact ⟨List.forall_mem_nil _, fun _ => List.forall_mem_nil _⟩
    · refine ⟨List.forall_mem_nil _, ?_⟩
      intro hpiece some hsome
      rwa [List.mem_singleton.mp hsome]
  | cons p pairs ih =>
    obtain ⟨run, word⟩ := p
    have hrun : IsRun run := hpairs (run, word) List.mem_cons_self
    have hrest : ∀ p ∈ pairs, IsRun p.1 := fun p hp => hpairs p (List.mem_cons_of_mem _ hp)
    have hcollected : StartsSpace piece → StartsSpace (piece ++ run ++ word) := by
      intro hpiece
      apply (hpiece.append fun _ => IsRun.startsSpace hrun).append
      intro hnil
      exact absurd (List.append_eq_nil_iff.mp hnil).2 hrun.1
    have hloop : chunkLoop size piece (spaced ((run, word) :: pairs)) =
        chunkLoop size (piece ++ run) (word :: spaced pairs) :=
      chunkLoop_run size piece word (spaced pairs) hrun
    rw [hloop]
    unfold chunkLoop
    simp only
    split
    · -- A piece ends here, and the next one starts with the next run.
      have hnext := (ih [] hrest).2 startsSpace_nil
      refine ⟨hnext, ?_⟩
      intro hpiece some hsome
      cases List.mem_cons.mp hsome with
      | inl heq => exact heq ▸ hcollected hpiece
      | inr hmem => exact hnext some hmem
    · obtain ⟨htail, hall⟩ := ih (piece ++ run ++ word) hrest
      exact ⟨htail, fun hpiece => hall (hcollected hpiece)⟩

/-- Every piece of a text after the first starts with white space. -/
theorem chunk_startsSpace (text : PyStr) (size : Nat) :
    ∀ piece ∈ (chunk text size).tail, StartsSpace piece := by
  unfold chunk
  split
  · exact List.forall_mem_nil _
  · have hpairs : ∀ p ∈ (splitSpaces text).2, IsRun p.1 := fun p hp =>
      ((splitSpaces_shape text).2 p hp).1
    show ∀ piece ∈ (chunkLoop size [] ((splitSpaces text).1 :: spaced (splitSpaces text).2)).tail,
      StartsSpace piece
    unfold chunkLoop
    simp only
    split
    · exact (chunkLoop_startsSpace size [] hpairs).2 startsSpace_nil
    · exact (chunkLoop_startsSpace size _ hpairs).1

/-! ## The pieces of a text -/

/-- A piece that ends before the text does is long enough. -/
theorem chunkLoop_full (size : Nat) (piece : PyStr) (words : List PyStr) :
    ∀ some ∈ (chunkLoop size piece words).dropLast, size ≤ some.length := by
  induction words generalizing piece with
  | nil =>
    unfold chunkLoop
    split
    · exact List.forall_mem_nil _
    · exact List.forall_mem_nil _
  | cons word words ih =>
    unfold chunkLoop
    simp only
    split
    · rename_i hends
      rw [Bool.and_eq_true, decide_eq_true_eq] at hends
      intro some hsome
      cases hlater : chunkLoop size [] words with
      | nil => simp [hlater] at hsome
      | cons next later =>
        rw [hlater, List.dropLast_cons_cons, List.mem_cons] at hsome
        rcases hsome with rfl | hmem
        · exact hends.1
        · exact ih [] some (by rwa [hlater])
    · exact ih _

/-- No piece is empty, as long as an empty one would be too short. -/
theorem chunkLoop_ne_nil {size : Nat} (hsize : 1 ≤ size) (piece : PyStr) (words : List PyStr) :
    [] ∉ chunkLoop size piece words := by
  induction words generalizing piece with
  | nil =>
    unfold chunkLoop
    split
    · simp
    · rename_i hpiece
      simpa [eq_comm] using hpiece
  | cons word words ih =>
    unfold chunkLoop
    simp only
    split
    · rename_i hends
      rw [Bool.and_eq_true, decide_eq_true_eq] at hends
      rw [List.mem_cons, not_or]
      refine ⟨?_, ih []⟩
      intro hnil
      rw [← hnil, List.length_nil] at hends
      omega
    · exact ih _

/-- Position `k` of a text, where the characters on both sides are no white space. -/
def InsideWord (text : PyStr) (k : Nat) : Prop :=
  ∃ before after c d, text = before ++ c :: d :: after ∧ k = before.length + 1 ∧
    isSpace c = false ∧ isSpace d = false

/-- What `chunk` promises of the pieces of a text. -/
structure Pieces (text : PyStr) (size : Nat) (pieces : List PyStr) : Prop where
  joined : pieces.flatten = text
  nonempty : ∀ piece ∈ pieces, piece ≠ []
  full : ∀ piece ∈ pieces.dropLast, size ≤ piece.length
  whole : ∀ before after, pieces = before ++ after → ¬InsideWord text before.flatten.length

/-- Where a later piece starts, no word goes on. -/
theorem not_insideWord {text : PyStr} {size : Nat} {before after : List PyStr}
    (h : chunk text size = before ++ after) : ¬InsideWord text before.flatten.length := by
  rintro ⟨front, back, c, d, htext, hlength, -, hd⟩
  have hjoin := chunk_flatten text size
  rw [h, List.flatten_append, htext, List.append_cons front c] at hjoin
  -- The character behind the boundary is the first of the later pieces.
  have hlength' : before.flatten.length = (front ++ [c]).length := by
    rw [hlength, List.length_append, List.length_singleton]
  obtain ⟨-, hafter⟩ := List.append_inj hjoin hlength'
  have hstarts : ∀ piece ∈ after, StartsSpace piece := by
    intro piece hpiece
    cases before with
    | nil => simp at hlength
    | cons first before =>
      have hlater := chunk_startsSpace text size
      rw [h, List.cons_append, List.tail_cons] at hlater
      exact hlater piece (List.mem_append_right _ hpiece)
  have hspace := StartsSpace.flatten hstarts d (by rw [hafter]; rfl)
  rw [hd] at hspace
  exact nomatch hspace

/-- A finished answer is cut between words only, into pieces that are long enough and lose
    nothing. -/
theorem chunk_pieces (text : PyStr) (size : Nat) (hsize : 1 ≤ size) :
    Pieces text size (chunk text size) where
  joined := chunk_flatten text size
  nonempty := by
    unfold chunk
    split
    · exact fun _ h => (nomatch h)
    · rintro piece hpiece rfl
      exact chunkLoop_ne_nil hsize [] _ hpiece
  full := by
    unfold chunk
    split
    · exact fun _ h => (nomatch h)
    · exact chunkLoop_full size [] _
  whole _ _ h := not_insideWord h

/-- The pieces of a text that begins with a space. -/
theorem chunk_pieces_spaced : Pieces (lit "  to be  or not") 4 (chunk (lit "  to be  or not") 4) :=
  chunk_pieces _ 4 (by decide)

example : chunk (lit "  to be  or not") 4 = ["  to", " be  or", " not"].map lit := by decide

end NexaAssist.Spec.AnswerPieces
