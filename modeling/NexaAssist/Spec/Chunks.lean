import NexaAssist.ForStd.Packing
import NexaAssist.ForStd.PyWords
import NexaAssist.Rag.Chunking

/-!
# The chunks of a document

Splitting a paragraph is packing its words, so that a chunk is a line of them. Everything
about the chunks follows from what packing does and from what the words of a line are.
-/

namespace NexaAssist.Spec.Chunks

open PyJson PyStr Packing

/-- The space between two words. -/
abbrev space : PyStr := .ofString " "

/-- The boundary between two paragraphs. -/
abbrev boundary : PyStr := .ofString "\n\n"

/-- `space` is white space. -/
theorem space_isSpace : ∀ c ∈ space, isSpace c = true :=
  List.all_eq_true.mp (by decide)

/-- `boundary` is white space. -/
theorem boundary_isSpace : ∀ c ∈ boundary, isSpace c = true :=
  List.all_eq_true.mp (by decide)

/-- A text of white space, or of nothing. -/
def Blank (text : PyStr) : Prop := ∀ c ∈ text, isSpace c = true

instance (text : PyStr) : Decidable (Blank text) := 
  decidable_of_iff (text.all isSpace = true) List.all_eq_true

/-! ## A paragraph that is too long -/

/-- A line of words that is short enough. -/
def fits (chunkSize : Nat) (line : List PyStr) : Prop := (join space line).length ≤ chunkSize

instance (chunkSize : Nat) : DecidablePred (fits chunkSize) :=
  fun _ => inferInstanceAs (Decidable (_ ≤ _))

/-- The texts of some lines. -/
def texts (s : List (List PyStr) × List PyStr) : List PyStr × PyStr :=
  (s.1.map (join space), join space s.2)

/-- `strip` of a line with a space and a word behind it is the line with one more word. -/
theorem strip_candidate {line : List PyStr} (hline : Words line) {word : PyStr}
    (hword : word ≠ [] ∧ IsWord word) :
    strip (join space line ++ space ++ word) = join space (line ++ [word]) := by
  by_cases hnil : line = []
  · subst hnil
    have hspace : ∀ text : PyStr, strip (space ++ text) = strip text := by
      intro text
      rw [strip, List.dropWhile_append_of_pos space_isSpace, ← strip]
    rw [join, List.nil_append, hspace]
    exact strip_of_stripped (stripped_of_isWord hword.2)
  · rw [← join_concat space hnil]
    exact strip_of_stripped (stripped_join_words space (hline.concat hword))

/-- `splitLongStep` on texts is the greedy `step` on lists of words. -/
theorem splitLongStep_texts (chunkSize : Nat) {s : List (List PyStr) × List PyStr}
    (hline : Words s.2) {word : PyStr} (hword : word ≠ [] ∧ IsWord word) :
    splitLongStep chunkSize (texts s) word = texts (step (fits chunkSize) s word) := by
  obtain ⟨lines, line⟩ := s
  simp only [splitLongStep, texts, strip_candidate hline hword]
  by_cases hnil : line = []
  · simp [hnil, step, join]
  · have hcurrent := join_words_ne_nil space hline hnil
    by_cases hfits : fits chunkSize (line ++ [word])
    · have hshort : ¬ chunkSize < (join space (line ++ [word])).length := Nat.not_lt.mpr hfits
      simp [step, hfits, hshort]
    · have hlong : chunkSize < (join space (line ++ [word])).length := Nat.not_le.mp hfits
      simp [step, hfits, hlong, hnil, hcurrent, join]

/-- The greedy `step` keeps lines of words. -/
theorem words_step (chunkSize : Nat) {s : List (List PyStr) × List PyStr} (hline : Words s.2)
    {word : PyStr} (hword : word ≠ [] ∧ IsWord word) :
    Words (step (fits chunkSize) s word).2 := by
  obtain ⟨lines, line⟩ := s
  simp only [step]
  split
  · intro other hother
    rwa [List.mem_singleton.mp hother]
  · exact hline.concat hword

/-- `splitLong` is `pack` on the words of the paragraph. -/
theorem splitLong_eq (paragraph : PyStr) (chunkSize : Nat) :
    splitLong paragraph chunkSize =
      (pack (fits chunkSize) (words paragraph)).map (join space) := by
  have hrun : ∀ (rest : List PyStr) (s : List (List PyStr) × List PyStr), Words rest → Words s.2 →
      rest.foldl (splitLongStep chunkSize) (texts s) =
        texts (rest.foldl (step (fits chunkSize)) s) ∧
      Words (rest.foldl (step (fits chunkSize)) s).2 := by
    intro rest
    induction rest with
    | nil => exact fun s _ hline => ⟨rfl, hline⟩
    | cons word rest ih =>
      intro s hrest hline
      obtain ⟨hword, hrest⟩ := List.forall_mem_cons.mp hrest
      rw [List.foldl_cons, List.foldl_cons, splitLongStep_texts chunkSize hline hword]
      exact ih _ hrest (words_step chunkSize hline hword)
  obtain ⟨hfold, hline⟩ := hrun (words paragraph) ([], []) (words_words paragraph) nofun
  have hempty : texts ([], []) = ([], []) := rfl
  rw [hempty] at hfold
  rw [splitLong, hfold, pack]
  generalize (words paragraph).foldl (step (fits chunkSize)) ([], []) = s at hline ⊢
  obtain ⟨lines, line⟩ := s
  by_cases hnil : line = []
  · simp [texts, close, hnil, join]
  · have hcurrent := join_words_ne_nil space hline hnil
    simp [texts, close, hnil, hcurrent]

/-! ## What a paragraph is divided into -/

/-- What becomes of a paragraph. -/
structure Divided (chunkSize : Nat) (paragraph : PyStr) (chunks : List PyStr) : Prop where
  words : chunks.flatMap PyStr.words = PyStr.words paragraph
  nonblank : ∀ chunk ∈ chunks, ¬ Blank chunk
  stripped : ∀ chunk ∈ chunks, Stripped chunk
  unbroken : ∀ chunk ∈ chunks, ¬ boundary <:+: chunk
  whole : strip paragraph ≠ [] → (strip paragraph).length ≤ chunkSize → chunks = [strip paragraph]
  full : chunkSize < (strip paragraph).length → List.IsChain (fun chunk next =>
    ∀ word ∈ (PyStr.words next).head?, chunkSize < (chunk ++ space ++ word).length) chunks
  short : ∀ chunk ∈ chunks, chunk.length ≤ chunkSize ∨ IsWord chunk

/-- The chunks of a paragraph. -/
def divide (chunkSize : Nat) (paragraph : PyStr) : List PyStr :=
  if (strip paragraph).isEmpty then []
  else if (strip paragraph).length ≤ chunkSize then [strip paragraph]
  else splitLong (strip paragraph) chunkSize

/-- A stripped text with words is not blank. -/
theorem not_blank {text : PyStr} (hne : text ≠ []) (h : Stripped text) : ¬ Blank text := by
  intro hblank
  cases text with
  | nil => exact hne rfl
  | cons c text =>
    have hletter := h.1 c rfl
    rw [hblank c List.mem_cons_self] at hletter
    exact nomatch hletter

/-- There is no boundary in a line of words. -/
theorem boundary_not_in_line {line : List PyStr} (h : Words line) :
    ¬ boundary <:+: join space line := by
  intro hinfix
  have hmem : Fin.ofNat 0x110000 0x0a ∈ join space line := hinfix.subset (by decide)
  cases mem_join hmem with
  | inl hspace => exact absurd hspace (by decide)
  | inr hword =>
    obtain ⟨word, hword, hmem⟩ := hword
    have hletter := (h word hword).2 _ hmem
    exact absurd hletter (by decide)

/-- A paragraph that fits is `Divided` into one chunk. -/
theorem divided_whole {chunkSize : Nat} {paragraph : PyStr} (hboundary : ¬ boundary <:+: paragraph)
    (hne : strip paragraph ≠ []) (hshort : (strip paragraph).length ≤ chunkSize) :
    Divided chunkSize paragraph [strip paragraph] where
  words := by simp [words_strip]
  nonblank := List.forall_mem_singleton.mpr (not_blank hne (stripped_strip paragraph))
  stripped := List.forall_mem_singleton.mpr (stripped_strip paragraph)
  unbroken := List.forall_mem_singleton.mpr fun h => hboundary (h.trans (infix_strip paragraph))
  whole _ _ := rfl
  full hlong := absurd hshort (Nat.not_le.mpr hlong)
  short := List.forall_mem_singleton.mpr (.inl hshort)

/-- A paragraph that does not fit is `Divided` by `splitLong`. -/
theorem divided_splitLong {chunkSize : Nat} {paragraph : PyStr}
    (hlong : ¬ (strip paragraph).length ≤ chunkSize) :
    Divided chunkSize paragraph (splitLong (strip paragraph) chunkSize) := by
  have hpacked := pack_packed (fits chunkSize) (PyStr.words paragraph)
  rw [splitLong_eq, words_strip]
  generalize pack (fits chunkSize) (PyStr.words paragraph) = lines at hpacked ⊢
  have hwords : ∀ line ∈ lines, Words line := by
    intro line hline word hword
    apply words_words paragraph
    rw [← hpacked.flatten]
    exact List.mem_flatten_of_mem hline hword
  have hread : ∀ line ∈ lines, PyStr.words (join space line) = line :=
    fun line hline => words_join_words (by decide) space_isSpace (hwords line hline)
  constructor
  case words =>
    rw [List.flatMap_map, ← hpacked.flatten, List.flatMap_def, List.map_congr_left hread,
      List.map_id']
  case nonblank =>
    refine List.forall_mem_map.mpr fun line hline => ?_
    exact not_blank (join_words_ne_nil space (hwords line hline) (hpacked.ne_nil line hline))
      (stripped_join_words space (hwords line hline))
  case stripped =>
    exact List.forall_mem_map.mpr fun line hline => stripped_join_words space (hwords line hline)
  case unbroken =>
    exact List.forall_mem_map.mpr fun line hline => boundary_not_in_line (hwords line hline)
  case whole => exact fun _ hshort => absurd hshort hlong
  case full =>
    intro _
    rw [List.isChain_map]
    refine hpacked.filled.imp_of_mem_imp ?_
    intro line next hline hnext hfull word hword
    rw [hread next hnext] at hword
    have := hfull word hword
    rw [fits, join_concat space (hpacked.ne_nil line hline)] at this
    exact Nat.not_le.mp this
  case short =>
    refine List.forall_mem_map.mpr fun line hline => ?_
    cases hpacked.short line hline with
    | inl hfits => exact .inl hfits
    | inr hword =>
      obtain ⟨word, rfl⟩ := hword
      exact .inr (hwords _ hline word List.mem_cons_self).2

/-- `divide` gives chunks into which the paragraph is `Divided`. -/
theorem divided_divide (chunkSize : Nat) {paragraph : PyStr} (h : ¬ boundary <:+: paragraph) :
    Divided chunkSize paragraph (divide chunkSize paragraph) := by
  unfold divide
  split
  · rename_i hnil
    have hnil := List.isEmpty_iff.mp hnil
    have hwords := strip_eq_nil_iff.mp hnil
    exact ⟨hwords.symm, nofun, nofun, nofun, fun hne => absurd hnil hne, fun _ => .nil, nofun⟩
  split
  · rename_i hne hshort
    exact divided_whole h (by simpa using hne) hshort
  · rename_i _ hlong
    exact divided_splitLong hlong

/-! ## A document -/

/-- The paragraphs of a document. -/
abbrev paragraphs (text : PyStr) : List PyStr := splitOn boundary text

/-- The words of the chunks of the paragraphs are those of the document. -/
theorem words_divide (text : PyStr) (chunkSize : Nat) :
    ((paragraphs text).flatMap (divide chunkSize)).flatMap words = words text := by
  rw [List.flatMap_assoc, ← words_splitOn (by decide) boundary_isSpace text]
  refine List.flatMap_congr fun paragraph hmem => ?_
  exact (divided_divide chunkSize (not_infix_of_mem_splitOn (by decide) text paragraph hmem)).words

/-- The chunks are those of the paragraphs: a document that is not blank has one anyway. -/
theorem chunksOf_eq (text : PyStr) (chunkSize : Nat) :
    chunksOf text chunkSize = (paragraphs text).flatMap (divide chunkSize) := by
  have hchunks : ((paragraphs text).map strip).flatMap (fun paragraph =>
      if paragraph.isEmpty then []
      else if paragraph.length ≤ chunkSize then [paragraph]
      else splitLong paragraph chunkSize) = (paragraphs text).flatMap (divide chunkSize) := by
    rw [List.flatMap_map]
    rfl
  rw [chunksOf, hchunks]
  refine if_neg ?_
  intro hfallback
  obtain ⟨hnone, htext⟩ := Bool.and_eq_true_iff.mp hfallback
  have hwords := words_divide text chunkSize
  rw [List.isEmpty_iff.mp hnone] at hwords
  have hnil := strip_eq_nil_iff.mpr hwords.symm
  simp [hnil] at htext

/-- `chunkText` divides each paragraph, where the size is large enough. -/
theorem chunkText_some (text : PyStr) {chunkSize : Nat} (h : MIN_CHUNK_SIZE ≤ chunkSize) :
    chunkText text chunkSize = some ((paragraphs text).flatMap (divide chunkSize)) := by
  rw [chunkText, if_neg (Nat.not_lt.mpr h), chunksOf_eq]

/-- The chunks of a document hold its words in order, there are none exactly when it is blank,
    and they are those its paragraphs are divided into. -/
theorem chunkText_divides (text : PyStr) (chunkSize : Nat) (h : MIN_CHUNK_SIZE ≤ chunkSize) :
    ∃ chunks, chunkText text chunkSize = some chunks ∧
      chunks.flatMap words = words text ∧
      (chunks = [] ↔ Blank text) ∧
      ∃ pieces, chunks = pieces.flatten ∧
        List.Forall₂ (Divided chunkSize) (paragraphs text) pieces := by
  refine ⟨_, chunkText_some text h, words_divide text chunkSize, ?_, _, rfl, ?_⟩
  · have hwords := words_divide text chunkSize
    constructor
    · intro hnone
      rw [hnone] at hwords
      exact words_eq_nil_iff.mp hwords.symm
    · intro hblank
      rw [words_eq_nil_iff.mpr hblank] at hwords
      refine List.eq_nil_iff_forall_not_mem.mpr fun chunk hmem => ?_
      obtain ⟨paragraph, hparagraph, hchunk⟩ := List.mem_flatMap.mp hmem
      have hdivided := divided_divide chunkSize
        (not_infix_of_mem_splitOn (by decide) text paragraph hparagraph)
      apply hdivided.nonblank chunk hchunk
      exact words_eq_nil_iff.mp (List.flatMap_eq_nil_iff.mp hwords chunk hmem)
  · rw [List.forall₂_map_right_iff, List.forall₂_same]
    exact fun paragraph hmem =>
      divided_divide chunkSize (not_infix_of_mem_splitOn (by decide) text paragraph hmem)

/-- A text of two paragraphs, the first of which is too long for one chunk. -/
def letter : PyStr :=
  .ofString "The refund window closes thirty days after delivery.\n\n Write to us. "

/-- The letter is divided into chunks of fifty characters. -/
theorem chunkText_divides_letter : ∃ chunks, chunkText letter 50 = some chunks ∧
    chunks.flatMap words = words letter ∧
    (chunks = [] ↔ Blank letter) ∧
    ∃ pieces, chunks = pieces.flatten ∧
      List.Forall₂ (Divided 50) (paragraphs letter) pieces :=
  chunkText_divides letter 50 (by decide)

/-! ## The length of a chunk -/

/-- A chunk is as short as it should be exactly when the words are. -/
theorem chunks_short_iff (text : PyStr) (chunkSize : Nat) (h : MIN_CHUNK_SIZE ≤ chunkSize) :
    (∃ chunks, chunkText text chunkSize = some chunks ∧
      ∀ chunk ∈ chunks, chunk.length ≤ chunkSize) ↔
    ∀ word ∈ words text, word.length ≤ chunkSize := by
  have hwords := words_divide text chunkSize
  simp only [chunkText_some text h, Option.some.injEq, exists_eq_left']
  constructor
  · intro hshort word hword
    rw [← hwords] at hword
    obtain ⟨chunk, hchunk, hmem⟩ := List.mem_flatMap.mp hword
    exact (length_le_of_mem_words hmem).trans (hshort chunk hchunk)
  · intro hshort chunk hchunk
    obtain ⟨paragraph, hparagraph, hmem⟩ := List.mem_flatMap.mp hchunk
    have hdivided := divided_divide chunkSize
      (not_infix_of_mem_splitOn (by decide) text paragraph hparagraph)
    cases hdivided.short chunk hmem with
    | inl hfits => exact hfits
    | inr hword =>
      -- A chunk that is too long is a word of the text.
      have hne : chunk ≠ [] := fun hnil => hdivided.nonblank chunk hmem (by rw [hnil]; exact nofun)
      apply hshort
      rw [← hwords]
      refine List.mem_flatMap.mpr ⟨chunk, hchunk, ?_⟩
      rw [words_of_isWord hne hword]
      exact List.mem_singleton_self chunk

/-- A text without white space, such as a key. -/
def key (length : Nat) : PyStr := List.replicate length (Fin.ofNat 0x110000 0x61)

/-- A text without white space is a chunk of its own length. -/
theorem key_exceeds_chunk : ¬ ∃ chunks, chunkText (key 51) 50 = some chunks ∧
    ∀ chunk ∈ chunks, chunk.length ≤ 50 := by
  decide

/-- A text of short words has short chunks. -/
theorem chunks_short_letter :
    (∃ chunks, chunkText letter 50 = some chunks ∧ ∀ chunk ∈ chunks, chunk.length ≤ 50) ↔
    ∀ word ∈ words letter, word.length ≤ 50 :=
  chunks_short_iff letter 50 (by decide)

end NexaAssist.Spec.Chunks
