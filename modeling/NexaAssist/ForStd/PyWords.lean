import Mathlib.Data.List.TakeWhile
import NexaAssist.ForStd.PyText

/-!
# The words of a text

`text.split()` goes through white space as through a boundary: the words of two texts with
white space between them are those of the one and those of the other. What `strip`, `join`
and `text.split(sep)` do to the words follows from that.
-/

namespace PyJson

namespace PyStr

/-! ## Words -/

/-- The words after the first run of white space. -/
def laterWords (text : PyStr) : List PyStr :=
  ((splitSpaces text).2.map Prod.snd).filter (· ≠ [])

/-- `words` has the first word, if it is one, and the later ones. -/
theorem words_eq (text : PyStr) :
    words text = (if (splitSpaces text).1 = [] then [] else [(splitSpaces text).1]) ++
      laterWords text := by
  unfold words laterWords
  split
  · rename_i hnil
    simp [hnil]
  · rename_i hword
    simp [hword]

/-- `splitSpaces` from the left. -/
theorem splitSpaces_cons (c : CodePoint) (text : PyStr) : splitSpaces (c :: text) =
    match isSpace c, splitSpaces text with
    | false, (word, rest) => (c :: word, rest)
    | true, ([], (run, word) :: rest) => ([], (c :: run, word) :: rest)
    | true, (word, rest) => ([], ([c], word) :: rest) := rfl

/-- A letter belongs to the first word. -/
theorem splitSpaces_letter {c : CodePoint} (hc : isSpace c = false) (text : PyStr) :
    splitSpaces (c :: text) = (c :: (splitSpaces text).1, (splitSpaces text).2) := by
  rw [splitSpaces_cons, hc]

/-- White space ends the first word that `splitSpaces` gives. -/
theorem splitSpaces_space {c : CodePoint} (hc : isSpace c = true) (text : PyStr) :
    (splitSpaces (c :: text)).1 = [] ∧ laterWords (c :: text) = words text := by
  unfold words laterWords
  rw [splitSpaces_cons, hc]
  rcases hsplit : splitSpaces text with ⟨_ | ⟨d, word⟩, _ | ⟨⟨run, next⟩, rest⟩⟩ <;> simp

/-- The empty text has no words. -/
@[simp] theorem words_nil : words [] = [] := rfl

/-- White space in front adds no word. -/
theorem words_cons_space {c : CodePoint} (hc : isSpace c = true) (text : PyStr) :
    words (c :: text) = words text := by
  obtain ⟨hfirst, hlater⟩ := splitSpaces_space hc text
  rw [words_eq, hfirst, hlater]
  rfl

/-- A letter in front adds no later word. -/
theorem laterWords_letter {c : CodePoint} (hc : isSpace c = false) (text : PyStr) :
    laterWords (c :: text) = laterWords text := by
  simp only [laterWords, splitSpaces_letter hc]

/-- White space parts a text into the words before it and the words behind it. -/
private theorem splitSpaces_append_space {c : CodePoint} (hc : isSpace c = true)
    (before after : PyStr) :
    (splitSpaces (before ++ c :: after)).1 = (splitSpaces before).1 ∧
      laterWords (before ++ c :: after) = laterWords before ++ words after := by
  induction before with
  | nil => exact splitSpaces_space hc after
  | cons d before ih =>
    rw [List.cons_append]
    by_cases hd : isSpace d = true
    · obtain ⟨hfirst, hlater⟩ := splitSpaces_space hd before
      obtain ⟨hfirst', hlater'⟩ := splitSpaces_space hd (before ++ c :: after)
      refine ⟨by rw [hfirst, hfirst'], ?_⟩
      rw [hlater, hlater', words_eq, ih.1, ih.2, words_eq before, List.append_assoc]
    · have hd := Bool.eq_false_iff.mpr hd
      rw [splitSpaces_letter hd, splitSpaces_letter hd, laterWords_letter hd, laterWords_letter hd,
        ih.1]
      exact ⟨rfl, ih.2⟩

/-- White space is a boundary between words. -/
theorem words_append_space {c : CodePoint} (hc : isSpace c = true) (before after : PyStr) :
    words (before ++ c :: after) = words before ++ words after := by
  obtain ⟨hfirst, hlater⟩ := splitSpaces_append_space hc before after
  rw [words_eq, hfirst, hlater, words_eq before, List.append_assoc]

/-- A text of white space has no words. -/
theorem words_of_spaces {text : PyStr} (h : ∀ c ∈ text, isSpace c = true) : words text = [] := by
  induction text with
  | nil => rfl
  | cons c text ih =>
    rw [words_cons_space (h c List.mem_cons_self)]
    exact ih fun d hd => h d (List.mem_cons_of_mem _ hd)

/-- White space behind adds no word. -/
theorem words_append_spaces (text : PyStr) {spaces : PyStr} (h : ∀ c ∈ spaces, isSpace c = true) :
    words (text ++ spaces) = words text := by
  cases spaces with
  | nil => rw [List.append_nil]
  | cons c spaces =>
    obtain ⟨hc, hspaces⟩ := List.forall_mem_cons.mp h
    rw [words_append_space hc, words_of_spaces hspaces, List.append_nil]

/-- White space in front of a text leaves its words. -/
theorem words_spaces_append {spaces : PyStr} (text : PyStr) (h : ∀ c ∈ spaces, isSpace c = true) :
    words (spaces ++ text) = words text := by
  induction spaces with
  | nil => rfl
  | cons c spaces ih =>
    obtain ⟨hc, hspaces⟩ := List.forall_mem_cons.mp h
    rw [List.cons_append, words_cons_space hc, ih hspaces]

/-- A separator of white space parts a text into the words before it and the words behind it. -/
theorem words_append_sep {sep : PyStr} (hne : sep ≠ []) (hsep : ∀ c ∈ sep, isSpace c = true)
    (before after : PyStr) : words (before ++ sep ++ after) = words before ++ words after := by
  cases sep with
  | nil => exact absurd rfl hne
  | cons c sep =>
    obtain ⟨hc, hspaces⟩ := List.forall_mem_cons.mp hsep
    rw [List.append_assoc, List.cons_append, words_append_space hc, words_spaces_append _ hspaces]

/-- A text without white space is one word. -/
theorem words_of_isWord {word : PyStr} (hne : word ≠ []) (h : IsWord word) :
    words word = [word] := by
  have hsplit : splitSpaces word = (word, []) := by
    clear hne
    induction word with
    | nil => rfl
    | cons c word ih =>
      obtain ⟨hc, hword⟩ := List.forall_mem_cons.mp h
      rw [splitSpaces_letter hc, ih hword]
  simp [words, hsplit, hne]

/-- A word is not empty and has no white space. -/
theorem isWord_of_mem_words {text word : PyStr} (h : word ∈ words text) :
    word ≠ [] ∧ IsWord word := by
  obtain ⟨hmem, hne⟩ := List.mem_filter.mp h
  obtain ⟨hfirst, hrest⟩ := splitSpaces_shape text
  refine ⟨by simpa using hne, ?_⟩
  cases List.mem_cons.mp hmem with
  | inl heq => rw [heq]; exact hfirst
  | inr hlater =>
    obtain ⟨p, hp, rfl⟩ := List.mem_map.mp hlater
    exact (hrest p hp).2

/-- A text has no words exactly when it is blank. -/
theorem words_eq_nil_iff {text : PyStr} : words text = [] ↔ ∀ c ∈ text, isSpace c = true := by
  constructor
  · intro h
    induction text with
    | nil => exact nofun
    | cons c text ih =>
      by_cases hc : isSpace c = true
      · rw [words_cons_space hc] at h
        exact List.forall_mem_cons.mpr ⟨hc, ih h⟩
      · rw [words_eq, splitSpaces_letter (Bool.eq_false_iff.mpr hc)] at h
        simp at h
  · exact words_of_spaces

/-! ## Stripping -/

/-- A text that neither begins nor ends with white space. -/
def Stripped (text : PyStr) : Prop :=
  (∀ c ∈ text.head?, isSpace c = false) ∧ ∀ c ∈ text.getLast?, isSpace c = false

/-- What `rstrip` takes off is white space. -/
theorem rstrip_append (text : PyStr) :
    ∃ spaces, text = rstrip text ++ spaces ∧ ∀ c ∈ spaces, isSpace c = true := by
  refine ⟨(text.reverse.takeWhile isSpace).reverse, ?_, ?_⟩
  · rw [rstrip, ← List.reverse_append, List.takeWhile_append_dropWhile, List.reverse_reverse]
  · intro c hc
    exact List.mem_takeWhile_imp (List.mem_reverse.mp hc)

/-- What `strip` takes off is white space. -/
theorem strip_append (text : PyStr) : ∃ before after,
    text = before ++ strip text ++ after ∧ (∀ c ∈ before, isSpace c = true) ∧
      ∀ c ∈ after, isSpace c = true := by
  obtain ⟨after, hafter, hspaces⟩ := rstrip_append (text.dropWhile isSpace)
  refine ⟨text.takeWhile isSpace, after, ?_, fun c hc => List.mem_takeWhile_imp hc, hspaces⟩
  rw [List.append_assoc, strip, ← hafter, List.takeWhile_append_dropWhile]

/-- `rstrip` leaves no white space at the end. -/
theorem rstrip_getLast (text : PyStr) : ∀ c ∈ (rstrip text).getLast?, isSpace c = false := by
  intro c hc
  rw [rstrip, List.getLast?_reverse] at hc
  have := List.head?_dropWhile_not isSpace text.reverse
  rw [Option.mem_def.mp hc] at this
  simpa using this

/-- `strip` leaves none at either end. -/
theorem stripped_strip (text : PyStr) : Stripped (strip text) := by
  refine ⟨?_, rstrip_getLast _⟩
  intro c hc
  rw [strip] at hc
  obtain ⟨rest, hrest⟩ := prefix_rstrip (text.dropWhile isSpace)
  have hhead : c ∈ (text.dropWhile isSpace).head? := by
    rw [← hrest, List.head?_append, Option.mem_def.mp hc]
    rfl
  have := List.head?_dropWhile_not isSpace text
  rw [Option.mem_def.mp hhead] at this
  simpa using this

/-- Nothing is taken off a stripped text. -/
theorem strip_of_stripped {text : PyStr} (h : Stripped text) : strip text = text := by
  have hfront : text.dropWhile isSpace = text := by
    cases text with
    | nil => rfl
    | cons c text => exact List.dropWhile_cons_of_neg (by simp [h.1 c rfl])
  have hback : text.reverse.dropWhile isSpace = text.reverse := by
    cases hreverse : text.reverse with
    | nil => rfl
    | cons c rest =>
      refine List.dropWhile_cons_of_neg ?_
      have := h.2 c (by rw [← List.head?_reverse, hreverse]; rfl)
      simp [this]
  rw [strip, hfront, rstrip, hback, List.reverse_reverse]

/-- `strip` gives a part of the text. -/
theorem infix_strip (text : PyStr) : strip text <:+: text := by
  obtain ⟨before, after, h, _⟩ := strip_append text
  exact ⟨before, after, h.symm⟩

/-- `strip` leaves the words. -/
theorem words_strip (text : PyStr) : words (strip text) = words text := by
  obtain ⟨before, after, htext, hbefore, hafter⟩ := strip_append text
  calc words (strip text)
      = words (before ++ strip text ++ after) := by
        rw [words_append_spaces _ hafter, words_spaces_append _ hbefore]
    _ = words text := by rw [← htext]

/-- What is left of a text is empty exactly when the text is blank. -/
theorem strip_eq_nil_iff {text : PyStr} : strip text = [] ↔ words text = [] := by
  constructor
  · intro h
    rw [← words_strip, h, words_nil]
  · intro h
    rw [← words_strip, words_eq_nil_iff] at h
    cases hstrip : strip text with
    | nil => rfl
    | cons c rest =>
      have hletter := (stripped_strip text).1 c (by rw [hstrip]; rfl)
      rw [h c (by rw [hstrip]; exact List.mem_cons_self)] at hletter
      exact nomatch hletter

/-! ## Splitting and joining -/

/-- `join` puts the separator between two parts. -/
theorem join_cons_cons (sep part next : PyStr) (parts : List PyStr) :
    join sep (part :: next :: parts) = part ++ sep ++ join sep (next :: parts) := rfl

/-- `splitFrom` passes over what it has to. -/
theorem splitFrom_skip (sep : PyStr) (skip : Nat) (text : PyStr) :
    splitFrom sep skip text = splitFrom sep 0 (text.drop skip) := by
  induction text generalizing skip with
  | nil => cases skip <;> rfl
  | cons c text ih =>
    cases skip with
    | zero => rfl
    | succ skip => rw [splitFrom, ih, List.drop_succ_cons]

/-- `splitOn` gives one part at least. -/
theorem splitOn_ne_nil (sep text : PyStr) : splitOn sep text ≠ [] := by
  unfold splitOn
  cases text with
  | nil => simp [splitFrom]
  | cons c text =>
    rw [splitFrom]
    split
    · simp
    · split <;> simp

/-- `splitOn` begins with an empty part where the text begins with the separator. -/
theorem splitOn_sep {sep : PyStr} (hne : sep ≠ []) (text : PyStr) :
    splitOn sep (sep ++ text) = [] :: splitOn sep text := by
  cases sep with
  | nil => exact absurd rfl hne
  | cons c sep =>
    have hsep : (c :: sep).isPrefixOf (c :: (sep ++ text)) = true :=
      List.isPrefixOf_iff_prefix.mpr (List.prefix_append _ _)
    rw [splitOn, List.cons_append, splitFrom, if_pos hsep, splitFrom_skip]
    simp [splitOn]

/-- `splitOn` puts a character that begins no separator in front of the first part. -/
theorem splitOn_cons {sep : PyStr} {c : CodePoint} {text : PyStr} (h : ¬ sep <+: c :: text) :
    ∃ part parts, splitOn sep text = part :: parts ∧
      splitOn sep (c :: text) = (c :: part) :: parts := by
  have hsep : ¬ sep.isPrefixOf (c :: text) = true := by
    rwa [List.isPrefixOf_iff_prefix]
  cases hsplit : splitOn sep text with
  | nil => exact absurd hsplit (splitOn_ne_nil sep text)
  | cons part parts =>
    refine ⟨part, parts, rfl, ?_⟩
    rw [splitOn] at hsplit ⊢
    rw [splitFrom, if_neg hsep, hsplit]

/-- Induction along `text.split(sep)`. -/
theorem splitOn_induction {sep : PyStr} (hne : sep ≠ []) {P : PyStr → Prop} (nil : P [])
    (found : ∀ text, P text → P (sep ++ text))
    (other : ∀ c text, ¬ sep <+: c :: text → P text → P (c :: text)) (text : PyStr) : P text := by
  induction hlength : text.length using Nat.strong_induction_on generalizing text with
  | _ n ih =>
    cases text with
    | nil => exact nil
    | cons c text =>
      by_cases h : sep <+: c :: text
      · obtain ⟨rest, hrest⟩ := h
        rw [← hrest]
        refine found rest (ih rest.length ?_ rest rfl)
        have := List.length_pos_iff.mpr hne
        rw [← hlength, ← hrest, List.length_append]
        omega
      · exact other c text h (ih text.length (by rw [← hlength]; simp) text rfl)

/-- The parts of a text, joined again, are the text. -/
theorem join_splitOn {sep : PyStr} (hne : sep ≠ []) (text : PyStr) :
    join sep (splitOn sep text) = text := by
  induction text using splitOn_induction hne with
  | nil => rfl
  | found text ih =>
    rw [splitOn_sep hne]
    cases hsplit : splitOn sep text with
    | nil => exact absurd hsplit (splitOn_ne_nil sep text)
    | cons part parts =>
      rw [hsplit] at ih
      rw [join_cons_cons, ih]
      rfl
  | other c text h ih =>
    obtain ⟨part, parts, hsplit, hcons⟩ := splitOn_cons h
    rw [hsplit] at ih
    rw [hcons]
    cases parts with
    | nil => exact congrArg (c :: ·) ih
    | cons next parts => exact congrArg (c :: ·) ih

/-- The first part that `splitOn` gives begins the text. -/
theorem prefix_of_head_splitOn {sep : PyStr} (hne : sep ≠ []) (text : PyStr) :
    ∀ part ∈ (splitOn sep text).head?, part <+: text := by
  intro part hpart
  have hjoin := join_splitOn hne text
  cases hsplit : splitOn sep text with
  | nil => exact absurd hsplit (splitOn_ne_nil sep text)
  | cons first parts =>
    rw [hsplit] at hpart hjoin
    obtain rfl := Option.some.inj hpart
    rw [← hjoin]
    cases parts with
    | nil => exact List.prefix_rfl
    | cons next parts =>
      rw [join_cons_cons, List.append_assoc]
      exact List.prefix_append _ _

/-- No part of a text has the separator in it. -/
theorem not_infix_of_mem_splitOn {sep : PyStr} (hne : sep ≠ []) (text : PyStr) :
    ∀ part ∈ splitOn sep text, ¬ sep <:+: part := by
  induction text using splitOn_induction hne with
  | nil =>
    intro part hpart
    rw [List.mem_singleton.mp hpart, List.infix_nil]
    exact hne
  | found text ih =>
    rw [splitOn_sep hne]
    refine List.forall_mem_cons.mpr ⟨?_, ih⟩
    rw [List.infix_nil]
    exact hne
  | other c text h ih =>
    obtain ⟨part, parts, hsplit, hcons⟩ := splitOn_cons h
    rw [hsplit] at ih
    rw [hcons]
    obtain ⟨hpart, hparts⟩ := List.forall_mem_cons.mp ih
    refine List.forall_mem_cons.mpr ⟨?_, hparts⟩
    rw [List.infix_cons_iff]
    rintro (hprefix' | hinfix')
    · have := prefix_of_head_splitOn hne text part (by rw [hsplit]; rfl)
      exact h (hprefix'.trans (List.cons_prefix_cons.mpr ⟨rfl, this⟩))
    · exact hpart hinfix'

/-- The words of parts that are joined by white space are those of each part. -/
theorem words_join {sep : PyStr} (hne : sep ≠ []) (hsep : ∀ c ∈ sep, isSpace c = true)
    (parts : List PyStr) : words (join sep parts) = parts.flatMap words := by
  induction parts with
  | nil => rfl
  | cons part parts ih =>
    cases parts with
    | nil => simp [join]
    | cons next parts =>
      rw [join_cons_cons, words_append_sep hne hsep, ih]
      rfl

/-- The words of a text are those of its parts, when the separator is white space. -/
theorem words_splitOn {sep : PyStr} (hne : sep ≠ []) (hsep : ∀ c ∈ sep, isSpace c = true)
    (text : PyStr) : (splitOn sep text).flatMap words = words text := by
  rw [← words_join hne hsep, join_splitOn hne]

/-! ## Lines of words -/

/-- Words, none of which is empty. -/
def Words (line : List PyStr) : Prop := ∀ word ∈ line, word ≠ [] ∧ IsWord word

/-- One more word makes more words. -/
theorem Words.concat {line : List PyStr} (h : Words line) {word : PyStr}
    (hword : word ≠ [] ∧ IsWord word) : Words (line ++ [word]) := by
  intro other hother
  cases List.mem_append.mp hother with
  | inl hmem => exact h other hmem
  | inr hlast => rwa [List.mem_singleton.mp hlast]

/-- `words` gives words. -/
theorem words_words (text : PyStr) : Words (words text) := fun _ h => isWord_of_mem_words h

/-- The words of a line of words are the line. -/
theorem words_join_words {sep : PyStr} (hne : sep ≠ []) (hsep : ∀ c ∈ sep, isSpace c = true)
    {line : List PyStr} (h : Words line) : words (join sep line) = line := by
  rw [words_join hne hsep]
  induction line with
  | nil => rfl
  | cons word line ih =>
    obtain ⟨⟨hword, hisWord⟩, hline⟩ := List.forall_mem_cons.mp h
    rw [List.flatMap_cons, words_of_isWord hword hisWord, ih hline, List.singleton_append]

/-- `join` puts one more part behind a separator. -/
theorem join_concat (sep : PyStr) {line : List PyStr} (hline : line ≠ []) (word : PyStr) :
    join sep (line ++ [word]) = join sep line ++ sep ++ word := by
  induction line with
  | nil => exact absurd rfl hline
  | cons first line ih =>
    cases line with
    | nil => rfl
    | cons next line =>
      rw [List.cons_append, List.cons_append, join_cons_cons, ← List.cons_append,
        ih (List.cons_ne_nil _ _), join_cons_cons]
      simp only [List.append_assoc]

/-- Words that are joined are no empty text. -/
theorem join_words_ne_nil (sep : PyStr) {line : List PyStr} (h : Words line) (hline : line ≠ []) :
    join sep line ≠ [] := by
  rw [← List.dropLast_concat_getLast hline]
  exact join_ne_nil sep _ (h _ (List.getLast_mem hline)).1

/-- A word neither begins nor ends with white space. -/
theorem stripped_of_isWord {word : PyStr} (h : IsWord word) : Stripped word :=
  ⟨fun c hc => h c (List.mem_of_head? hc), fun c hc => h c (List.mem_of_getLast? hc)⟩

/-- A line of words neither begins nor ends with white space. -/
theorem stripped_join_words (sep : PyStr) {line : List PyStr} (h : Words line) :
    Stripped (join sep line) := by
  constructor
  · intro c hc
    cases line with
    | nil => exact nomatch hc
    | cons first line =>
      obtain ⟨hfirst, hword⟩ := h first List.mem_cons_self
      cases line with
      | nil => exact (stripped_of_isWord hword).1 c hc
      | cons next line =>
        cases first with
        | nil => exact absurd rfl hfirst
        | cons d first => exact (stripped_of_isWord hword).1 c hc
  · intro c hc
    by_cases hline : line = []
    · rw [hline] at hc
      exact nomatch hc
    obtain ⟨hlast, hword⟩ := h _ (List.getLast_mem hline)
    rw [← List.dropLast_concat_getLast hline] at hc
    by_cases hfront : line.dropLast = []
    · rw [hfront] at hc
      exact (stripped_of_isWord hword).2 c hc
    · rw [join_concat sep hfront, List.getLast?_append, List.getLast?_eq_some_getLast hlast,
        Option.some_or, ← List.getLast?_eq_some_getLast hlast] at hc
      exact (stripped_of_isWord hword).2 c hc

/-- A character of a line is one of a word or of the separator. -/
theorem mem_join {sep : PyStr} {line : List PyStr} {c : CodePoint} (hc : c ∈ join sep line) :
    c ∈ sep ∨ ∃ word ∈ line, c ∈ word := by
  induction line with
  | nil => exact nomatch hc
  | cons first line ih =>
    cases line with
    | nil => exact .inr ⟨first, List.mem_cons_self, hc⟩
    | cons next line =>
      rw [join_cons_cons, List.mem_append, List.mem_append] at hc
      rcases hc with (hfirst | hsep) | hrest
      · exact .inr ⟨first, List.mem_cons_self, hfirst⟩
      · exact .inl hsep
      · cases ih hrest with
        | inl hsep => exact .inl hsep
        | inr hword =>
          obtain ⟨word, hmem, hc⟩ := hword
          exact .inr ⟨word, List.mem_cons_of_mem _ hmem, hc⟩

/-- The first word is no longer than the text. -/
theorem length_splitSpaces_le (text : PyStr) : (splitSpaces text).1.length ≤ text.length := by
  have := congrArg List.length (splitSpaces_join text)
  rw [List.length_append] at this
  omega

/-- A word of a text is no longer than the text. -/
theorem length_le_of_mem_words {text word : PyStr} (h : word ∈ words text) :
    word.length ≤ text.length := by
  induction text with
  | nil => exact nomatch h
  | cons c text ih =>
    rw [List.length_cons]
    by_cases hc : isSpace c = true
    · rw [words_cons_space hc] at h
      exact (ih h).trans (Nat.le_succ _)
    · have hc := Bool.eq_false_iff.mpr hc
      rw [words_eq, laterWords_letter hc, splitSpaces_letter hc, if_neg (List.cons_ne_nil _ _)] at h
      cases List.mem_cons.mp h with
      | inl hfirst =>
        rw [hfirst, List.length_cons]
        exact Nat.succ_le_succ (length_splitSpaces_le text)
      | inr hlater =>
        refine (ih ?_).trans (Nat.le_succ _)
        rw [words_eq]
        exact List.mem_append_right _ hlater

/-- The first word that `splitSpaces` gives has characters of the text. -/
theorem mem_of_mem_splitSpaces {text : PyStr} {c : CodePoint} (h : c ∈ (splitSpaces text).1) :
    c ∈ text := by
  rw [← splitSpaces_join text]
  exact List.mem_append_left _ h

/-- The characters of a word are those of the text. -/
theorem mem_of_mem_words {text word : PyStr} {c : CodePoint} (h : word ∈ words text)
    (hc : c ∈ word) : c ∈ text := by
  induction text with
  | nil => exact nomatch h
  | cons d text ih =>
    by_cases hd : isSpace d = true
    · rw [words_cons_space hd] at h
      exact List.mem_cons_of_mem d (ih h)
    · have hd := Bool.eq_false_iff.mpr hd
      rw [words_eq, laterWords_letter hd, splitSpaces_letter hd, if_neg (List.cons_ne_nil _ _)] at h
      cases List.mem_cons.mp h with
      | inl hfirst =>
        rw [hfirst] at hc
        exact List.mem_cons.mpr ((List.mem_cons.mp hc).imp_right mem_of_mem_splitSpaces)
      | inr hlater =>
        refine List.mem_cons_of_mem d (ih ?_)
        rw [words_eq]
        exact List.mem_append_right _ hlater

/-- A character that is no white space is in a word. -/
theorem exists_mem_words {text : PyStr} {c : CodePoint} (h : c ∈ text) (hc : isSpace c = false) :
    ∃ word ∈ words text, c ∈ word := by
  induction text with
  | nil => exact nomatch h
  | cons d text ih =>
    by_cases hd : isSpace d = true
    · rw [words_cons_space hd]
      rcases List.mem_cons.mp h with rfl | hmem
      · exact nomatch hd.symm.trans hc
      · exact ih hmem
    · have hd := Bool.eq_false_iff.mpr hd
      rw [words_eq, laterWords_letter hd, splitSpaces_letter hd, if_neg (List.cons_ne_nil _ _)]
      rcases List.mem_cons.mp h with rfl | hmem
      · exact ⟨_, List.mem_cons_self, List.mem_cons_self⟩
      · obtain ⟨word, hword, hcword⟩ := ih hmem
        rw [words_eq, List.mem_append] at hword
        cases hword with
        | inl hfirst =>
          split at hfirst
          · exact nomatch hfirst
          · rw [List.mem_singleton.mp hfirst] at hcword
            exact ⟨_, List.mem_cons_self, List.mem_cons_of_mem d hcword⟩
        | inr hlater => exact ⟨word, List.mem_cons_of_mem _ hlater, hcword⟩

end PyStr

end PyJson
