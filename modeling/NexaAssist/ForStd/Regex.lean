/-!
# Regular expressions with word boundaries

Expressions of character classes, sequence, choice, repetition of a class, and `\b`.
`Spans` says which spans of a text an expression matches, for any notion of which
positions are boundaries; `ends` computes the spans from a start, and `search` looks for
one anywhere. A match of a part of a text is a match of the text, as long as the part
has no boundary that the text has not.
-/

/-- A regular expression over characters `α`. -/
inductive Regex (α : Type)
  | empty
  | one (inClass : α → Bool)
  | seq (first second : Regex α)
  | alt (left right : Regex α)
  /-- A class, any number of times. -/
  | many (inClass : α → Bool)
  /-- `\b`. -/
  | boundary

namespace Regex

variable {α : Type}

/-- An expression or nothing. -/
def opt (r : Regex α) : Regex α := alt r empty

/-- A class, at least once. -/
def some1 (inClass : α → Bool) : Regex α := seq (one inClass) (many inClass)

/-! ## Spans -/

/-- `r` matches `text` from position `i` to position `j`, where `cut` are the boundaries. -/
def Spans (cut : Nat → Prop) (text : List α) : Regex α → Nat → Nat → Prop
  | empty, i, j => i = j
  | one inClass, i, j => (∃ c, text[i]? = some c ∧ inClass c = true) ∧ j = i + 1
  | seq r t, i, j => ∃ k, Spans cut text r i k ∧ Spans cut text t k j
  | alt r t, i, j => Spans cut text r i j ∨ Spans cut text t i j
  | many inClass, i, j =>
    i ≤ j ∧ ∀ k, i ≤ k → k < j → ∃ c, text[k]? = some c ∧ inClass c = true
  | boundary, i, j => i = j ∧ cut i

/-- A match in a part of a text, `k` characters in, is a match in the text. -/
theorem Spans.shift {cut cut' : Nat → Prop} {text part : List α} {k : Nat}
    (hpart : ∀ i c, part[i]? = some c → text[i + k]? = some c)
    (hcut : ∀ i, cut' i → cut (i + k)) {r : Regex α} {i j : Nat}
    (h : Spans cut' part r i j) : Spans cut text r (i + k) (j + k) := by
  induction r generalizing i j with
  | empty =>
    have hij : i = j := h
    exact congrArg (· + k) hij
  | one inClass =>
    obtain ⟨⟨c, hc, hclass⟩, hj⟩ := h
    exact ⟨⟨c, hpart i c hc, hclass⟩, by omega⟩
  | seq r t ihr iht =>
    obtain ⟨m, hr, ht⟩ := h
    exact ⟨m + k, ihr hr, iht ht⟩
  | alt r t ihr iht =>
    cases h with
    | inl hr => exact .inl (ihr hr)
    | inr ht => exact .inr (iht ht)
  | many inClass =>
    obtain ⟨hle, hall⟩ := h
    refine ⟨by omega, ?_⟩
    intro m hm hlt
    obtain ⟨c, hc, hclass⟩ := hall (m - k) (by omega) (by omega)
    have hm' : m - k + k = m := by omega
    exact ⟨c, hm' ▸ hpart (m - k) c hc, hclass⟩
  | boundary =>
    obtain ⟨hij, hi⟩ := h
    exact ⟨by omega, hcut i hi⟩

/-! ## Search -/

/-- Whether there is a character of class `word` at position `i`. -/
def classAt (word : α → Bool) (text : List α) (i : Nat) : Bool := (text[i]?).any word

/-- `\b`: a word starts or ends before position `i`. -/
def atBoundary (word : α → Bool) (text : List α) (i : Nat) : Bool :=
  (0 < i && classAt word text (i - 1)) != classAt word text i

/-- The positions up to which an expression matches from position `i`. -/
def ends (word : α → Bool) (text : List α) : Regex α → Nat → List Nat
  | empty, i => [i]
  | one inClass, i => if classAt inClass text i then [i + 1] else []
  | seq r t, i => (ends word text r i).flatMap (ends word text t)
  | alt r t, i => ends word text r i ++ ends word text t i
  | many inClass, i =>
    (List.range (((text.drop i).takeWhile inClass).length + 1)).map (i + ·)
  | boundary, i => if atBoundary word text i then [i] else []

/-- Whether an expression matches anywhere in a text. -/
def search (word : α → Bool) (r : Regex α) (text : List α) : Bool :=
  (List.range (text.length + 1)).any fun i => !(ends word text r i).isEmpty

/-- `classAt` asks for a character of the class at a position. -/
theorem classAt_iff {inClass : α → Bool} {text : List α} {i : Nat} :
    classAt inClass text i = true ↔ ∃ c, text[i]? = some c ∧ inClass c = true := by
  unfold classAt
  cases text[i]? with
  | none => simp
  | some c => simp

/-- `takeWhile` takes at least `n` characters just if the first `n` are of the class. -/
theorem le_takeWhile_iff {inClass : α → Bool} {text : List α} {n : Nat} :
    n ≤ (text.takeWhile inClass).length ↔ ∀ k < n, ∃ c, text[k]? = some c ∧ inClass c = true := by
  induction text generalizing n with
  | nil =>
    cases n with
    | zero => simp
    | succ n =>
      have hno : ¬ ∀ k < n + 1, ∃ c, ([] : List α)[k]? = some c ∧ inClass c = true := by
        intro h
        obtain ⟨c, hc, -⟩ := h 0 (by omega)
        exact nomatch hc
      simpa using hno
  | cons a text ih =>
    cases n with
    | zero => simp
    | succ n =>
      cases ha : inClass a with
      -- Nothing is taken, since the first character is not of the class
      | false =>
        have hno : ¬ ∀ k < n + 1, ∃ c, (a :: text)[k]? = some c ∧ inClass c = true := by
          intro h
          obtain ⟨c, hc, hclass⟩ := h 0 (by omega)
          simp only [List.getElem?_cons_zero, Option.some.injEq] at hc
          rw [← hc, ha] at hclass
          exact nomatch hclass
        rw [List.takeWhile_cons_of_neg (by simp [ha])]
        simpa using hno
      | true =>
        rw [List.takeWhile_cons_of_pos ha, List.length_cons, Nat.add_le_add_iff_right, ih]
        constructor
        · intro h k hk
          cases k with
          | zero => exact ⟨a, rfl, ha⟩
          | succ k => exact h k (by omega)
        · intro h k hk
          exact h (k + 1) (by omega)

/-- `ends` computes the spans. -/
theorem mem_ends_iff {word : α → Bool} {text : List α} {r : Regex α} {i j : Nat} :
    j ∈ ends word text r i ↔ Spans (atBoundary word text · = true) text r i j := by
  -- Induction on the expression
  induction r generalizing i j with
  | empty => simp only [ends, List.mem_singleton, Spans, eq_comm]
  | one inClass =>
    simp only [ends, Spans, ← classAt_iff]
    split
    · rename_i h
      simp [h]
    · rename_i h
      simp [h]
  | seq r t ihr iht => simp only [ends, List.mem_flatMap, Spans, ihr, iht]
  | alt r t ihr iht => simp only [ends, List.mem_append, Spans, ihr, iht]
  | many inClass =>
    simp only [ends, Spans, List.mem_map, List.mem_range, Nat.lt_succ_iff]
    constructor
    -- Each length up to the run of the class is tried
    · rintro ⟨n, hn, rfl⟩
      refine ⟨by omega, ?_⟩
      intro k hk hlt
      obtain ⟨c, hc, hclass⟩ := le_takeWhile_iff.mp hn (k - i) (by omega)
      rw [List.getElem?_drop, show i + (k - i) = k by omega] at hc
      exact ⟨c, hc, hclass⟩
    · rintro ⟨hle, hall⟩
      refine ⟨j - i, le_takeWhile_iff.mpr ?_, by omega⟩
      intro k hk
      rw [List.getElem?_drop]
      exact hall (i + k) (by omega) (by omega)
  | boundary =>
    simp only [ends, Spans]
    split
    · rename_i h
      simp [h, eq_comm]
    · rename_i h
      simp [h]

/-- `search` finds a match just if there is one at some position. -/
theorem search_iff {word : α → Bool} {r : Regex α} {text : List α} :
    search word r text = true ↔
      ∃ i ≤ text.length, ∃ j, Spans (atBoundary word text · = true) text r i j := by
  simp only [search, List.any_eq_true, List.mem_range, Nat.lt_succ_iff, Bool.not_eq_true',
    List.isEmpty_eq_false_iff_exists_mem, mem_ends_iff]

/-- No boundary lies past the end of a text. -/
theorem le_of_atBoundary {word : α → Bool} {text : List α} {i : Nat}
    (h : atBoundary word text i = true) : i ≤ text.length := by
  refine Nat.le_of_not_lt fun hlt => ?_
  have hbefore : text[i - 1]? = none := List.getElem?_eq_none (by omega)
  have hat : text[i]? = none := List.getElem?_eq_none (by omega)
  simp [atBoundary, classAt, hbefore, hat] at h

/-- What `search` finds in a part of a text it finds in the text, if the boundaries of the part are
    boundaries of the text. -/
theorem search_of_part {word : α → Bool} {r : Regex α} {before part after : List α}
    (hcut : ∀ i ≤ part.length, atBoundary word part i = true →
      atBoundary word (before ++ part ++ after) (i + before.length) = true)
    (h : search word r part = true) : search word r (before ++ part ++ after) = true := by
  obtain ⟨i, hi, j, hspans⟩ := search_iff.mp h
  refine search_iff.mpr ⟨i + before.length, by simp; omega, j + before.length, ?_⟩
  apply hspans.shift
  · intro i c hc
    have hlt : i < part.length := (List.getElem?_eq_some_iff.mp hc).1
    rw [List.append_assoc, List.getElem?_append_right (by omega), Nat.add_sub_cancel,
      List.getElem?_append_left hlt, hc]
  · exact fun i hi => hcut i (le_of_atBoundary hi) hi

/-- What `search` finds in a part it finds in the text, if no word goes on over either end of the
    part. -/
theorem search_of_words {word : α → Bool} {r : Regex α} {before part after : List α}
    (hstart : before ≠ [] → ∀ c, part.head? = some c → word c = false)
    (hend : part ≠ [] → ∀ c, after.head? = some c → word c = false)
    (h : search word r part = true) : search word r (before ++ part ++ after) = true := by
  apply search_of_part _ h
  intro i hi hcut
  -- What follows position `k` of the part follows it in the text, but for a non-word after.
  have hnext : ∀ k, k ≤ part.length → part ≠ [] →
      classAt word (before ++ part ++ after) (k + before.length) = classAt word part k := by
    intro k hk hne
    unfold classAt
    rw [List.append_assoc, List.getElem?_append_right (by omega), Nat.add_sub_cancel]
    by_cases hlt : k < part.length
    · rw [List.getElem?_append_left hlt]
    · have hlen : k = part.length := by omega
      have hout : part[part.length]? = none := List.getElem?_eq_none (Nat.le_refl _)
      rw [hlen, List.getElem?_append_right (Nat.le_refl _), Nat.sub_self, hout,
        ← List.head?_eq_getElem?]
      cases hafter : after.head? with
      | none => rfl
      | some c => simpa using hend hne c hafter
  have hne : part ≠ [] := by
    intro hnil
    have hi0 : i = 0 := by simpa [hnil] using hi
    simp [hnil, hi0, atBoundary, classAt] at hcut
  unfold atBoundary at hcut ⊢
  rw [hnext i hi hne]
  cases i with
  | succ i =>
    have hprev : i + 1 + before.length - 1 = i + before.length := by omega
    rw [hprev, hnext i (by omega) hne]
    have hpos : 0 < i + 1 + before.length := by omega
    simpa [hpos] using hcut
  -- In front of the part is the end of `before`, which matters only if a word begins here
  | zero =>
    have hword : classAt word part 0 = true := by simpa using hcut
    by_cases hbefore : before = []
    · simp [hbefore, hword]
    · -- The part starts with no word, so there is no boundary.
      obtain ⟨c, hc, hclass⟩ := classAt_iff.mp hword
      rw [← List.head?_eq_getElem?] at hc
      rw [hstart hbefore c hc] at hclass
      exact nomatch hclass

/-! ## Boundaries in a part of a text -/

/-- Before the end of the first part the boundaries are those of the first part. -/
theorem atBoundary_append_left {word : α → Bool} {left right : List α} {i : Nat}
    (hi : i < left.length) : atBoundary word (left ++ right) i = atBoundary word left i := by
  have hclass : ∀ k < left.length, classAt word (left ++ right) k = classAt word left k := by
    intro k hk
    unfold classAt
    rw [List.getElem?_append_left hk]
  unfold atBoundary
  rw [hclass i hi, hclass (i - 1) (by omega)]

/-- Behind the start of the second part the boundaries are those of the second part. -/
theorem atBoundary_append_right {word : α → Bool} {left right : List α} {i : Nat}
    (hi : 0 < i) : atBoundary word (left ++ right) (left.length + i) = atBoundary word right i := by
  have hclass : ∀ k, classAt word (left ++ right) (left.length + k) = classAt word right k := by
    intro k
    unfold classAt
    rw [List.getElem?_append_right (by omega), Nat.add_sub_cancel_left]
  unfold atBoundary
  have hpos : 0 < left.length + i := by omega
  rw [hclass i, show left.length + i - 1 = left.length + (i - 1) by omega, hclass (i - 1)]
  simp only [hi, hpos]

/-! ## The alphabet -/

/-- Only the characters of the text matter to `\b`. -/
theorem atBoundary_congr {word word' : α → Bool} {text : List α}
    (h : ∀ c ∈ text, word c = word' c) (i : Nat) :
    atBoundary word text i = atBoundary word' text i := by
  have hclass : ∀ k, classAt word text k = classAt word' text k := by
    intro k
    unfold classAt
    cases hk : text[k]? with
    | none => rfl
    | some c => exact h c (List.mem_of_getElem? hk)
  unfold atBoundary
  rw [hclass, hclass]

/-- Only the characters of the text matter to a search. -/
theorem search_congr {word word' : α → Bool} {text : List α}
    (h : ∀ c ∈ text, word c = word' c) (r : Regex α) :
    search word r text = search word' r text := by
  have hcut : (atBoundary word text · = true) = (atBoundary word' text · = true) := by
    funext i
    rw [atBoundary_congr h i]
  rw [Bool.eq_iff_iff, search_iff, search_iff, hcut]

end Regex
