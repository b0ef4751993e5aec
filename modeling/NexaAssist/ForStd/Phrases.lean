/-!
# Phrases in a text

A phrase is a word, and other words that each come after some white space. `Occurs` says where
one stands in a text. In a text that is put together of two it stands in one of them, or a word
or the white space between two words of it is where they meet.
-/

namespace Phrase

variable {α : Type} (space : α → Bool)

/-- A word: some characters, and no white space among them. -/
def Solid (word : List α) : Prop := word ≠ [] ∧ ∀ c ∈ word, space c = false

/-- Some white space, and nothing else, from `i` to `j`. -/
def Blank (text : List α) (i j : Nat) : Prop :=
  i < j ∧ ∀ k, i ≤ k → k < j → ∃ c, text[k]? = some c ∧ space c = true

/-- Words stand in a text from `i` to `j`, each after some white space. -/
def Follows (text : List α) : List (List α) → Nat → Nat → Prop
  | [], i, j => i = j
  | word :: words, i, j =>
    ∃ k, Blank space text i k ∧ word <+: text.drop k ∧ Follows text words (k + word.length) j

/-- A phrase stands in a text from `i` to `j`. -/
def Occurs (text : List α) (word : List α) (words : List (List α)) (i j : Nat) : Prop :=
  word <+: text.drop i ∧ Follows space text words (i + word.length) j

variable {space} {text left right word : List α} {words : List (List α)} {i j k : Nat} {c : α}

/-! ## Characters -/

/-- A word that stands at a position has its characters there. -/
theorem getElem?_of_stands (h : word <+: text.drop i) (hk : k < word.length) :
    text[i + k]? = word[k]? := by
  obtain ⟨rest, hrest⟩ := h
  rw [← List.getElem?_drop, ← hrest, List.getElem?_append_left hk]

/-- There is no white space where a word is. -/
theorem space_of_solid (hword : Solid space word) (h : word <+: text.drop i) (hi : i ≤ k)
    (hk : k < i + word.length) (hc : text[k]? = some c) : space c = false := by
  have hget := getElem?_of_stands h (k := k - i) (by omega)
  rw [show i + (k - i) = k by omega, hc] at hget
  exact hword.2 c (List.mem_of_getElem? hget.symm)

/-- A word has a first character. -/
theorem exists_of_solid (hword : Solid space word) (h : word <+: text.drop i) :
    ∃ c, text[i]? = some c ∧ space c = false := by
  obtain ⟨c, rest, rfl⟩ := List.exists_cons_of_ne_nil hword.1
  have hget := getElem?_of_stands h (k := 0) (by simp)
  exact ⟨c, by simpa using hget, hword.2 c List.mem_cons_self⟩

/-- The last character of a word is no white space. -/
theorem exists_last_of_solid (hword : Solid space word) (h : word <+: text.drop i) :
    ∃ c, text[i + word.length - 1]? = some c ∧ space c = false := by
  have hlength : 0 < word.length := List.length_pos_iff.mpr hword.1
  have hget := getElem?_of_stands h (k := word.length - 1) (by omega)
  have hlast : word.length - 1 < word.length := by omega
  rw [List.getElem?_eq_getElem hlast, show i + (word.length - 1) = i + word.length - 1 by omega]
    at hget
  exact ⟨_, hget, hword.2 _ (List.getElem_mem hlast)⟩

/-- White space ends where a word begins. -/
theorem Blank.end_le {j' : Nat} (h : Blank space text i j) (hword : Solid space word)
    (hj : word <+: text.drop j') (hi : i ≤ j') : j ≤ j' := by
  refine Nat.le_of_not_lt fun hlt => ?_
  obtain ⟨c, hc, hspace⟩ := h.2 j' hi hlt
  obtain ⟨d, hd, hsolid⟩ := exists_of_solid hword hj
  rw [hc] at hd
  rw [Option.some.inj hd, hsolid] at hspace
  exact nomatch hspace

/-- White space behind a word does not begin before the word ends. -/
theorem Blank.le_start (h : Blank space text i j) (hword : Solid space word)
    (hk : word <+: text.drop k) (hj : k + word.length ≤ j) : k + word.length ≤ i := by
  have hlength : 0 < word.length := List.length_pos_iff.mpr hword.1
  refine Nat.le_of_not_lt fun hlt => ?_
  obtain ⟨c, hc, hspace⟩ := h.2 (k + word.length - 1) (by omega) (by omega)
  obtain ⟨d, hd, hsolid⟩ := exists_last_of_solid hword hk
  rw [hc] at hd
  rw [Option.some.inj hd, hsolid] at hspace
  exact nomatch hspace

/-- A word that begins before white space does not go on over it. -/
theorem Blank.word_le (h : Blank space text j k) (hword : Solid space word)
    (hi : word <+: text.drop i) (hij : i ≤ j) : i + word.length ≤ j := by
  refine Nat.le_of_not_lt fun hlt => ?_
  obtain ⟨c, hc, hspace⟩ := h.2 j (Nat.le_refl j) h.1
  have hsolid := space_of_solid hword hi hij hlt hc
  rw [hspace] at hsolid
  exact nomatch hsolid

/-- White space between two words ends where the second begins. -/
theorem Blank.end_unique {word' : List α} {j' : Nat} (h : Blank space text i j)
    (hword : Solid space word) (hj : word <+: text.drop j) (h' : Blank space text i j')
    (hword' : Solid space word') (hj' : word' <+: text.drop j') : j = j' := by
  refine Nat.le_antisymm ?_ ?_
  · exact h.end_le hword' hj' (Nat.le_of_lt h'.1)
  · exact h'.end_le hword hj (Nat.le_of_lt h.1)

/-! ## Where a phrase ends -/

/-- Words that follow end no earlier than they begin. -/
theorem Follows.le (h : Follows space text words i j) : i ≤ j := by
  induction words generalizing i with
  | nil => exact Nat.le_of_eq h
  | cons word words ih =>
    obtain ⟨k, hblank, -, hrest⟩ := h
    have := ih hrest
    have := hblank.1
    omega

/-- The last word of a phrase. -/
def lastWord (word : List α) : List (List α) → List α
  | [] => word
  | next :: words => lastWord next words

/-- A word ends what it stands at the end of. -/
theorem suffix_take (h : word <+: text.drop i) : word <:+ text.take (i + word.length) := by
  obtain ⟨rest, hrest⟩ := h
  refine ⟨text.take i, ?_⟩
  rw [List.take_add, ← hrest, List.take_left]

/-- A phrase ends with its last word. -/
theorem Occurs.suffix (h : Occurs space text word words i j) :
    lastWord word words <:+ text.take j := by
  induction words generalizing word i with
  | nil =>
    obtain ⟨hword, hend⟩ := h
    have hj : i + word.length = j := hend
    exact hj ▸ suffix_take hword
  | cons next words ih =>
    obtain ⟨-, k, -, hnext, hrest⟩ := h
    exact ih ⟨hnext, hrest⟩

/-! ## Parts of a text -/

/-- A word on the left stands in the whole. -/
theorem prefix_append (h : word <+: left.drop i) : word <+: (left ++ right).drop i := by
  rw [List.drop_append]
  exact h.trans (List.prefix_append _ _)

/-- A word on the right stands further on in the whole. -/
theorem prefix_shift (h : word <+: right.drop i) :
    word <+: (left ++ right).drop (left.length + i) := by
  rw [List.drop_length_add_append]
  exact h

/-- A word of the whole that ends on the left stands there. -/
theorem prefix_of_append (h : word <+: (left ++ right).drop i)
    (hi : i + word.length ≤ left.length) : word <+: left.drop i := by
  rw [List.drop_append] at h
  refine List.prefix_of_prefix_length_le h (List.prefix_append _ _) ?_
  rw [List.length_drop]
  omega

/-- White space on the left is white space in the whole. -/
theorem Blank.append (h : Blank space left i j) : Blank space (left ++ right) i j := by
  refine ⟨h.1, ?_⟩
  intro k hik hkj
  obtain ⟨c, hc, hspace⟩ := h.2 k hik hkj
  have hk : k < left.length := (List.getElem?_eq_some_iff.mp hc).1
  exact ⟨c, by rw [List.getElem?_append_left hk, hc], hspace⟩

/-- White space of the whole that ends on the left is white space there. -/
theorem Blank.of_append (h : Blank space (left ++ right) i j) (hj : j ≤ left.length) :
    Blank space left i j := by
  refine ⟨h.1, ?_⟩
  intro k hik hkj
  obtain ⟨c, hc, hspace⟩ := h.2 k hik hkj
  rw [List.getElem?_append_left (by omega)] at hc
  exact ⟨c, hc, hspace⟩

/-- White space on the right is white space further on in the whole. -/
theorem Blank.shift (h : Blank space right i j) :
    Blank space (left ++ right) (left.length + i) (left.length + j) := by
  refine ⟨Nat.add_lt_add_left h.1 _, ?_⟩
  intro k hik hkj
  obtain ⟨c, hc, hspace⟩ := h.2 (k - left.length) (by omega) (by omega)
  rw [List.getElem?_append_right (by omega)]
  exact ⟨c, hc, hspace⟩

/-- White space of the whole behind the left is white space on the right. -/
theorem Blank.of_shift (h : Blank space (left ++ right) (left.length + i) (left.length + j)) :
    Blank space right i j := by
  refine ⟨by have := h.1; omega, ?_⟩
  intro k hik hkj
  obtain ⟨c, hc, hspace⟩ := h.2 (left.length + k) (by omega) (by omega)
  rw [List.getElem?_append_right (by omega), Nat.add_sub_cancel_left] at hc
  exact ⟨c, hc, hspace⟩

/-- Words that follow on the left follow in the whole. -/
theorem Follows.append (h : Follows space left words i j) :
    Follows space (left ++ right) words i j := by
  induction words generalizing i with
  | nil => exact h
  | cons word words ih =>
    obtain ⟨k, hblank, hword, hrest⟩ := h
    exact ⟨k, hblank.append, prefix_append hword, ih hrest⟩

/-- Words of the whole that end on the left follow one another there. -/
theorem Follows.of_append (h : Follows space (left ++ right) words i j) (hj : j ≤ left.length) :
    Follows space left words i j := by
  induction words generalizing i with
  | nil => exact h
  | cons word words ih =>
    obtain ⟨k, hblank, hword, hrest⟩ := h
    have hk : k + word.length ≤ j := hrest.le
    exact ⟨k, hblank.of_append (by omega), prefix_of_append hword (by omega), ih hrest⟩

/-- Words on the right follow one another further on in the whole. -/
theorem Follows.shift (h : Follows space right words i j) :
    Follows space (left ++ right) words (left.length + i) (left.length + j) := by
  induction words generalizing i with
  | nil => exact congrArg (left.length + ·) h
  | cons word words ih =>
    obtain ⟨k, hblank, hword, hrest⟩ := h
    refine ⟨left.length + k, hblank.shift, prefix_shift hword, ?_⟩
    rw [Nat.add_assoc]
    exact ih hrest

/-- Words of the whole behind the left follow one another on the right. -/
theorem Follows.of_shift
    (h : Follows space (left ++ right) words (left.length + i) (left.length + j)) :
    Follows space right words i j := by
  induction words generalizing i with
  | nil =>
    have hij : left.length + i = left.length + j := h
    exact Nat.add_left_cancel hij
  | cons word words ih =>
    obtain ⟨k, hblank, hword, hrest⟩ := h
    obtain ⟨m, rfl⟩ := Nat.exists_eq_add_of_le (show left.length ≤ k by have := hblank.1; omega)
    rw [List.drop_length_add_append] at hword
    rw [Nat.add_assoc] at hrest
    exact ⟨m, hblank.of_shift, hword, ih hrest⟩

/-- A phrase that occurs in the first part occurs in the whole text. -/
theorem Occurs.append (h : Occurs space left word words i j) :
    Occurs space (left ++ right) word words i j :=
  ⟨prefix_append h.1, h.2.append⟩

/-- A phrase that ends in the first part occurs in it. -/
theorem Occurs.of_append (h : Occurs space (left ++ right) word words i j)
    (hj : j ≤ left.length) : Occurs space left word words i j :=
  ⟨prefix_of_append h.1 (Nat.le_trans h.2.le hj), h.2.of_append hj⟩

/-- A phrase that occurs in the second part occurs further on in the whole text. -/
theorem Occurs.shift (h : Occurs space right word words i j) :
    Occurs space (left ++ right) word words (left.length + i) (left.length + j) :=
  ⟨prefix_shift h.1, Nat.add_assoc .. ▸ h.2.shift⟩

/-- A phrase that starts in the second part occurs in it. -/
theorem Occurs.of_shift
    (h : Occurs space (left ++ right) word words (left.length + i) (left.length + j)) :
    Occurs space right word words i j := by
  obtain ⟨hword, hrest⟩ := h
  rw [List.drop_length_add_append] at hword
  rw [Nat.add_assoc] at hrest
  exact ⟨hword, hrest.of_shift⟩

/-! ## A position within a phrase -/

/-- Where there is white space within a phrase, one word ends before it and the next begins
    after it. -/
theorem Occurs.cross_blank {q : Nat} (hsolid : ∀ w ∈ word :: words, Solid space w)
    (h : Occurs space text word words i j) (hi : i ≤ q) (hj : q < j)
    (hc : text[q]? = some c) (hspace : space c = true) :
    ∃ front prev next back a b, word :: words = front ++ prev :: next :: back ∧
      (front = [] → a = i) ∧ prev <+: text.drop a ∧ Blank space text (a + prev.length) b ∧
      a + prev.length ≤ q ∧ q < b ∧ next <+: text.drop b ∧
      Follows space text back (b + next.length) j := by
  have hblank : Blank space text q (q + 1) := by
    refine ⟨Nat.lt_succ_self q, ?_⟩
    intro k hqk hk
    exact ⟨c, by rw [show k = q by omega, hc], hspace⟩
  have hafter := hblank.word_le (hsolid word List.mem_cons_self) h.1 hi
  induction words generalizing word i with
  | nil =>
    have hend : i + word.length = j := h.2
    omega
  | cons next words ih =>
    obtain ⟨hword, k, hgap, hnext, hrest⟩ := h
    by_cases hk : q < k
    · exact ⟨[], word, next, words, i, k, rfl, fun _ => rfl, hword, hgap, hafter, hk, hnext,
        hrest⟩
    · have hlater := hblank.word_le (hsolid next (by simp)) hnext (Nat.le_of_not_lt hk)
      obtain ⟨front, prev, next', back, a, b, heq, -, hfound⟩ :=
        ih (fun w hw => hsolid w (List.mem_cons_of_mem _ hw)) ⟨hnext, hrest⟩ (by omega) hlater
      exact ⟨word :: front, prev, next', back, a, b, by rw [heq]; rfl, nofun, hfound⟩

/-- Where there is no white space within a phrase, there is a word of it. It is the first, or
    white space comes before it. -/
theorem Occurs.cross_solid {q : Nat} (h : Occurs space text word words i j) (hi : i ≤ q)
    (hj : q < j) (hc : text[q]? = some c) (hspace : space c = false) :
    ∃ front w back a, word :: words = front ++ w :: back ∧
      (front = [] → a = i) ∧ (front ≠ [] → ∃ b, Blank space text b a) ∧
      w <+: text.drop a ∧ a ≤ q ∧ q < a + w.length ∧
      Follows space text back (a + w.length) j := by
  induction words generalizing word i with
  | nil =>
    have hend : i + word.length = j := h.2
    exact ⟨[], word, [], i, rfl, fun _ => rfl, fun hne => absurd rfl hne, h.1, hi, by omega, h.2⟩
  | cons next words ih =>
    obtain ⟨hword, k, hblank, hnext, hrest⟩ := h
    by_cases hlt : q < i + word.length
    · exact ⟨[], word, next :: words, i, rfl, fun _ => rfl, fun hne => absurd rfl hne, hword, hi,
        hlt, k, hblank, hnext, hrest⟩
    · have hk : k ≤ q := by
        refine Nat.le_of_not_lt fun hqk => ?_
        obtain ⟨d, hd, hblankd⟩ := hblank.2 q (by omega) hqk
        rw [hc] at hd
        rw [← Option.some.inj hd, hspace] at hblankd
        exact nomatch hblankd
      obtain ⟨front, w, back, a, heq, hfirst, hlater, hfound⟩ := ih ⟨hnext, hrest⟩ hk
      refine ⟨word :: front, w, back, a, by rw [heq]; rfl, nofun, fun _ => ?_, hfound⟩
      by_cases hfront : front = []
      · exact ⟨_, hfirst hfront ▸ hblank⟩
      · exact hlater hfront

end Phrase
