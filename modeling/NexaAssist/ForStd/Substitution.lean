import Mathlib.Data.List.Infix
import NexaAssist.ForStd.Regex

/-!
# Replacing parts of a text by a mark

`replaceAll` replaces every occurrence of a word, and `Regex.Rewrite.sub` a part of every
match of an expression. Either way the result is pieces of the text with the mark between
them, so a word that the mark can neither contain nor begin nor end is in the result only
if it is in a piece.
-/

/-! ## Marks -/

namespace List

variable {α : Type}

/-- A word that does not touch a mark: no part of one begins or ends the other. A mark stands only
    behind a character for which `edge` holds, or in front of everything, so the word may end as
    the mark begins where it has no such character before that. -/
structure Clear (edge : α → Prop) (word mark : List α) : Prop where
  inside : ¬word <:+: mark
  around : ¬mark <:+: word
  before : ∀ a c b, b ≠ [] → edge c → word = a ++ c :: b → ¬b <+: mark
  after : ∀ a b, a ≠ [] → b ≠ [] → word = a ++ b → ¬a <:+ mark

/-- Pieces with a mark between each two. -/
inductive Marked (mark : List α) (isPiece : List α → Prop) : List α → Prop
  | piece {p : List α} : isPiece p → Marked mark isPiece p
  | more {p rest : List α} : isPiece p → Marked mark isPiece rest →
      Marked mark isPiece (p ++ (mark ++ rest))

/-- A word that is `Clear` of a mark stands before the mark or behind it. -/
theorem Clear.split {edge : α → Prop} {word mark x y a b : List α} (hclear : Clear edge word mark)
    (hedge : ∀ c ∈ x.getLast?, edge c) (h : x ++ (mark ++ y) = a ++ (word ++ b)) :
    (∃ c, x = a ++ (word ++ c) ∧ b = c ++ (mark ++ y)) ∨
      ∃ c, y = c ++ (word ++ b) ∧ a = x ++ (mark ++ c) := by
  -- The word begins behind `x`, or in it
  obtain ⟨d, hd, hrest⟩ | ⟨c, hc, hrest⟩ := append_eq_append_iff.mp h
  · obtain ⟨c, hc, hy⟩ | ⟨m, hm, hword⟩ := append_eq_append_iff.mp hrest
    · exact .inr ⟨c, hy, by rw [hd, hc]⟩
    · -- the mark would end in the word, or the word would be in it
      obtain ⟨e, he, -⟩ | ⟨w, hw, hy⟩ := append_eq_append_iff.mp hword
      · exact absurd ⟨d, e, by rw [hm, he, append_assoc]⟩ hclear.inside
      · by_cases hm' : m = []
        · refine .inr ⟨[], ?_, by rw [hd, hm, hm', append_nil, append_nil]⟩
          rw [nil_append, hy, hw, hm', nil_append]
        · by_cases hw' : w = []
          · exact absurd ⟨d, [], by rw [hm, hw, hw', append_nil, append_nil]⟩ hclear.inside
          · exact absurd ⟨d, hm.symm⟩ (hclear.after m w hm' hw' hw)
  -- A word that begins in `x` ends there, or goes on into the mark
  · obtain ⟨e, he, hb⟩ | ⟨w, hw, hmark⟩ := append_eq_append_iff.mp hrest
    · exact .inl ⟨e, by rw [hc, he], hb⟩
    · by_cases hw' : w = []
      · refine .inl ⟨[], by rw [hc, hw, hw', append_nil, append_nil], ?_⟩
        rw [nil_append, hmark, hw', nil_append]
      · -- what of the word is past `x` begins the mark, or has it in it
        have hfront : w <+: mark ++ y := ⟨b, hmark.symm⟩
        obtain hin | hin := prefix_or_prefix_of_prefix hfront (prefix_append mark y)
        · obtain rfl | ⟨front, last, rfl⟩ := eq_nil_or_concat c
          · rw [nil_append] at hw
            exact absurd (hw ▸ hin.isInfix) hclear.inside
          · have hlast : edge last := hedge last (by simp [hc])
            exact absurd hin (hclear.before front last w hw' hlast (by simp [hw]))
        · have hpart : w <:+: word := ⟨c, [], by rw [hw, append_nil]⟩
          exact absurd (hin.isInfix.trans hpart) hclear.around

/-- A word that is `Clear` of the mark and in no piece is not in the marked text. -/
theorem Marked.not_infix {word mark : List α} {isPiece : List α → Prop} {text : List α}
    (h : Marked mark isPiece text) (hclear : Clear (fun _ => True) word mark)
    (hpiece : ∀ p, isPiece p → ¬word <:+: p) : ¬word <:+: text := by
  induction h with
  | piece hp => exact hpiece _ hp
  | @more p rest hp _ ih =>
    rintro ⟨a, b, heq⟩
    rw [append_assoc] at heq
    obtain ⟨c, hc, -⟩ | ⟨c, hc, -⟩ := hclear.split (fun _ _ => trivial) heq.symm
    · exact hpiece p hp ⟨a, c, by rw [hc, append_assoc]⟩
    · exact ih ⟨c, b, by rw [hc, append_assoc]⟩

/-! ## Parts that give way to a mark -/

/-- `shown` is `text`, with a mark in place of some of its parts, each behind a character for which
    `edge` holds, or in front of everything. `before` is what was shown last. -/
inductive Masked (edge : α → Prop) (mark : List α) : Option α → List α → List α → Prop
  | done (before : Option α) : Masked edge mark before [] []
  | keep (before : Option α) (c : α) {text shown : List α} :
      Masked edge mark (some c) text shown → Masked edge mark before (c :: text) (c :: shown)
  | mask {before : Option α} (gone : List α) {text shown : List α} :
      (∀ c ∈ before, edge c) → Masked edge mark (mark.getLast?.or before) text shown →
      Masked edge mark before (gone ++ text) (mark ++ shown)

section Masked

variable {edge : α → Prop} {mark word text shown front back : List α} {before : Option α}

/-- A text without marks is masked. -/
theorem Masked.refl (text : List α) : Masked edge mark before text text := by
  induction text generalizing before with
  | nil => exact .done before
  | cons c text ih => exact .keep before c ih

/-- A word is at a place that is not wholly in the middle of three texts. -/
def Over (word front text back : List α) : Prop :=
  ∃ a b, front ++ (text ++ back) = a ++ (word ++ b) ∧
    (a.length < front.length ∨ b.length < back.length)

/-- Each place of a word that is `Clear` of the mark in the shown text is one that it has in the
    text, over the same edge. -/
theorem Masked.place (h : Masked edge mark before text shown) (hclear : Clear edge word mark)
    (hfront : ∀ c ∈ front.getLast?, edge c ∨ before = some c) {a b : List α}
    (heq : front ++ (shown ++ back) = a ++ (word ++ b)) :
    ∃ a' b', front ++ (text ++ back) = a' ++ (word ++ b') ∧
      (a.length < front.length → a' = a) ∧ (b.length < back.length → b'.length < back.length) := by
  induction h generalizing front a b with
  | done => exact ⟨a, b, heq, fun _ => rfl, id⟩
  | @keep before c text shown _ ih =>
    obtain ⟨a', b', heq', hearly, hlate⟩ := @ih (front ++ [c]) (by simp) a b (by simpa using heq)
    refine ⟨a', b', by simpa using heq', ?_, hlate⟩
    intro ha
    exact hearly (by simp only [length_append, length_cons, length_nil]; omega)
  | @mask before gone text shown hedge _ ih =>
    have hedge' : ∀ c ∈ front.getLast?, edge c := fun c hc => (hfront c hc).elim id (hedge c)
    rw [append_assoc mark] at heq
    obtain ⟨c, hfront, rfl⟩ | ⟨c, hback, rfl⟩ := hclear.split hedge' heq
    · refine ⟨a, c ++ (gone ++ (text ++ back)), ?_, fun _ => rfl, ?_⟩
      · rw [hfront]
        simp
      · simp only [length_append]
        omega
    · obtain ⟨a', b', heq', -, hlate⟩ := @ih [] (by simp) c b hback
      refine ⟨front ++ (gone ++ a'), b', ?_, ?_, hlate⟩
      · rw [nil_append] at heq'
        simp [heq']
      · simp only [length_append]
        omega

/-- A word that is `Clear` of the mark is over the edge of the shown text only if it is over the
    edge of the text. -/
theorem Masked.over (h : Masked edge mark none text shown) (hclear : Clear edge word mark)
    (hfront : ∀ c ∈ front.getLast?, edge c) (hover : Over word front shown back) :
    Over word front text back := by
  obtain ⟨a, b, heq, hout⟩ := hover
  obtain ⟨a', b', heq', hearly, hlate⟩ := h.place hclear (fun c hc => .inl (hfront c hc)) heq
  exact ⟨a', b', heq', hout.imp (fun ha => hearly ha ▸ ha) hlate⟩

/-- A word that does not touch the mark is in what is shown only if it was in the text. -/
theorem Masked.infix (h : Masked edge mark before text shown) (hclear : Clear edge word mark)
    (hin : word <:+: shown) : word <:+: text := by
  obtain ⟨a, b, heq⟩ := hin
  have hplace : [] ++ (shown ++ []) = a ++ (word ++ b) := by simp [← heq]
  obtain ⟨a', b', heq', -⟩ := h.place hclear (by simp) hplace
  exact ⟨a', b', by simpa using heq'.symm⟩

/-- A text that is kept stands in front of a masked one. -/
theorem Masked.keeps (kept : List α) (h : Masked edge mark (kept.getLast?.or before) text shown) :
    Masked edge mark before (kept ++ text) (kept ++ shown) := by
  induction kept generalizing before with
  | nil => simpa using h
  | cons c kept ih =>
    refine .keep before c (ih ?_)
    rw [getLast?_cons] at h
    cases hlast : kept.getLast? with
    | none => simpa [hlast] using h
    | some d => simpa [hlast] using h

/-- What is shown ends as the text does, or in the mark. -/
theorem Masked.getLast? (h : Masked edge mark before text shown) :
    shown.getLast? = text.getLast? ∨
      ∃ kept, shown = kept ++ mark ∧ ∀ c ∈ kept.getLast?.or before, edge c := by
  induction h with
  | done => exact .inl rfl
  | keep before c _ ih =>
    obtain hlast | ⟨kept, rfl, hedge⟩ := ih
    · exact .inl (by rw [getLast?_cons, getLast?_cons, hlast])
    · refine .inr ⟨c :: kept, rfl, ?_⟩
      rw [getLast?_cons]
      cases hlast : kept.getLast? <;> simpa [hlast] using hedge
  | @mask before gone text shown hbefore _ ih =>
    obtain hlast | ⟨kept, rfl, hedge⟩ := ih
    · by_cases hshown : shown = []
      · exact .inr ⟨[], by simp [hshown], by simpa using hbefore⟩
      · left
        have htext : text ≠ [] := by
          rintro rfl
          rw [getLast?_nil, getLast?_eq_none_iff] at hlast
          exact hshown hlast
        rw [getLast?_append_of_ne_nil _ hshown, getLast?_append_of_ne_nil _ htext, hlast]
    · refine .inr ⟨mark ++ kept, by simp, ?_⟩
      rw [getLast?_append, Option.or_assoc]
      exact hedge

end Masked

/-- A text that begins with part of a piece. -/
structure MarkedFrom (mark : List α) (isPiece : List α → Prop) (first text : List α) : Prop where
  split : ∃ rest, text = first ++ rest ∧
    (rest = [] ∨ ∃ tail, rest = mark ++ tail ∧ Marked mark isPiece tail)

/-- A text that is marked from its first piece on is marked. -/
theorem MarkedFrom.marked {mark : List α} {isPiece : List α → Prop} {first text : List α}
    (h : MarkedFrom mark isPiece first text) (hfirst : isPiece first) :
    Marked mark isPiece text := by
  obtain ⟨rest, rfl, rfl | ⟨tail, rfl, htail⟩⟩ := h.split
  · simpa using Marked.piece hfirst
  · exact .more hfirst htail

/-- More text belongs to the first piece. -/
theorem MarkedFrom.prepend {mark : List α} {isPiece : List α → Prop} {first text : List α}
    (h : MarkedFrom mark isPiece first text) (before : List α) :
    MarkedFrom mark isPiece (before ++ first) (before ++ text) := by
  obtain ⟨rest, rfl, hrest⟩ := h.split
  exact ⟨rest, by simp, hrest⟩

/-! ## Replacing a word -/

variable [DecidableEq α]

/-- `text.replace(word, mark)`, with some characters still to be left out. -/
def replaceFrom (word mark : List α) : Nat → List α → List α
  | _, [] => []
  | skip + 1, _ :: text => replaceFrom word mark skip text
  | 0, c :: text =>
    if word <+: c :: text then mark ++ replaceFrom word mark (word.length - 1) text
    else c :: replaceFrom word mark 0 text

/-- `text.replace(word, mark)`, of a word that is not empty. -/
def replaceAll (word mark text : List α) : List α := replaceFrom word mark 0 text

/-- `replaceFrom` passes over what it has to. -/
theorem replaceFrom_skip (word mark : List α) (n : Nat) (text : List α) :
    replaceFrom word mark n text = replaceFrom word mark 0 (text.drop n) := by
  induction text generalizing n with
  | nil => cases n <;> simp [replaceFrom]
  | cons c text ih =>
    cases n with
    | zero => rfl
    | succ n => rw [replaceFrom, ih, drop_succ_cons]

/-- `replaceFrom` leaves pieces of the text without the word, with the mark between them. -/
theorem replaceFrom_markedFrom {word mark : List α} (hword : word ≠ []) (whole : List α)
    (n : Nat) : ∀ text : List α, text.length ≤ n → text <:+ whole →
      ∃ first, first <+: text ∧ ¬word <:+: first ∧
        MarkedFrom mark (fun p => p <:+: whole ∧ ¬word <:+: p) first
          (replaceFrom word mark 0 text) := by
  have hnil : ¬word <:+: [] := by simpa using hword
  -- Induction on a bound of the length, since an occurrence is skipped at once
  induction n with
  | zero =>
    intro text hlength _
    obtain rfl : text = [] := length_eq_zero_iff.1 (Nat.le_zero.1 hlength)
    exact ⟨[], by simp, hnil, ⟨[], rfl, .inl rfl⟩⟩
  | succ n ih =>
    intro text hlength hwhole
    cases text with
    | nil => exact ⟨[], by simp, hnil, ⟨[], rfl, .inl rfl⟩⟩
    | cons c text =>
      rw [length_cons, Nat.add_le_add_iff_right] at hlength
      have hwhole' : text <:+ whole := (suffix_cons c text).trans hwhole
      rw [replaceFrom]
      split
      -- An occurrence: the mark is put, and the pieces behind it begin anew
      · rw [replaceFrom_skip]
        obtain ⟨first, hfront, hno, hmarked⟩ := ih (text.drop (word.length - 1))
          (by rw [length_drop]; omega) ((drop_suffix _ _).trans hwhole')
        have hinside : first <:+: whole :=
          hfront.isInfix.trans ((drop_suffix _ _).trans hwhole').isInfix
        exact ⟨[], by simp, hnil, ⟨_, rfl, .inr ⟨_, rfl, hmarked.marked ⟨hinside, hno⟩⟩⟩⟩
      · next hat =>
        obtain ⟨first, hfront, hno, hmarked⟩ := ih text hlength hwhole'
        refine ⟨c :: first, by simpa using hfront, ?_, hmarked.prepend [c]⟩
        -- The word would have been found at `c`, or later
        intro hinside
        rcases infix_cons_iff.1 hinside with h | h
        · exact hat (h.trans (by simpa using hfront))
        · exact hno h

/-- `replaceAll` leaves pieces of the text without the word, with the mark between them. -/
theorem replaceAll_marked {word mark : List α} (hword : word ≠ []) (text : List α) :
    Marked mark (fun p => p <:+: text ∧ ¬word <:+: p) (replaceAll word mark text) := by
  obtain ⟨first, hfront, hno, hmarked⟩ :=
    replaceFrom_markedFrom hword text text.length text le_rfl (suffix_refl text)
  exact hmarked.marked ⟨hfront.isInfix, hno⟩

/-- `replaceFrom` masks a text. -/
theorem replaceFrom_masked {word mark : List α} (hword : word ≠ []) (n : Nat) :
    ∀ text : List α, text.length ≤ n → ∀ before,
      Masked (fun _ => True) mark before text (replaceFrom word mark 0 text) := by
  induction n with
  | zero =>
    intro text hlength before
    obtain rfl : text = [] := length_eq_zero_iff.1 (Nat.le_zero.1 hlength)
    exact .done before
  | succ n ih =>
    intro text hlength before
    cases text with
    | nil => exact .done before
    | cons c text =>
      rw [length_cons, Nat.add_le_add_iff_right] at hlength
      rw [replaceFrom]
      split
      · next hat =>
        rw [replaceFrom_skip]
        obtain ⟨rest, hrest⟩ := hat
        -- Skipping the rest of the word leaves what stands behind it
        have htext : text.drop (word.length - 1) = rest := by
          have hdrop := congrArg (drop word.length) hrest
          rw [drop_left] at hdrop
          obtain ⟨d, word, rfl⟩ := exists_cons_of_ne_nil hword
          simpa using hdrop.symm
        rw [htext, ← hrest]
        refine .mask word (fun _ _ => trivial) (ih rest ?_ _)
        rw [← htext, length_drop]
        omega
      · exact .keep before c (ih text hlength (some c))

/-- `replaceAll` puts the mark in place of parts of the text. -/
theorem replaceAll_masked {word mark : List α} (hword : word ≠ []) (text : List α) :
    Masked (fun _ => True) mark none text (replaceAll word mark text) :=
  replaceFrom_masked hword text.length text le_rfl none

/-- `replaceAll` leaves a text without the word. -/
theorem replaceAll_of_not_infix {word mark text : List α} (h : ¬word <:+: text) :
    replaceAll word mark text = text := by
  unfold replaceAll
  induction text with
  | nil => rfl
  | cons c text ih =>
    rw [replaceFrom, if_neg fun hat => h hat.isInfix, ih fun hin => h (infix_cons hin)]

end List

/-! ## Replacing what an expression matches -/

namespace Regex

variable {α : Type}

/-- A class, at least `n` times. -/
def atLeast (n : Nat) (inClass : α → Bool) : Regex α :=
  match n with
  | 0 => many inClass
  | n + 1 => seq (one inClass) (atLeast n inClass)

/-- The positions up to which an expression matches from position `i`, in the order in
    which they are tried: the longest repetition first. -/
def tries (word : α → Bool) (text : List α) : Regex α → Nat → List Nat
  | empty, i => [i]
  | one inClass, i => if classAt inClass text i then [i + 1] else []
  | seq r t, i => (tries word text r i).flatMap (tries word text t)
  | alt r t, i => tries word text r i ++ tries word text t i
  | many inClass, i =>
    ((List.range (((text.drop i).takeWhile inClass).length + 1)).map (i + ·)).reverse
  | boundary, i => if atBoundary word text i then [i] else []

/-- A match ends where it begins or later. -/
theorem le_of_mem_tries {word : α → Bool} {text : List α} {r : Regex α} {i j : Nat}
    (h : j ∈ tries word text r i) : i ≤ j := by
  induction r generalizing i j with
  | empty => simp_all [tries]
  | one inClass =>
    simp only [tries] at h
    split at h
    · simp at h; omega
    · simp at h
  | seq r t ihr iht =>
    obtain ⟨k, hr, ht⟩ := List.mem_flatMap.1 h
    exact (ihr hr).trans (iht ht)
  | alt r t ihr iht => exact (List.mem_append.1 h).elim ihr iht
  | many inClass =>
    simp only [tries, List.mem_reverse, List.mem_map] at h
    obtain ⟨n, -, rfl⟩ := h
    omega
  | boundary =>
    simp only [tries] at h
    split at h
    · simp at h; omega
    · simp at h

/-- A rule for `re.sub`: of a match of `kept`, `dropped` and `after`, in a row, what
    `dropped` matched gives way to a mark. -/
structure Rewrite (α : Type) where
  kept : Regex α
  dropped : Regex α
  after : Regex α
  mark : List α

namespace Rewrite

variable (rule : Rewrite α) (word : α → Bool) (text : List α)

/-- Where the parts of the match from position `i` end. -/
def find (i : Nat) : Option (Nat × Nat × Nat) :=
  ((tries word text rule.kept i).flatMap fun j =>
    (tries word text rule.dropped j).flatMap fun k =>
      (tries word text rule.after k).map fun l => (j, k, l)).head?

/-- `sub` from position `i` on, for as many steps. -/
def subFrom : Nat → Nat → List α
  | 0, i => text.drop i
  | n + 1, i =>
    match rule.find word text i with
    | some (j, k, l) =>
      (text.take j).drop i ++ (rule.mark ++ ((text.take l).drop k ++ subFrom n l))
    | none => (text.take (i + 1)).drop i ++ subFrom n (i + 1)

/-- `re.sub`, of an expression that matches nothing empty. -/
def sub : List α := rule.subFrom word text text.length 0

variable {rule word text}

/-- The parts of a match are in order. -/
theorem find_le {i j k l : Nat} (h : rule.find word text i = some (j, k, l)) :
    i ≤ j ∧ j ≤ k ∧ k ≤ l := by
  have hmem := List.mem_of_mem_head? h
  simp only [List.mem_flatMap, List.mem_map, Prod.mk.injEq] at hmem
  obtain ⟨j', hj, k', hk, l', hl, rfl, rfl, rfl⟩ := hmem
  exact ⟨le_of_mem_tries hj, le_of_mem_tries hk, le_of_mem_tries hl⟩

/-- A slice of a text and what is behind it are the text from there on. -/
theorem drop_take_append_drop {i j : Nat} (h : i ≤ j) :
    (text.take j).drop i ++ text.drop j = text.drop i := by
  rw [List.drop_take]
  conv_rhs => rw [← List.take_append_drop (j - i) (text.drop i)]
  rw [List.drop_drop, Nat.add_sub_cancel' h]

/-- `take j` ends as its part from `i` on does, or else as `take i` does. -/
theorem getLast?_take {i j : Nat} (h : i ≤ j) :
    (text.take j).getLast? = ((text.take j).drop i).getLast?.or (text.take i).getLast? := by
  conv_lhs => rw [← List.take_append_drop i (text.take j), List.take_take, Nat.min_eq_left h]
  exact List.getLast?_append

/-- `subFrom` masks a text, if what is in front of each mark is an edge. -/
theorem subFrom_masked {edge : α → Prop} (hmark : ∀ c ∈ rule.mark.getLast?, edge c)
    (hedge : ∀ i j k l, rule.find word text i = some (j, k, l) →
      ∀ c ∈ (text.take j).getLast?, edge c) (n i : Nat) (before : Option α)
    (hbefore : ∀ c ∈ before, edge c ∨ (text.take i).getLast? = some c) :
    List.Masked edge rule.mark before (text.drop i) (rule.subFrom word text n i) := by
  -- Induction on the steps left, with what was shown last as `before`
  induction n generalizing i before with
  | zero => exact .refl _
  | succ n ih =>
    rw [subFrom]
    split
    · next j k l hfind =>
      obtain ⟨hij, hjk, hkl⟩ := find_le hfind
      rw [← drop_take_append_drop hij, ← drop_take_append_drop hjk, ← drop_take_append_drop hkl]
      -- What is shown in front of the mark ends as the text does there
      have hkept : ∀ c ∈ ((text.take j).drop i).getLast?.or before, edge c := by
        intro c hc
        cases hlast : ((text.take j).drop i).getLast? with
        | some d =>
          obtain rfl : d = c := by simpa [hlast] using hc
          exact hedge i j k l hfind d (by rw [getLast?_take hij, hlast]; rfl)
        | none =>
          have hc' : c ∈ before := by simpa [hlast] using hc
          obtain hedge' | htake := hbefore c hc'
          · exact hedge'
          · exact hedge i j k l hfind c (by rw [getLast?_take hij, hlast]; exact htake)
      refine .keeps _ (.mask _ hkept (.keeps _ (ih l _ ?_)))
      -- What is kept behind the mark ends as the text does, or else the mark is shown last
      intro c hc
      cases hlast : ((text.take l).drop k).getLast? with
      | some d =>
        obtain rfl : d = c := by simpa [hlast] using hc
        exact .inr (by rw [getLast?_take hkl, hlast]; rfl)
      | none =>
        rw [hlast, Option.none_or] at hc
        left
        cases hmark' : rule.mark.getLast? with
        | some d => exact hmark c (by simpa [hmark'] using hc)
        | none => exact hkept c (by simpa [hmark'] using hc)
    -- No match begins here: the character is kept
    · rw [← drop_take_append_drop (Nat.le_succ i)]
      refine .keeps _ (ih (i + 1) _ ?_)
      intro c hc
      cases hlast : ((text.take (i + 1)).drop i).getLast? with
      | some d =>
        obtain rfl : d = c := by simpa [hlast] using hc
        exact .inr (by rw [getLast?_take (Nat.le_succ i), hlast]; rfl)
      | none =>
        rw [hlast, Option.none_or] at hc
        rw [getLast?_take (Nat.le_succ i), hlast, Option.none_or]
        exact hbefore c hc

/-- `sub` puts the mark in the place of what it drops. -/
theorem sub_masked {edge : α → Prop} (hmark : ∀ c ∈ rule.mark.getLast?, edge c)
    (hedge : ∀ i j k l, rule.find word text i = some (j, k, l) →
      ∀ c ∈ (text.take j).getLast?, edge c) :
    List.Masked edge rule.mark none text (rule.sub word text) :=
  subFrom_masked hmark hedge text.length 0 none (by simp)

/-- `sub` leaves a text in which the rule finds nothing. -/
theorem sub_of_none (hnone : ∀ i, rule.find word text i = none) : rule.sub word text = text := by
  have hfrom (n i : Nat) : rule.subFrom word text n i = text.drop i := by
    induction n generalizing i with
    | zero => rfl
    | succ n ih =>
      rw [subFrom, hnone i]
      simp only [ih]
      exact drop_take_append_drop (Nat.le_succ i)
  exact hfrom _ 0

end Rewrite

end Regex
