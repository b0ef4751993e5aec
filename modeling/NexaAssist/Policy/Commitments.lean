import NexaAssist.ForStd.Phrases
import NexaAssist.Policy.Library

/-!
# The patterns as phrases

What the patterns look for are phrases, in any letter case and with any white space between
their words, that begin and end where words do.
-/

namespace NexaAssist

open PyJson Phrase

namespace Pattern

/-! ## Letter case -/

/-- The lower-case letter a character matches under `(?i)`, where it matches one. -/
def foldCase (c : CodePoint) : CodePoint :=
  if c.val = 0x130 ∨ c.val = 0x131 then 0x69
  else if c.val = 0x17f then 0x73
  else if c.val = 0x212a then 0x6b
  else lowerAscii c

/-- A text as the patterns see it. -/
def fold (text : PyStr) : PyStr := text.map foldCase

/-- A character that a literal may have: none of the odd letters. -/
def plain (c : CodePoint) : Bool :=
  c.val ≠ 0x130 && c.val ≠ 0x131 && c.val ≠ 0x17f && c.val ≠ 0x212a

/-- A plain letter matches under `(?i)` just what `foldCase` takes to it. -/
theorem ignoreCase_iff {c d : CodePoint} (hc : plain c = true) :
    ignoreCase c d = true ↔ foldCase d = c := by
  simp only [plain, Bool.and_eq_true, decide_eq_true_eq, ne_eq] at hc
  simp only [ignoreCase, foldCase, Bool.or_eq_true, Bool.and_eq_true, decide_eq_true_eq]
  -- The three characters past ASCII that fold to a letter are not lowered by themselves
  have hodd : 0x80 ≤ d.val → lowerAscii d = d := by
    intro hd
    unfold lowerAscii
    rw [if_neg]
    simp only [Bool.and_eq_true, decide_eq_true_eq]
    omega
  split
  · rw [hodd (by omega), Fin.ext_iff, Fin.ext_iff]
    have hi : (0x69 : CodePoint).val = 0x69 := rfl
    omega
  · split
    · rw [hodd (by omega), Fin.ext_iff, Fin.ext_iff]
      have hs : (0x73 : CodePoint).val = 0x73 := rfl
      omega
    · split
      · rw [hodd (by omega), Fin.ext_iff, Fin.ext_iff]
        have hk : (0x6b : CodePoint).val = 0x6b := rfl
        omega
      · constructor
        · intro h
          obtain ((h | h) | h) | h := h
          · exact h
          all_goals omega
        · intro h
          exact .inl (.inl (.inl h))

/-- White space has no case. -/
theorem isSpace_foldCase (c : CodePoint) : isSpace (foldCase c) = isSpace c := by
  have hletter : ∀ d : CodePoint, (0x41 ≤ d.val ∧ d.val ≤ 0x7a) ∨ d.val = 0x130 ∨ d.val = 0x131 ∨
      d.val = 0x17f ∨ d.val = 0x212a → isSpace d = false := by
    intro d hd
    simp only [isSpace, Bool.or_eq_false_iff, Bool.and_eq_false_iff, decide_eq_false_iff_not]
    omega
  unfold foldCase
  split
  · rw [hletter c (by omega)]
    rfl
  · split
    · rw [hletter c (by omega)]
      rfl
    · split
      · rw [hletter c (by omega)]
        rfl
      · unfold lowerAscii
        split
        · rename_i hupper
          simp only [Bool.and_eq_true, decide_eq_true_eq] at hupper
          rw [hletter c (by omega), hletter]
          simp only [Fin.ofNat]
          omega
        · rfl

/-- `fold` keeps the length. -/
@[simp]
theorem length_fold (text : PyStr) : (fold text).length = text.length := List.length_map ..

/-- `fold` of two texts folds each of them. -/
theorem fold_append (left right : PyStr) : fold (left ++ right) = fold left ++ fold right :=
  List.map_append

/-! ## Spans -/

section Spans

variable {cut : Nat → Prop} {text : PyStr} {i j : Nat}

/-- `fold` folds character by character. -/
theorem getElem?_fold {k : Nat} : (fold text)[k]? = (text[k]?).map foldCase := by
  unfold fold
  rw [List.getElem?_map]

/-- `word` spans its literal in any letter case. -/
theorem spans_word {literal : String} (h : (lit literal).all plain = true) :
    (word literal).Spans cut text i j ↔
      lit literal <+: (fold text).drop i ∧ j = i + (lit literal).length := by
  unfold word
  generalize lit literal = letters at h
  -- One letter of the literal after another
  induction letters generalizing i with
  | nil =>
    simp only [List.foldr_nil, Regex.Spans, List.nil_prefix, true_and, List.length_nil,
      Nat.add_zero]
    exact eq_comm
  | cons c rest ih =>
    rw [List.all_cons, Bool.and_eq_true] at h
    obtain ⟨hc, hrest⟩ := h
    rw [List.foldr_cons]
    constructor
    · rintro ⟨k, ⟨⟨d, hd, hclass⟩, rfl⟩, hspans⟩
      obtain ⟨hhead, rfl⟩ := (ih hrest).mp hspans
      have hget : (fold text)[i]? = some c := by
        rw [getElem?_fold, hd, Option.map_some, (ignoreCase_iff hc).mp hclass]
      refine ⟨?_, by rw [List.length_cons]; omega⟩
      rw [List.drop_eq_getElem?_toList_append, hget]
      exact List.prefix_append_right_inj [c] |>.mpr hhead
    · rintro ⟨hhead, rfl⟩
      have hget : (fold text)[i]? = some c := by
        have hget := getElem?_of_stands hhead (k := 0) (by simp)
        simpa using hget
      rw [List.drop_eq_getElem?_toList_append, hget] at hhead
      have hrest' := (List.prefix_append_right_inj [c]).mp hhead
      rw [getElem?_fold, Option.map_eq_some_iff] at hget
      obtain ⟨d, hd, hfold⟩ := hget
      refine ⟨i + 1, ⟨⟨d, hd, (ignoreCase_iff hc).mpr hfold⟩, rfl⟩, (ih hrest).mpr ⟨hrest', ?_⟩⟩
      rw [List.length_cons]
      omega

/-- `oneOf` spans what one of its expressions does. -/
theorem spans_oneOf {first : Regex CodePoint} {others : List (Regex CodePoint)} :
    (oneOf first others).Spans cut text i j ↔ ∃ r ∈ first :: others, r.Spans cut text i j := by
  unfold oneOf
  induction others generalizing first with
  | nil => simp
  | cons next others ih =>
    rw [List.foldl_cons, ih]
    simp only [List.mem_cons, exists_eq_or_imp, Regex.Spans, or_assoc]

/-- `\s+`. -/
theorem spans_spaces : spaces.Spans cut text i j ↔ Blank isSpace (fold text) i j := by
  have hspace : ∀ k : Nat, (∃ c, text[k]? = some c ∧ isSpace c = true) ↔
      ∃ c, (fold text)[k]? = some c ∧ isSpace c = true := by
    intro k
    rw [getElem?_fold]
    cases text[k]? with
    | none => simp
    | some c => simp [isSpace_foldCase]
  unfold spaces Regex.some1 Blank
  constructor
  · rintro ⟨k, ⟨hc, rfl⟩, hle, hall⟩
    refine ⟨by omega, ?_⟩
    intro k hik hkj
    by_cases hk : k = i
    · exact (hspace k).mp (hk ▸ hc)
    · exact (hspace k).mp (hall k (by omega) hkj)
  · rintro ⟨hlt, hall⟩
    refine ⟨i + 1, ⟨(hspace i).mpr (hall i (by omega) hlt), rfl⟩, hlt, ?_⟩
    intro k hik hkj
    exact (hspace k).mpr (hall k (by omega) hkj)

/-- `\s*`. -/
theorem spans_many :
    (Regex.many isSpace).Spans cut text i j ↔ i = j ∨ Blank isSpace (fold text) i j := by
  have hspaces : spaces.Spans cut text i j ↔ Blank isSpace (fold text) i j := spans_spaces
  rw [← hspaces]
  constructor
  · rintro ⟨hle, hall⟩
    rcases Nat.eq_or_lt_of_le hle with heq | hlt
    · exact .inl heq
    · refine .inr ⟨i + 1, ⟨hall i (Nat.le_refl i) hlt, rfl⟩, hlt, ?_⟩
      intro k hik hkj
      exact hall k (by omega) hkj
  · rintro (rfl | ⟨k, ⟨hc, rfl⟩, hle, hall⟩)
    · exact ⟨Nat.le_refl i, fun k hik hkj => absurd hkj (by omega)⟩
    · refine ⟨by omega, ?_⟩
      intro k hik hkj
      by_cases hk : k = i
      · exact hk ▸ hc
      · exact hall k (by omega) hkj

end Spans

/-! ## The phrases -/

def PRONOUNS : List PyStr := [lit "i", lit "we"]

/-- What `will` may be written as. -/
def MODALS : List PyStr := [lit "will", lit "'ll", lit "’ll"]

/-- What has been done. -/
def DONE : List PyStr := [lit "refunded", lit "reimbursed", lit "credited"]

/-- What is going to be done. -/
def TODO : List PyStr := [lit "refund", lit "reimburse", lit "credit", lit "cancel"]

/-- The phrases the patterns look for, each as its first word and the others. What follows a
    pronoun without any white space is one word with it. -/
def PHRASES : List (PyStr × List PyStr) :=
  (PRONOUNS.flatMap fun pronoun => DONE.flatMap fun verb =>
    [(pronoun, [verb]), (pronoun, [lit "have", verb])]) ++
  (PRONOUNS.flatMap fun pronoun => MODALS.flatMap fun modal => TODO.flatMap fun verb =>
    [(pronoun, [modal, verb]), (pronoun ++ modal, [verb])]) ++
  [(lit "guarantee", []), (lit "guaranteed", []), (lit "full", [lit "refund"])]

section Spans

variable {cut : Nat → Prop} {text : PyStr} {i j : Nat}

/-- A phrase stands between two boundaries. -/
def Phrased (cut : Nat → Prop) (text : PyStr) (phrases : List (PyStr × List PyStr))
    (i j : Nat) : Prop :=
  ∃ phrase ∈ phrases, cut i ∧ Occurs isSpace (fold text) phrase.1 phrase.2 i j ∧ cut j

/-- The pronouns. -/
theorem spans_pronoun :
    (oneOf (word "i") [word "we"]).Spans cut text i j ↔
      ∃ pronoun ∈ PRONOUNS, pronoun <+: (fold text).drop i ∧ j = i + pronoun.length := by
  simp only [spans_oneOf, PRONOUNS, List.mem_cons, List.not_mem_nil, or_false,
    exists_eq_or_imp, exists_eq_left]
  rw [spans_word (by decide), spans_word (by decide)]

/-- `haveRefunded` as a list of phrases. -/
theorem spans_haveRefunded :
    haveRefunded.Spans cut text i j ↔
      Phrased cut text (PRONOUNS.flatMap fun pronoun => DONE.flatMap fun verb =>
        [(pronoun, [verb]), (pronoun, [lit "have", verb])]) i j := by
  -- The verbs, as one list
  have hdone : ∀ {i j}, (oneOf (word "refunded") [word "reimbursed", word "credited"]).Spans
      cut text i j ↔ ∃ verb ∈ DONE, verb <+: (fold text).drop i ∧ j = i + verb.length := by
    intro i j
    simp only [spans_oneOf, DONE, List.mem_cons, List.not_mem_nil, or_false,
      exists_eq_or_imp, exists_eq_left]
    rw [spans_word (by decide), spans_word (by decide), spans_word (by decide)]
  simp only [Phrased, List.mem_flatMap, List.mem_cons, List.not_mem_nil, or_false]
  constructor
  · rintro ⟨_, ⟨rfl, hstart⟩, a, hfirst, b, hgap, e, hopt, f, hlast, _, ⟨rfl, hend⟩, rfl⟩
    obtain ⟨pronoun, hpronoun, hi, rfl⟩ := spans_pronoun.mp hfirst
    obtain ⟨verb, hverb, he, rfl⟩ := hdone.mp hlast
    have hblank := spans_spaces.mp hgap
    -- The `have` in between may be missing
    rcases hopt with ⟨g, hhave, e, hgap', rfl⟩ | rfl
    · obtain ⟨hb, rfl⟩ := (spans_word (by decide)).mp hhave
      exact ⟨(pronoun, [lit "have", verb]), ⟨pronoun, hpronoun, verb, hverb, .inr rfl⟩, hstart,
        ⟨hi, b, hblank, hb, e, spans_spaces.mp hgap', he, rfl⟩, hend⟩
    · exact ⟨(pronoun, [verb]), ⟨pronoun, hpronoun, verb, hverb, .inl rfl⟩, hstart,
        ⟨hi, b, hblank, he, rfl⟩, hend⟩
  · rintro ⟨_, ⟨pronoun, hpronoun, verb, hverb, rfl | rfl⟩, hstart, ⟨hi, hrest⟩, hend⟩
    · obtain ⟨b, hblank, hb, rfl⟩ := hrest
      exact ⟨i, ⟨rfl, hstart⟩, _, spans_pronoun.mpr ⟨pronoun, hpronoun, hi, rfl⟩, b,
        spans_spaces.mpr hblank, b, .inr rfl, _, hdone.mpr ⟨verb, hverb, hb, rfl⟩, _,
        ⟨rfl, hend⟩, rfl⟩
    · obtain ⟨b, hblank, hb, e, hblank', he, rfl⟩ := hrest
      exact ⟨i, ⟨rfl, hstart⟩, _, spans_pronoun.mpr ⟨pronoun, hpronoun, hi, rfl⟩, b,
        spans_spaces.mpr hblank, e,
        .inl ⟨_, (spans_word (by decide)).mpr ⟨hb, rfl⟩, e, spans_spaces.mpr hblank', rfl⟩, _,
        hdone.mpr ⟨verb, hverb, he, rfl⟩, _, ⟨rfl, hend⟩, rfl⟩

/-- Two words stand one behind the other just if each stands in its place. -/
theorem prefix_append_iff {first second rest : PyStr} {i : Nat} :
    first ++ second <+: rest.drop i ↔
      first <+: rest.drop i ∧ second <+: rest.drop (i + first.length) := by
  rw [← List.drop_drop]
  constructor
  · rintro ⟨after, hafter⟩
    rw [← hafter, List.append_assoc, List.drop_left]
    exact ⟨List.prefix_append _ _, List.prefix_append _ _⟩
  · rintro ⟨⟨after, hafter⟩, hsecond⟩
    rw [← hafter, List.drop_left] at hsecond
    rw [← hafter]
    exact (List.prefix_append_right_inj first).mpr hsecond

/-- `willRefund` as a list of phrases. -/
theorem spans_willRefund :
    willRefund.Spans cut text i j ↔
      Phrased cut text (PRONOUNS.flatMap fun pronoun => MODALS.flatMap fun modal =>
        TODO.flatMap fun verb =>
          [(pronoun, [modal, verb]), (pronoun ++ modal, [verb])]) i j := by
  have hmodal : ∀ {i j}, (oneOf (word "will") [word "'ll", word "’ll"]).Spans
      cut text i j ↔ ∃ modal ∈ MODALS, modal <+: (fold text).drop i ∧ j = i + modal.length := by
    intro i j
    simp only [spans_oneOf, MODALS, List.mem_cons, List.not_mem_nil, or_false,
      exists_eq_or_imp, exists_eq_left]
    rw [spans_word (by decide), spans_word (by decide), spans_word (by decide)]
  have htodo : ∀ {i j},
      (oneOf (word "refund") [word "reimburse", word "credit", word "cancel"]).Spans
      cut text i j ↔ ∃ verb ∈ TODO, verb <+: (fold text).drop i ∧ j = i + verb.length := by
    intro i j
    simp only [spans_oneOf, TODO, List.mem_cons, List.not_mem_nil, or_false,
      exists_eq_or_imp, exists_eq_left]
    rw [spans_word (by decide), spans_word (by decide), spans_word (by decide),
      spans_word (by decide)]
  simp only [Phrased, List.mem_flatMap, List.mem_cons, List.not_mem_nil, or_false]
  constructor
  · rintro ⟨_, ⟨rfl, hstart⟩, a, hfirst, b, hgap, e, hsecond, f, hgap', g, hlast, _,
      ⟨rfl, hend⟩, rfl⟩
    obtain ⟨pronoun, hpronoun, hi, rfl⟩ := spans_pronoun.mp hfirst
    obtain ⟨modal, hmem, hb, rfl⟩ := hmodal.mp hsecond
    obtain ⟨verb, hverb, hf, rfl⟩ := htodo.mp hlast
    have hblank' := spans_spaces.mp hgap'
    -- The modal is contracted to the pronoun, or stands behind white space
    rcases spans_many.mp hgap with rfl | hblank
    · refine ⟨(pronoun ++ modal, [verb]), ⟨pronoun, hpronoun, modal, hmem, verb, hverb, .inr rfl⟩,
        hstart, ⟨prefix_append_iff.mpr ⟨hi, hb⟩, f, ?_, hf, rfl⟩, hend⟩
      rw [List.length_append, ← Nat.add_assoc]
      exact hblank'
    · exact ⟨(pronoun, [modal, verb]), ⟨pronoun, hpronoun, modal, hmem, verb, hverb, .inl rfl⟩,
        hstart, ⟨hi, b, hblank, hb, f, hblank', hf, rfl⟩, hend⟩
  · rintro ⟨_, ⟨pronoun, hpronoun, modal, hmem, verb, hverb, rfl | rfl⟩, hstart, ⟨hi, hrest⟩,
      hend⟩
    · obtain ⟨b, hblank, hb, f, hblank', hf, rfl⟩ := hrest
      exact ⟨i, ⟨rfl, hstart⟩, _, spans_pronoun.mpr ⟨pronoun, hpronoun, hi, rfl⟩, b,
        spans_many.mpr (.inr hblank), _, hmodal.mpr ⟨modal, hmem, hb, rfl⟩, f,
        spans_spaces.mpr hblank', _, htodo.mpr ⟨verb, hverb, hf, rfl⟩, _, ⟨rfl, hend⟩, rfl⟩
    · obtain ⟨f, hblank', hf, rfl⟩ := hrest
      obtain ⟨hi, hb⟩ := prefix_append_iff.mp hi
      rw [List.length_append, ← Nat.add_assoc] at hblank'
      exact ⟨i, ⟨rfl, hstart⟩, _, spans_pronoun.mpr ⟨pronoun, hpronoun, hi, rfl⟩, _,
        spans_many.mpr (.inl rfl), _, hmodal.mpr ⟨modal, hmem, hb, rfl⟩, f,
        spans_spaces.mpr hblank', _, htodo.mpr ⟨verb, hverb, hf, rfl⟩, _, ⟨rfl, hend⟩, rfl⟩

/-- `guarantee` as one. -/
theorem spans_guarantee :
    guarantee.Spans cut text i j ↔
      Phrased cut text [(lit "guarantee", []), (lit "guaranteed", [])] i j := by
  have hd : lit "guaranteed" = lit "guarantee" ++ lit "d" := by decide
  simp only [Phrased, List.mem_cons, List.not_mem_nil, or_false]
  constructor
  · rintro ⟨_, ⟨rfl, hstart⟩, a, hfirst, b, hopt, _, ⟨rfl, hend⟩, rfl⟩
    obtain ⟨hi, rfl⟩ := (spans_word (by decide)).mp hfirst
    rcases hopt with hlast | rfl
    · obtain ⟨ha, rfl⟩ := (spans_word (by decide)).mp hlast
      refine ⟨_, .inr rfl, hstart, ⟨?_, ?_⟩, hend⟩
      · exact hd ▸ prefix_append_iff.mpr ⟨hi, ha⟩
      · exact rfl
    · exact ⟨_, .inl rfl, hstart, ⟨hi, rfl⟩, hend⟩
  · rintro ⟨_, rfl | rfl, hstart, ⟨hi, rfl⟩, hend⟩
    · exact ⟨i, ⟨rfl, hstart⟩, _, (spans_word (by decide)).mpr ⟨hi, rfl⟩, _, .inr rfl, _,
        ⟨rfl, hend⟩, rfl⟩
    · obtain ⟨hi, ha⟩ := prefix_append_iff.mp (hd ▸ hi)
      exact ⟨i, ⟨rfl, hstart⟩, _, (spans_word (by decide)).mpr ⟨hi, rfl⟩, _,
        .inl ((spans_word (by decide)).mpr ⟨ha, rfl⟩), _, ⟨rfl, hend⟩, rfl⟩

/-- `fullRefund` as a list of phrases. -/
theorem spans_fullRefund :
    fullRefund.Spans cut text i j ↔ Phrased cut text [(lit "full", [lit "refund"])] i j := by
  simp only [Phrased, List.mem_cons, List.not_mem_nil, or_false, exists_eq_left]
  constructor
  · rintro ⟨_, ⟨rfl, hstart⟩, a, hfirst, b, hgap, e, hlast, _, ⟨rfl, hend⟩, rfl⟩
    obtain ⟨hi, rfl⟩ := (spans_word (by decide)).mp hfirst
    obtain ⟨hb, rfl⟩ := (spans_word (by decide)).mp hlast
    exact ⟨hstart, ⟨hi, b, spans_spaces.mp hgap, hb, rfl⟩, hend⟩
  · rintro ⟨hstart, ⟨hi, b, hblank, hb, rfl⟩, hend⟩
    exact ⟨i, ⟨rfl, hstart⟩, _, (spans_word (by decide)).mpr ⟨hi, rfl⟩, b,
      spans_spaces.mpr hblank, _, (spans_word (by decide)).mpr ⟨hb, rfl⟩, _, ⟨rfl, hend⟩, rfl⟩

end Spans

end Pattern

section Commits

variable {word : WordTable} {text : PyStr}

/-- Some phrase stands in a text, and begins and ends where words do. -/
def Commitment (word : WordTable) (text : PyStr) (i j : Nat) : Prop :=
  Pattern.Phrased (Regex.atBoundary word.isWord text · = true) text Pattern.PHRASES i j

/-- `commits` holds just if there is a `Commitment` somewhere in the text. -/
theorem commits_iff : commits word text = true ↔ ∃ i j, Commitment word text i j := by
  have hpatterns : ∀ i j, Commitment word text i j ↔
      ∃ pattern ∈ COMMITMENT_PATTERNS,
        pattern.Spans (Regex.atBoundary word.isWord text · = true) text i j := by
    intro i j
    simp only [COMMITMENT_PATTERNS, List.mem_cons, List.not_mem_nil, or_false,
      exists_eq_or_imp, exists_eq_left, Pattern.spans_haveRefunded, Pattern.spans_willRefund,
      Pattern.spans_guarantee, Pattern.spans_fullRefund]
    simp only [Commitment, Pattern.Phrased, Pattern.PHRASES, List.mem_append, List.mem_cons,
      List.not_mem_nil, or_false, or_and_right, exists_or, or_assoc]
  simp only [hpatterns, commits, List.any_eq_true, Regex.search_iff]
  constructor
  · rintro ⟨pattern, hmem, i, -, j, hspans⟩
    exact ⟨i, j, pattern, hmem, hspans⟩
  · rintro ⟨i, j, pattern, hmem, hspans⟩
    obtain ⟨-, -, hstart, -⟩ := (hpatterns i j).mpr ⟨pattern, hmem, hspans⟩
    exact ⟨pattern, hmem, i, Regex.le_of_atBoundary hstart, j, hspans⟩

end Commits

end NexaAssist
