import NexaAssist.Policy.Commitments

/-!
# Contractions

What the rule on commitments to money makes of a reply, and of the reply with `I have` or
`I will` contracted.
-/

namespace NexaAssist.Spec.Contractions

open PyJson Phrase

/-! ## Contracting a reply -/

/-- A text is a literal, in any letter case. -/
def Spells (literal text : PyStr) : Prop := List.Forall₂ (ignoreCase · · = true) literal text

/-- `have`, and what has been done, or `will`, and what will be. -/
inductive Auxiliary
  | perfect
  | future
  deriving DecidableEq, Repr

def Auxiliary.full : Auxiliary → PyStr
  | perfect => lit "have"
  | future => lit "will"

def Auxiliary.short : Auxiliary → PyStr
  | perfect => lit "ve"
  | future => lit "ll"

def Auxiliary.verbs : Auxiliary → List PyStr
  | perfect => [lit "refunded", lit "reimbursed", lit "credited"]
  | future => [lit "refund", lit "reimburse", lit "credit", lit "cancel"]

/-- A reply in which a pronoun, an auxiliary and a verb follow each other, and what its
    contraction is written with. -/
structure Contraction where
  auxiliary : Auxiliary
  before : PyStr
  pronoun : PyStr
  gap : PyStr
  full : PyStr
  apostrophe : CodePoint
  short : PyStr
  space : PyStr
  verb : PyStr
  after : PyStr
  pronoun_spelled : Spells (lit "i") pronoun ∨ Spells (lit "we") pronoun
  gap_isspace : PyStr.isspace gap = true
  full_spelled : Spells auxiliary.full full
  apostrophe_eq : apostrophe = 0x27 ∨ apostrophe = 0x2019
  short_spelled : Spells auxiliary.short short
  space_isspace : PyStr.isspace space = true
  verb_spelled : ∃ verb' ∈ auxiliary.verbs, Spells verb' verb

namespace Contraction

/-- The reply up to the pronoun. -/
def left (c : Contraction) : PyStr := c.before ++ c.pronoun

/-- The reply from after the auxiliary. -/
def right (c : Contraction) : PyStr := c.space ++ c.verb ++ c.after

/-- The reply as it is. -/
def plain (c : Contraction) : PyStr := c.left ++ (c.gap ++ c.full) ++ c.right

/-- The reply with the contracted form. -/
def contracted (c : Contraction) : PyStr := c.left ++ c.apostrophe :: c.short ++ c.right

/-- The pronoun begins where a word does, and the verb ends where one does. -/
def Whole (word : WordTable) (c : Contraction) : Prop :=
  Regex.atBoundary word.isWord c.left c.before.length = true ∧
    Regex.atBoundary word.isWord c.right (c.space ++ c.verb).length = true

end Contraction

/-! ## Words of the phrases -/

section Phrases

variable {phrase : PyStr × List PyStr} {pronoun : PyStr}

/-- The words of a phrase have no white space. -/
theorem phrases_solid (hphrase : phrase ∈ Pattern.PHRASES) :
    ∀ w ∈ phrase.1 :: phrase.2, Solid isSpace w := by
  have hall : (Pattern.PHRASES.all fun phrase => (phrase.1 :: phrase.2).all fun w =>
      !w.isEmpty && w.all (!isSpace ·)) = true := rfl
  intro w hw
  have h := List.all_eq_true.mp (List.all_eq_true.mp hall phrase hphrase) w hw
  simpa [Solid] using h

/-- The pronouns have no white space in them. -/
theorem pronouns_solid (hpronoun : pronoun ∈ Pattern.PRONOUNS) : Solid isSpace pronoun := by
  have hall : (Pattern.PRONOUNS.all fun w => !w.isEmpty && w.all (!isSpace ·)) = true := by
    rfl
  have h := List.all_eq_true.mp hall pronoun hpronoun
  simpa [Solid] using h

/-- No phrase ends in a pronoun. -/
theorem phrases_last (hphrase : phrase ∈ Pattern.PHRASES)
    (hpronoun : pronoun ∈ Pattern.PRONOUNS) :
    ¬ lastWord phrase.1 phrase.2 <:+ pronoun ∧ ¬ pronoun <:+ lastWord phrase.1 phrase.2 := by
  have hall : (Pattern.PHRASES.all fun phrase => Pattern.PRONOUNS.all fun pronoun =>
      !(lastWord phrase.1 phrase.2).isSuffixOf pronoun &&
        !pronoun.isSuffixOf (lastWord phrase.1 phrase.2)) = true := by
    rfl
  have h := List.all_eq_true.mp (List.all_eq_true.mp hall phrase hphrase) pronoun hpronoun
  simpa [← List.isSuffixOf_iff_suffix] using h

/-- `perfect` and `future` are the auxiliaries. -/
theorem mem_auxiliaries (auxiliary : Auxiliary) : auxiliary ∈ [Auxiliary.perfect, .future] := by
  cases auxiliary <;> simp

/-- The words an auxiliary may be written as. -/
def Auxiliary.words (auxiliary : Auxiliary) : List PyStr :=
  [auxiliary.full, 0x27 :: auxiliary.short, 0x2019 :: auxiliary.short]

/-- No phrase begins with what an auxiliary ends with. -/
theorem phrases_inside (hphrase : phrase ∈ Pattern.PHRASES) {auxiliary : Auxiliary} {w : PyStr}
    (hw : w ∈ auxiliary.words) :
    ¬ phrase.1 <:+ w ∧ (phrase.2 = [] → w.length < phrase.1.length) := by
  have hall : (Pattern.PHRASES.all fun phrase => [Auxiliary.perfect, .future].all fun auxiliary =>
      auxiliary.words.all fun w => !phrase.1.isSuffixOf w &&
        (!phrase.2.isEmpty || decide (w.length < phrase.1.length))) = true := by
    rfl
  have h := List.all_eq_true.mp (List.all_eq_true.mp (List.all_eq_true.mp hall phrase hphrase)
    auxiliary (mem_auxiliaries auxiliary)) w hw
  simp only [Bool.and_eq_true, Bool.not_eq_true', Bool.or_eq_true, decide_eq_true_eq,
    ← Bool.not_eq_true, List.isSuffixOf_iff_suffix, List.isEmpty_iff] at h
  exact ⟨h.1, fun hnil => h.2.resolve_left (not_not_intro hnil)⟩

/-- A phrase has at most three words. -/
theorem phrases_short (hphrase : phrase ∈ Pattern.PHRASES) : phrase.2.length ≤ 2 := by
  have hall : (Pattern.PHRASES.all fun phrase => decide (phrase.2.length ≤ 2)) = true := by
    rfl
  exact of_decide_eq_true (List.all_eq_true.mp hall phrase hphrase)

/-- A check that holds of every end of every phrase holds where a phrase is split. -/
theorem phrases_split (check : Nat → List PyStr → Bool)
    (hall : (Pattern.PHRASES.all fun phrase => (List.range 3).all fun n =>
      check n ((phrase.1 :: phrase.2).drop n)) = true)
    (hphrase : phrase ∈ Pattern.PHRASES) {front back : List PyStr} {w : PyStr}
    (heq : phrase.1 :: phrase.2 = front ++ w :: back) :
    check front.length (w :: back) = true := by
  have hn : front.length ∈ List.range 3 := by
    have hlength := congrArg List.length heq
    have hshort := phrases_short hphrase
    simp only [List.length_append, List.length_cons] at hlength
    rw [List.mem_range]
    omega
  have h := List.all_eq_true.mp (List.all_eq_true.mp hall phrase hphrase) _ hn
  rwa [heq, List.drop_left] at h

/-- What is checked of white space after a pronoun. -/
private def blankCheck (pronoun : PyStr) (auxiliary : Auxiliary) (n : Nat) : List PyStr → Bool
  | prev :: next :: back =>
    !((prev.isSuffixOf pronoun || pronoun.isSuffixOf prev) &&
      (next.isPrefixOf auxiliary.full || auxiliary.full.isPrefixOf next)) ||
      (n == 0 && prev == pronoun && next == auxiliary.full &&
        auxiliary.verbs.any fun verb => back == [verb])
  | _ => true

/-- What is checked of an apostrophe in a last word. -/
private def apostropheCheck (apostrophe : CodePoint) : List PyStr → Bool
  | [w] => !w.contains apostrophe
  | _ => true

/-- What is checked of a contraction. -/
private def contractedCheck (pronoun : PyStr) (auxiliary : Auxiliary) (apostrophe : CodePoint)
    (n : Nat) : List PyStr → Bool
  | w :: back =>
    !(w.isSuffixOf (pronoun ++ apostrophe :: auxiliary.short) ||
        (pronoun ++ apostrophe :: auxiliary.short).isSuffixOf w) ||
      (n != 0 && w == apostrophe :: auxiliary.short) ||
      (n == 0 && auxiliary == .future && w == pronoun ++ apostrophe :: auxiliary.short &&
        auxiliary.verbs.any fun verb => back == [verb])
  | _ => true

/-- Where white space follows a pronoun and an auxiliary comes after it, a phrase begins with
    the two. -/
theorem phrases_blank (hphrase : phrase ∈ Pattern.PHRASES)
    (hpronoun : pronoun ∈ Pattern.PRONOUNS) {auxiliary : Auxiliary}
    {front back : List PyStr} {prev next : PyStr}
    (heq : phrase.1 :: phrase.2 = front ++ prev :: next :: back)
    (hprev : prev <:+ pronoun ∨ pronoun <:+ prev)
    (hnext : next <+: auxiliary.full ∨ auxiliary.full <+: next) :
    front = [] ∧ prev = pronoun ∧ next = auxiliary.full ∧
      ∃ verb ∈ auxiliary.verbs, back = [verb] := by
  have h := phrases_split (fun n rest => Pattern.PRONOUNS.all fun pronoun =>
    [Auxiliary.perfect, .future].all fun auxiliary => blankCheck pronoun auxiliary n rest)
    rfl hphrase heq
  have h := List.all_eq_true.mp h pronoun hpronoun
  have h := List.all_eq_true.mp h auxiliary (mem_auxiliaries auxiliary)
  simp only [blankCheck, Bool.or_eq_true, Bool.not_eq_true', Bool.and_eq_true, ← Bool.not_eq_true,
    List.isSuffixOf_iff_suffix, List.isPrefixOf_iff_prefix, List.any_eq_true, beq_iff_eq,
    List.length_eq_zero_iff] at h
  obtain ⟨⟨⟨hfront, hprev'⟩, hnext'⟩, hback⟩ := h.resolve_left (not_not_intro ⟨hprev, hnext⟩)
  exact ⟨hfront, hprev', hnext', hback⟩

/-- A word with an apostrophe is not the last of a phrase. -/
theorem phrases_apostrophe (hphrase : phrase ∈ Pattern.PHRASES) {apostrophe : CodePoint}
    (hapostrophe : apostrophe ∈ [(0x27 : CodePoint), 0x2019])
    {front back : List PyStr} {w : PyStr} (heq : phrase.1 :: phrase.2 = front ++ w :: back)
    (hmem : apostrophe ∈ w) : back ≠ [] := by
  have h := phrases_split (fun _ rest => [(0x27 : CodePoint), 0x2019].all fun apostrophe =>
    apostropheCheck apostrophe rest) rfl hphrase heq
  have h := List.all_eq_true.mp h apostrophe hapostrophe
  intro hback
  subst hback
  simp [apostropheCheck, hmem] at h

/-- A word that ends as a pronoun and an auxiliary contracted with it do is the contracted
    `will` alone, or it is the two. -/
theorem phrases_contracted (hphrase : phrase ∈ Pattern.PHRASES)
    (hpronoun : pronoun ∈ Pattern.PRONOUNS) {auxiliary : Auxiliary} {apostrophe : CodePoint}
    (hapostrophe : apostrophe ∈ [(0x27 : CodePoint), 0x2019])
    {front back : List PyStr} {w : PyStr} (heq : phrase.1 :: phrase.2 = front ++ w :: back)
    (hw : w <:+ pronoun ++ apostrophe :: auxiliary.short ∨
      pronoun ++ apostrophe :: auxiliary.short <:+ w) :
    (front ≠ [] ∧ w = apostrophe :: auxiliary.short) ∨
      (front = [] ∧ auxiliary = .future ∧ w = pronoun ++ apostrophe :: auxiliary.short ∧
        ∃ verb ∈ auxiliary.verbs, back = [verb]) := by
  have h := phrases_split (fun n rest => Pattern.PRONOUNS.all fun pronoun =>
    [Auxiliary.perfect, .future].all fun auxiliary =>
      [(0x27 : CodePoint), 0x2019].all fun apostrophe =>
        contractedCheck pronoun auxiliary apostrophe n rest) rfl hphrase heq
  have h := List.all_eq_true.mp h pronoun hpronoun
  have h := List.all_eq_true.mp h auxiliary (mem_auxiliaries auxiliary)
  have h := List.all_eq_true.mp h apostrophe hapostrophe
  simp only [contractedCheck, Bool.or_eq_true, Bool.not_eq_true', Bool.and_eq_true, ← Bool.not_eq_true,
    List.isSuffixOf_iff_suffix, List.any_eq_true, beq_iff_eq, bne_iff_ne,
    List.length_eq_zero_iff, or_assoc, ne_eq] at h
  obtain h | h := h.resolve_left (not_not_intro hw)
  · exact .inl h
  · obtain ⟨⟨⟨hfront, hfuture⟩, hw'⟩, hback⟩ := h
    exact .inr ⟨hfront, hfuture, hw', hback⟩

/-- A pronoun, an auxiliary in full and its verb are a phrase. -/
theorem phrases_full {auxiliary : Auxiliary} {verb : PyStr}
    (hpronoun : pronoun ∈ Pattern.PRONOUNS) (hverb : verb ∈ auxiliary.verbs) :
    (pronoun, [auxiliary.full, verb]) ∈ Pattern.PHRASES := by
  have hall : (Pattern.PRONOUNS.all fun pronoun => [Auxiliary.perfect, .future].all fun auxiliary =>
      auxiliary.verbs.all fun verb =>
        Pattern.PHRASES.contains (pronoun, [auxiliary.full, verb])) = true := by
    rfl
  have h := List.all_eq_true.mp hall pronoun hpronoun
  have h := List.all_eq_true.mp h auxiliary (mem_auxiliaries auxiliary)
  exact List.contains_iff_mem.mp (List.all_eq_true.mp h verb hverb)

/-- A pronoun with `will` contracted and its verb are a phrase. -/
theorem phrases_short_future {apostrophe : CodePoint} {verb : PyStr}
    (hpronoun : pronoun ∈ Pattern.PRONOUNS) (hverb : verb ∈ Auxiliary.future.verbs)
    (hapostrophe : apostrophe ∈ [(0x27 : CodePoint), 0x2019]) :
    (pronoun ++ apostrophe :: Auxiliary.future.short, [verb]) ∈ Pattern.PHRASES := by
  have hall : (Pattern.PRONOUNS.all fun pronoun => Auxiliary.future.verbs.all fun verb =>
      [(0x27 : CodePoint), 0x2019].all fun apostrophe =>
        Pattern.PHRASES.contains (pronoun ++ apostrophe :: Auxiliary.future.short, [verb])) = true
      := by
    rfl
  have h := List.all_eq_true.mp hall pronoun hpronoun
  have h := List.all_eq_true.mp h verb hverb
  exact List.contains_iff_mem.mp (List.all_eq_true.mp h apostrophe hapostrophe)

end Phrases

/-! ## A phrase over the auxiliary -/

section Crossing

variable {text : PyStr} {phrase : PyStr × List PyStr} {auxiliary : Auxiliary}
  {pronoun verb w : PyStr} {apostrophe : CodePoint} {i j p q r : Nat}

/-- The words of an auxiliary have no white space. -/
theorem words_solid (hw : w ∈ auxiliary.words) : Solid isSpace w := by
  have hall : ([Auxiliary.perfect, .future].all fun auxiliary => auxiliary.words.all fun w =>
      !w.isEmpty && w.all (!isSpace ·)) = true := by
    rfl
  have h := List.all_eq_true.mp (List.all_eq_true.mp hall auxiliary (mem_auxiliaries auxiliary))
    w hw
  simpa [Solid] using h

/-- The verbs of an auxiliary have no white space in them. -/
theorem verbs_solid (hverb : verb ∈ auxiliary.verbs) : Solid isSpace verb := by
  have hall : ([Auxiliary.perfect, .future].all fun auxiliary => auxiliary.verbs.all fun w =>
      !w.isEmpty && w.all (!isSpace ·)) = true := by
    rfl
  have h := List.all_eq_true.mp (List.all_eq_true.mp hall auxiliary (mem_auxiliaries auxiliary))
    verb hverb
  simpa [Solid] using h

/-- No verb of an auxiliary begins with another. -/
theorem verbs_eq {verb' : PyStr} (hverb : verb ∈ auxiliary.verbs)
    (hverb' : verb' ∈ auxiliary.verbs) (h : verb <+: verb') : verb = verb' := by
  have hall : ([Auxiliary.perfect, .future].all fun auxiliary => auxiliary.verbs.all fun verb =>
      auxiliary.verbs.all fun verb' => !verb.isPrefixOf verb' || verb == verb') = true := by
    rfl
  have hcheck := List.all_eq_true.mp hall auxiliary (mem_auxiliaries auxiliary)
  have hcheck := List.all_eq_true.mp (List.all_eq_true.mp hcheck verb hverb) verb' hverb'
  simp only [Bool.or_eq_true, Bool.not_eq_true', ← Bool.not_eq_true, List.isPrefixOf_iff_prefix,
    beq_iff_eq] at hcheck
  exact hcheck.resolve_left (not_not_intro h)

/-- A phrase does not begin within what an auxiliary is written as. -/
theorem le_of_inside (hw : w ∈ auxiliary.words) (hat : w <+: text.drop q)
    (hspace : Blank isSpace text (q + w.length) r) (hphrase : phrase ∈ Pattern.PHRASES)
    (h : Occurs isSpace text phrase.1 phrase.2 i j) (hi : q ≤ i) : q + w.length ≤ i := by
  refine Nat.le_of_not_lt fun hlt => ?_
  have hfirst : Solid isSpace phrase.1 := phrases_solid hphrase _ List.mem_cons_self
  obtain ⟨hno, hone⟩ := phrases_inside hphrase hw
  -- The word has white space after it, so the first word of the phrase ends with it or before.
  have hend := hspace.word_le hfirst h.1 (Nat.le_of_lt hlt)
  cases hrest : phrase.2 with
  | nil =>
    have := hone hrest
    omega
  | cons next words =>
    obtain ⟨k, hblank, -⟩ := hrest ▸ h.2
    have hlast := (hfirst.1 |> List.length_pos_iff.mpr)
    have hexact : i + phrase.1.length = q + w.length :=
      Nat.le_antisymm hend (hblank.word_le (words_solid hw) hat (by omega))
    have hsuffix : phrase.1 <:+ text.take (q + w.length) := hexact ▸ suffix_take h.1
    exact hno (List.suffix_of_suffix_length_le hsuffix (suffix_take hat) (by omega))

/-- After the auxiliary there is room for one verb. -/
theorem verb_end {verb' : PyStr} (hverb : verb ∈ auxiliary.verbs)
    (hverb' : verb' ∈ auxiliary.verbs) (hspace : Blank isSpace text q r)
    (hat : verb <+: text.drop r) (h : Follows isSpace text [verb'] q j) :
    verb' = verb ∧ j = r + verb.length := by
  obtain ⟨k, hblank, hk, rfl⟩ := h
  obtain rfl := hspace.end_unique (verbs_solid hverb) hat hblank (verbs_solid hverb') hk
  have heq : verb' = verb := by
    rcases List.prefix_or_prefix_of_prefix hk hat with hle | hle
    · exact verbs_eq hverb' hverb hle
    · exact (verbs_eq hverb hverb' hle).symm
  exact ⟨heq, by rw [heq]⟩

/-- A phrase over an auxiliary written in full is the pronoun, the auxiliary and the verb. -/
theorem cross_plain (hpronoun : pronoun ∈ Pattern.PRONOUNS) (hverb : verb ∈ auxiliary.verbs)
    (hp : pronoun <+: text.drop p) (hgap : Blank isSpace text (p + pronoun.length) q)
    (hfull : auxiliary.full <+: text.drop q)
    (hspace : Blank isSpace text (q + auxiliary.full.length) r) (hat : verb <+: text.drop r)
    (hphrase : phrase ∈ Pattern.PHRASES) (h : Occurs isSpace text phrase.1 phrase.2 i j)
    (hi : i < q + auxiliary.full.length) (hj : p + pronoun.length < j) :
    i = p ∧ j = r + verb.length := by
  have hword : auxiliary.full ∈ auxiliary.words := List.mem_cons_self
  have hsolid := phrases_solid hphrase
  have hbefore : i ≤ p + pronoun.length := by
    refine Nat.le_of_not_lt fun hlt => ?_
    have hq := hgap.end_le (hsolid _ List.mem_cons_self) h.1 (Nat.le_of_lt hlt)
    have := le_of_inside hword hfull hspace hphrase h hq
    omega
  obtain ⟨c, hc, hblankc⟩ := hgap.2 _ (Nat.le_refl _) hgap.1
  obtain ⟨front, prev, next, back, a, b, heq, hfirst, hprev, hblank, hle, hlt, hnext, hrest⟩ :=
    h.cross_blank hsolid hbefore hj hc hblankc
  have hmem : ∀ w ∈ prev :: next :: back, w ∈ phrase.1 :: phrase.2 := by
    intro w hw
    rw [heq]
    exact List.mem_append_right _ hw
  -- The white space between the two words is the one before the auxiliary.
  have ha : a + prev.length = p + pronoun.length :=
    Nat.le_antisymm hle (hblank.le_start (pronouns_solid hpronoun) hp (Nat.le_of_lt hlt))
  rw [ha] at hblank
  obtain rfl := hgap.end_unique (words_solid hword) hfull hblank
    (hsolid _ (hmem next (by simp))) hnext
  have hsuffix : prev <:+ text.take (p + pronoun.length) := ha ▸ suffix_take hprev
  obtain ⟨rfl, rfl, rfl, verb', hverb', rfl⟩ := phrases_blank hphrase hpronoun heq
    (List.suffix_or_suffix_of_suffix hsuffix (suffix_take hp))
    (List.prefix_or_prefix_of_prefix hnext hfull)
  obtain ⟨-, hj'⟩ := verb_end hverb hverb' hspace hat hrest
  exact ⟨by have := hfirst rfl; omega, hj'⟩

/-- A phrase over a contracted auxiliary is the pronoun, the contracted `will` and the verb. -/
theorem cross_contracted (hpronoun : pronoun ∈ Pattern.PRONOUNS)
    (hverb : verb ∈ auxiliary.verbs) (hapostrophe : apostrophe ∈ [(0x27 : CodePoint), 0x2019])
    (hp : pronoun ++ apostrophe :: auxiliary.short <+: text.drop p)
    (hspace : Blank isSpace text (p + (pronoun ++ apostrophe :: auxiliary.short).length) r)
    (hat : verb <+: text.drop r)
    (hphrase : phrase ∈ Pattern.PHRASES) (h : Occurs isSpace text phrase.1 phrase.2 i j)
    (hi : i < p + (pronoun ++ apostrophe :: auxiliary.short).length)
    (hj : p + pronoun.length < j) :
    auxiliary = .future ∧ i = p ∧ j = r + verb.length := by
  -- The contracted auxiliary is a word of the phrases, and the phrase runs over its apostrophe
  have hword : apostrophe :: auxiliary.short ∈ auxiliary.words := by
    simp only [List.mem_cons, List.not_mem_nil, or_false] at hapostrophe
    obtain rfl | rfl := hapostrophe <;> simp [Auxiliary.words]
  have hmiddle := (Pattern.prefix_append_iff.mp hp).2
  have hend : p + (pronoun ++ apostrophe :: auxiliary.short).length =
      p + pronoun.length + (apostrophe :: auxiliary.short).length := by
    rw [List.length_append, Nat.add_assoc]
  -- The phrase does not begin inside the auxiliary
  have hbefore : i ≤ p + pronoun.length := by
    refine Nat.le_of_not_lt fun hlt => ?_
    have := le_of_inside hword hmiddle (hend ▸ hspace) hphrase h (Nat.le_of_lt hlt)
    omega
  have hc : text[p + pronoun.length]? = some apostrophe := by
    have hget := getElem?_of_stands hmiddle (k := 0) (by simp)
    simpa using hget
  have hsolid : isSpace apostrophe = false := (words_solid hword).2 _ List.mem_cons_self
  -- One word of the phrase stands over the apostrophe
  obtain ⟨front, w, back, a, heq, hfirst, hlater, hw, hle, hlt, hrest⟩ :=
    h.cross_solid hbefore hj hc hsolid
  have hwsolid : Solid isSpace w := by
    apply phrases_solid hphrase
    rw [heq]
    exact List.mem_append_right _ List.mem_cons_self
  have hin : apostrophe ∈ w := by
    have hget := getElem?_of_stands hw (k := p + pronoun.length - a) (by omega)
    rw [show a + (p + pronoun.length - a) = p + pronoun.length by omega, hc] at hget
    exact List.mem_of_getElem? hget.symm
  -- The word over the apostrophe ends where the contracted auxiliary does.
  have hwend : a + w.length = p + pronoun.length + (apostrophe :: auxiliary.short).length := by
    obtain ⟨next, words, rfl⟩ := List.exists_cons_of_ne_nil
      (phrases_apostrophe hphrase hapostrophe heq hin)
    obtain ⟨k, hblank, -⟩ := hrest
    refine Nat.le_antisymm ?_ ?_
    · exact hend ▸ hspace.word_le hwsolid hw (by rw [hend]; simp only [List.length_cons]; omega)
    · exact hblank.word_le (words_solid hword) hmiddle (Nat.le_of_lt hlt)
  have hsuffix : w <:+ text.take (p + (pronoun ++ apostrophe :: auxiliary.short).length) := by
    rw [hend, ← hwend]
    exact suffix_take hw
  rcases phrases_contracted hphrase hpronoun hapostrophe heq
    (List.suffix_or_suffix_of_suffix hsuffix (suffix_take hp)) with
    ⟨hfront, rfl⟩ | ⟨hfront, hfuture, rfl, verb', hverb', rfl⟩
  · -- There is no white space between the pronoun and the apostrophe.
    obtain ⟨b, hblank⟩ := hlater hfront
    have hstart := hblank.le_start (pronouns_solid hpronoun)
      (Pattern.prefix_append_iff.mp hp).1 (by omega)
    have := hblank.1
    omega
  -- The word is the pronoun with its future auxiliary, so the phrase is the whole one
  · have hstart := hfirst hfront
    rw [hwend, ← hend] at hrest
    obtain ⟨-, hj'⟩ := verb_end hverb hverb' hspace hat hrest
    exact ⟨hfuture, by omega, hj'⟩

end Crossing

/-! ## Commitments of a part of a reply -/

section Parts

variable {word : WordTable} {left middle right before pronoun : PyStr} {i j : Nat}

/-- A phrase that occurs takes up room. -/
theorem phrase_lt {phrase : PyStr × List PyStr} {text : PyStr}
    (hphrase : phrase ∈ Pattern.PHRASES) (h : Occurs isSpace text phrase.1 phrase.2 i j) :
    i < j := by
  have hfirst : Solid isSpace phrase.1 := phrases_solid hphrase _ List.mem_cons_self
  have hlength : 0 < phrase.1.length := List.length_pos_iff.mpr hfirst.1
  have := h.2.le
  omega

/-- No phrase ends with the pronoun. -/
theorem ne_pronoun {phrase : PyStr × List PyStr} {text : PyStr} {p : Nat}
    (hphrase : phrase ∈ Pattern.PHRASES) (hpronoun : pronoun ∈ Pattern.PRONOUNS)
    (hp : pronoun <+: text.drop p) (h : Occurs isSpace text phrase.1 phrase.2 i j) :
    j ≠ p + pronoun.length := by
  intro hj
  obtain ⟨hno, hno'⟩ := phrases_last hphrase hpronoun
  exact (List.suffix_or_suffix_of_suffix (hj ▸ h.suffix) (suffix_take hp)).elim hno hno'

/-- What is committed to before the auxiliary is so in the part up to the pronoun. -/
theorem commitment_left (hpronoun : pronoun ∈ Pattern.PRONOUNS)
    (hp : pronoun <+: (Pattern.fold left).drop before.length)
    (hleft : left.length = before.length + pronoun.length) (hj : j ≤ left.length) :
    Commitment word (left ++ right) i j ↔ Commitment word left i j := by
  unfold Commitment Pattern.Phrased
  rw [Pattern.fold_append]
  constructor
  · rintro ⟨phrase, hphrase, hstart, hoccurs, hend⟩
    have hij := phrase_lt hphrase hoccurs
    have hpart := hoccurs.of_append (by rwa [Pattern.length_fold])
    have hne := ne_pronoun hphrase hpronoun hp hpart
    rw [Regex.atBoundary_append_left (by omega)] at hstart hend
    exact ⟨phrase, hphrase, hstart, hpart, hend⟩
  · rintro ⟨phrase, hphrase, hstart, hoccurs, hend⟩
    have hij := phrase_lt hphrase hoccurs
    have hne := ne_pronoun hphrase hpronoun hp hoccurs
    exact ⟨phrase, hphrase, (Regex.atBoundary_append_left (by omega)).trans hstart,
      hoccurs.append, (Regex.atBoundary_append_left (by omega)).trans hend⟩

/-- What is committed to after the auxiliary is so in the part from the white space on. -/
theorem commitment_right {n : Nat} (hblank : Blank isSpace (Pattern.fold right) 0 n) :
    Commitment word (left ++ right) (left.length + i) (left.length + j) ↔
      Commitment word right i j := by
  have hpos : ∀ {phrase}, phrase ∈ Pattern.PHRASES →
      Occurs isSpace (Pattern.fold right) phrase.1 phrase.2 i j → 0 < i := by
    intro phrase hphrase h
    have := hblank.end_le (phrases_solid hphrase _ List.mem_cons_self) h.1 (Nat.zero_le i)
    have := hblank.1
    omega
  unfold Commitment Pattern.Phrased
  rw [Pattern.fold_append, ← Pattern.length_fold left]
  constructor
  · rintro ⟨phrase, hphrase, hstart, hoccurs, hend⟩
    have hpart := hoccurs.of_shift
    have hi := hpos hphrase hpart
    have hij := phrase_lt hphrase hpart
    rw [Pattern.length_fold] at hstart hend
    rw [Regex.atBoundary_append_right (by omega)] at hstart hend
    exact ⟨phrase, hphrase, hstart, hpart, hend⟩
  · rintro ⟨phrase, hphrase, hstart, hoccurs, hend⟩
    have hi := hpos hphrase hoccurs
    have hij := phrase_lt hphrase hoccurs
    rw [Pattern.length_fold]
    exact ⟨phrase, hphrase, (Regex.atBoundary_append_right (by omega)).trans hstart,
      Pattern.length_fold left ▸ hoccurs.shift,
      (Regex.atBoundary_append_right (by omega)).trans hend⟩

/-- A reply commits to money in the part up to the pronoun, in the part after the auxiliary,
    or over the auxiliary. -/
theorem commits_parts (hpronoun : pronoun ∈ Pattern.PRONOUNS)
    (hp : pronoun <+: (Pattern.fold left).drop before.length)
    (hleft : left.length = before.length + pronoun.length)
    {n : Nat} (hblank : Blank isSpace (Pattern.fold right) 0 n) :
    commits word (left ++ middle ++ right) = true ↔
      commits word left = true ∨ commits word right = true ∨
        ∃ i j, i < (left ++ middle).length ∧ left.length < j ∧
          Commitment word (left ++ middle ++ right) i j := by
  simp only [commits_iff]
  constructor
  · rintro ⟨i, j, h⟩
    by_cases hj : j ≤ left.length
    · refine .inl ⟨i, j, ?_⟩
      rw [List.append_assoc] at h
      exact (commitment_left hpronoun hp hleft hj).mp h
    by_cases hi : i < (left ++ middle).length
    · exact .inr (.inr ⟨i, j, hi, Nat.lt_of_not_le hj, h⟩)
    · obtain ⟨phrase, hphrase, -, hoccurs, -⟩ := id h
      have hij := phrase_lt hphrase hoccurs
      obtain ⟨i, rfl⟩ := Nat.exists_eq_add_of_le (Nat.le_of_not_lt hi)
      obtain ⟨j, rfl⟩ := Nat.exists_eq_add_of_le (show (left ++ middle).length ≤ j by omega)
      exact .inr (.inl ⟨i, j, (commitment_right hblank).mp h⟩)
  · rintro (⟨i, j, h⟩ | ⟨i, j, h⟩ | ⟨i, j, -, -, h⟩)
    · refine ⟨i, j, ?_⟩
      have hj : j ≤ left.length := by
        obtain ⟨phrase, hphrase, hstart, hoccurs, hend⟩ := h
        exact Regex.le_of_atBoundary hend
      rw [List.append_assoc]
      exact (commitment_left hpronoun hp hleft hj).mpr h
    · exact ⟨_, _, (commitment_right hblank).mpr h⟩
    · exact ⟨i, j, h⟩

end Parts

/-! ## The two replies -/

/-- `fold` takes a text that spells a plain literal to that literal. -/
theorem Spells.fold {literal text : PyStr} (h : Spells literal text)
    (hplain : literal.all Pattern.plain = true) : Pattern.fold text = literal := by
  induction h with
  | nil => rfl
  | cons hmatch _ ih =>
    rw [List.all_cons, Bool.and_eq_true] at hplain
    unfold Pattern.fold at ih ⊢
    rw [List.map_cons, (Pattern.ignoreCase_iff hplain.1).mp hmatch, ih hplain.2]

/-- White space in front of a text is white space after `fold`. -/
theorem blank_fold {space rest : PyStr} (h : PyStr.isspace space = true) :
    Blank isSpace (Pattern.fold space ++ rest) 0 space.length := by
  simp only [PyStr.isspace, Bool.and_eq_true, Bool.not_eq_true', List.all_eq_true,
    List.isEmpty_eq_false_iff] at h
  refine ⟨List.length_pos_iff.mpr h.1, ?_⟩
  intro k _ hk
  rw [List.getElem?_append_left (by rwa [Pattern.length_fold]), Pattern.getElem?_fold,
    List.getElem?_eq_getElem hk]
  exact ⟨_, rfl, (Pattern.isSpace_foldCase _).trans (h.2 _ (List.getElem_mem hk))⟩

namespace Contraction

variable {word : WordTable} (c : Contraction)

/-- `fold` gives the pronoun of a contraction. -/
theorem fold_pronoun : ∃ pronoun ∈ Pattern.PRONOUNS, Pattern.fold c.pronoun = pronoun := by
  rcases c.pronoun_spelled with h | h
  · exact ⟨_, List.mem_cons_self, h.fold (by decide)⟩
  · exact ⟨_, List.mem_cons_of_mem _ List.mem_cons_self, h.fold (by decide)⟩

/-- `fold` gives the full auxiliary. -/
theorem fold_full : Pattern.fold c.full = c.auxiliary.full := by
  apply c.full_spelled.fold
  cases c.auxiliary <;> decide

/-- `fold` gives the short auxiliary and leaves the apostrophe. -/
theorem fold_short :
    Pattern.fold (c.apostrophe :: c.short) = c.apostrophe :: c.auxiliary.short := by
  have hapostrophe : Pattern.foldCase c.apostrophe = c.apostrophe := by
    rcases c.apostrophe_eq with h | h <;> rw [h] <;> decide
  have hshort : Pattern.fold c.short = c.auxiliary.short := by
    apply c.short_spelled.fold
    cases c.auxiliary <;> decide
  unfold Pattern.fold at hshort ⊢
  rw [List.map_cons, hapostrophe, hshort]

/-- `fold` gives one of the verbs of the auxiliary. -/
theorem fold_verb : ∃ verb ∈ c.auxiliary.verbs, Pattern.fold c.verb = verb := by
  obtain ⟨verb, hverb, h⟩ := c.verb_spelled
  refine ⟨verb, hverb, h.fold ?_⟩
  have hall : ([Auxiliary.perfect, .future].all fun auxiliary => auxiliary.verbs.all fun verb =>
      verb.all Pattern.plain) = true := by decide
  exact List.all_eq_true.mp (List.all_eq_true.mp hall _ (mem_auxiliaries c.auxiliary)) verb hverb

/-! ## Where their words are -/

variable {c} {pronoun verb : PyStr} {middle : PyStr}

/-- The pronoun stands at the end of what is on the left. -/
theorem left_at (h : Pattern.fold c.pronoun = pronoun) :
    pronoun <+: (Pattern.fold c.left).drop c.before.length := by
  unfold left
  rw [Pattern.fold_append, h]
  have hat : pronoun <+: pronoun.drop 0 := List.prefix_rfl
  exact Pattern.length_fold c.before ▸ prefix_shift hat

/-- What is on the left ends with the pronoun. -/
theorem length_left (h : Pattern.fold c.pronoun = pronoun) :
    c.left.length = c.before.length + pronoun.length := by
  rw [← h, Pattern.length_fold, left, List.length_append]

/-- What is on the right begins with white space. -/
theorem right_blank : Blank isSpace (Pattern.fold c.right) 0 c.space.length := by
  unfold right
  rw [Pattern.fold_append, Pattern.fold_append, List.append_assoc]
  exact blank_fold c.space_isspace

/-- Behind the white space stands the verb. -/
theorem right_at (h : Pattern.fold c.verb = verb) :
    verb <+: (Pattern.fold c.right).drop c.space.length := by
  unfold right
  rw [Pattern.fold_append, Pattern.fold_append, h, List.append_assoc]
  have hat : verb <+: (verb ++ Pattern.fold c.after).drop 0 := List.prefix_append _ _
  exact Pattern.length_fold c.space ▸ prefix_shift hat

/-- The pronoun stands before the auxiliary, whatever that is written as. -/
theorem pronoun_at (h : Pattern.fold c.pronoun = pronoun) :
    pronoun <+: (Pattern.fold (c.left ++ middle ++ c.right)).drop c.before.length := by
  rw [List.append_assoc, Pattern.fold_append]
  exact prefix_append (left_at h)

/-- White space stands behind the auxiliary, whatever that is written as. -/
theorem space_at {n : Nat} (hn : n = (c.left ++ middle).length) :
    Blank isSpace (Pattern.fold (c.left ++ middle ++ c.right)) n (n + c.space.length) := by
  rw [Pattern.fold_append, hn, ← Pattern.length_fold]
  exact right_blank.shift

/-- The verb stands behind the white space, whatever the auxiliary is written as. -/
theorem verb_at (h : Pattern.fold c.verb = verb) {n : Nat}
    (hn : n = (c.left ++ middle).length) :
    verb <+: (Pattern.fold (c.left ++ middle ++ c.right)).drop (n + c.space.length) := by
  rw [Pattern.fold_append, hn, ← Pattern.length_fold]
  exact prefix_shift (right_at h)

/-- The pronoun begins a word and the verb ends one in the reply just where they do in its two
    parts. -/
theorem whole_iff (word : WordTable) (hpronoun : 0 < pronoun.length) (hfold : Pattern.fold c.pronoun = pronoun)
    (hverb : Pattern.fold c.verb = verb) {n : Nat} (hn : n = (c.left ++ middle).length) :
    (Regex.atBoundary word.isWord (c.left ++ middle ++ c.right) c.before.length = true ∧
      Regex.atBoundary word.isWord (c.left ++ middle ++ c.right)
        (n + c.space.length + verb.length) = true) ↔ c.Whole word := by
  have hleft := length_left hfold
  have hspace := (right_blank (c := c)).1
  unfold Whole
  rw [hn, Nat.add_assoc, Regex.atBoundary_append_right (by omega), List.append_assoc,
    Regex.atBoundary_append_left (by omega), List.length_append, ← hverb, Pattern.length_fold]

/-- When a reply commits to money, where an auxiliary is written in full. -/
theorem commits_plain_iff :
    commits word c.plain = true ↔
      commits word c.left = true ∨ commits word c.right = true ∨ c.Whole word := by
  obtain ⟨pronoun, hpronoun, hfold⟩ := c.fold_pronoun
  obtain ⟨verb, hverb, hfoldverb⟩ := c.fold_verb
  have hpos : 0 < pronoun.length := List.length_pos_iff.mpr (pronouns_solid hpronoun).1
  have hleft := length_left hfold
  -- Where the gap, the auxiliary and what follows stand in the folded text
  have hgap : Blank isSpace (Pattern.fold c.plain) (c.before.length + pronoun.length)
      (c.before.length + pronoun.length + c.gap.length) := by
    unfold plain
    rw [← hleft, List.append_assoc, Pattern.fold_append, List.append_assoc, Pattern.fold_append,
      ← Pattern.length_fold c.left]
    exact (blank_fold c.gap_isspace).shift
  have hfull : c.auxiliary.full <+: (Pattern.fold c.plain).drop
      (c.before.length + pronoun.length + c.gap.length) := by
    have hdrop : (Pattern.fold c.gap ++ c.auxiliary.full).drop c.gap.length =
        c.auxiliary.full := by
      rw [← Pattern.length_fold c.gap, List.drop_left]
    have hgap : c.auxiliary.full <+:
        (Pattern.fold c.gap ++ c.auxiliary.full).drop c.gap.length := by
      simp only [hdrop, List.prefix_refl]
    unfold plain
    rw [← hleft, List.append_assoc, Pattern.fold_append, Pattern.fold_append,
      Pattern.fold_append c.gap, c.fold_full, ← Pattern.length_fold c.left]
    exact prefix_shift (prefix_append hgap)
  have hn : c.before.length + pronoun.length + c.gap.length + c.auxiliary.full.length =
      (c.left ++ (c.gap ++ c.full)).length := by
    rw [← c.fold_full, Pattern.length_fold, ← hleft, List.length_append, List.length_append,
      Nat.add_assoc]
  have hwhole := whole_iff word hpos hfold hfoldverb hn
  unfold plain at hgap hfull ⊢
  -- A commitment lies on the left, on the right, or across the two
  rw [commits_parts hpronoun (left_at hfold) hleft right_blank]
  refine or_congr_right (or_congr_right ?_)
  rw [← hwhole]
  constructor
  · rintro ⟨i, j, hi, hj, phrase, hphrase, hstart, hoccurs, hend⟩
    -- One that lies across can only be the pronoun, the auxiliary and the verb
    obtain ⟨rfl, rfl⟩ := cross_plain hpronoun hverb (pronoun_at hfold) hgap hfull (space_at hn)
      (verb_at hfoldverb hn) hphrase hoccurs (hn ▸ hi) (hleft ▸ hj)
    exact ⟨hstart, hend⟩
  · rintro ⟨hstart, hend⟩
    refine ⟨_, _, ?_, ?_, (pronoun, [c.auxiliary.full, verb]), ?_, hstart,
      ⟨pronoun_at hfold, _, hgap, hfull, _, space_at hn, verb_at hfoldverb hn, rfl⟩, hend⟩
    · rw [← hn]
      omega
    · have hspace := (right_blank (c := c)).1
      omega
    · exact phrases_full hpronoun hverb

/-- A reply with the auxiliary contracted commits just if one of its parts does, or the auxiliary is
    `will` and its phrase is whole. -/
theorem commits_contracted_iff :
    commits word c.contracted = true ↔
      commits word c.left = true ∨ commits word c.right = true ∨
        (c.auxiliary = .future ∧ c.Whole word) := by
  obtain ⟨pronoun, hpronoun, hfold⟩ := c.fold_pronoun
  obtain ⟨verb, hverb, hfoldverb⟩ := c.fold_verb
  have hpos : 0 < pronoun.length := List.length_pos_iff.mpr (pronouns_solid hpronoun).1
  have hleft := length_left hfold
  have hapostrophe : c.apostrophe ∈ [(0x27 : CodePoint), 0x2019] := by
    simpa using c.apostrophe_eq
  -- Where the pronoun and its apostrophe stand in the folded text
  have hat : pronoun ++ c.apostrophe :: c.auxiliary.short <+:
      (Pattern.fold c.contracted).drop c.before.length := by
    unfold contracted left
    rw [Pattern.fold_append, Pattern.fold_append, Pattern.fold_append, c.fold_short, hfold,
      List.append_assoc, List.append_assoc, ← List.append_assoc pronoun,
      ← Pattern.length_fold c.before, List.drop_left]
    exact List.prefix_append _ _
  have hn : c.before.length + (pronoun ++ c.apostrophe :: c.auxiliary.short).length =
      (c.left ++ c.apostrophe :: c.short).length := by
    rw [← c.fold_short, List.length_append, Pattern.length_fold, ← Nat.add_assoc, ← hleft,
      List.length_append]
  have hwhole := whole_iff word hpos hfold hfoldverb hn
  unfold contracted at hat ⊢
  rw [commits_parts hpronoun (left_at hfold) hleft right_blank]
  refine or_congr_right (or_congr_right ?_)
  rw [← hwhole]
  constructor
  · rintro ⟨i, j, hi, hj, phrase, hphrase, hstart, hoccurs, hend⟩
    -- Only the future is known to the phrases in its contracted form
    obtain ⟨hfuture, rfl, rfl⟩ := cross_contracted hpronoun hverb hapostrophe hat (space_at hn)
      (verb_at hfoldverb hn) hphrase hoccurs (hn ▸ hi) (hleft ▸ hj)
    exact ⟨hfuture, hstart, hend⟩
  · rintro ⟨hfuture, hstart, hend⟩
    rw [hfuture] at hverb
    refine ⟨_, _, ?_, ?_, _, phrases_short_future hpronoun hverb hapostrophe, hstart,
      ⟨hfuture ▸ hat, _, hfuture ▸ space_at hn, verb_at hfoldverb hn, rfl⟩, hend⟩
    · rw [← hn, List.length_append]
      omega
    · have hspace := (right_blank (c := c)).1
      rw [List.length_append, hleft]
      omega

end Contraction

/-! ## The verdict -/

/-- The rule's verdict is about the text of the reply alone. -/
theorem evaluate_eq_iff {word : WordTable} {context : PolicyContext} {reply reply' : PyStr} :
    (noFinancialCommitments word).evaluate { context with proposedReply := reply } =
        (noFinancialCommitments word).evaluate { context with proposedReply := reply' } ↔
      (commits word reply = true ↔ commits word reply' = true) := by
  simp only [noFinancialCommitments]
  cases commits word reply <;> cases commits word reply' <;> simp

/-- Contracting leaves the verdict alone where it is `will` that is contracted, where the three
    words do not stand on their own, and where there is a commitment before or after them. -/
theorem unchanged_iff (word : WordTable) (context : PolicyContext) (c : Contraction) :
    (noFinancialCommitments word).evaluate { context with proposedReply := c.plain } =
        (noFinancialCommitments word).evaluate { context with proposedReply := c.contracted } ↔
      c.auxiliary = .future ∨ ¬ c.Whole word ∨
        commits word c.left = true ∨ commits word c.right = true := by
  rw [evaluate_eq_iff, Contraction.commits_plain_iff, Contraction.commits_contracted_iff]
  by_cases hfuture : c.auxiliary = .future
  · simp only [hfuture, true_and, true_or]
  · simp only [hfuture, false_and, false_or, or_false]
    constructor
    · intro h
      by_cases hwhole : c.Whole word
      · exact .inr (h.mp (.inr (.inr hwhole)))
      · exact .inl hwhole
    · rintro (hno | hparts)
      · exact ⟨fun h => or_assoc.mpr h |>.resolve_right hno, fun h => h.imp_right .inl⟩
      · exact ⟨fun _ => hparts, fun h => h.imp_right .inl⟩

/-- `I have refunded your card.` and `I've refunded your card.` -/
def refundedCard : Contraction where
  auxiliary := .perfect
  before := []
  pronoun := lit "I"
  gap := lit " "
  full := lit "have"
  apostrophe := 0x27
  short := lit "ve"
  space := lit " "
  verb := lit "refunded"
  after := lit " your card."
  pronoun_spelled := .inl (by unfold Spells; decide +kernel)
  gap_isspace := by decide +kernel
  full_spelled := by unfold Spells; decide +kernel
  apostrophe_eq := .inl rfl
  short_spelled := by unfold Spells; decide +kernel
  space_isspace := by decide +kernel
  verb_spelled := ⟨lit "refunded", by decide, by unfold Spells; decide +kernel⟩

/-- One is a share. -/
theorem one_isShare : (0 : Rat) ≤ 1 ∧ (1 : Rat) ≤ 1 := by decide

def refundRequest : PolicyContext where
  message := lit "Please refund my card."
  analysis := {
    intent := .billing
    confidence := ⟨1, one_isShare⟩
    reason := ⟨lit "Asks for a refund.", by decide⟩ }
  proposedReply := []
  handled := true

/-- The contracted form slips through. -/
theorem have_contracted_slips :
    refundedCard.plain = lit "I have refunded your card." ∧
      refundedCard.contracted = lit "I've refunded your card." ∧
      (noFinancialCommitments .asciiOnly).evaluate
          { refundRequest with proposedReply := refundedCard.plain } ≠
        (noFinancialCommitments .asciiOnly).evaluate
          { refundRequest with proposedReply := refundedCard.contracted } := by
  refine ⟨by decide +kernel, by decide +kernel, ?_⟩
  have hplain : commits .asciiOnly refundedCard.plain = true := by decide +kernel
  have hcontracted : commits .asciiOnly refundedCard.contracted = false := by decide +kernel
  rw [Ne, evaluate_eq_iff, hplain, hcontracted]
  exact fun h => Bool.false_ne_true (h.mp rfl)

end NexaAssist.Spec.Contractions
