import NexaAssist.ForStd.Substitution

/-!
# Where the characters of a replaced text come from

The replacements of `Substitution`, on characters that know their position in the input. Those of
a mark have none. Forgetting the positions gives the replacement back.

`replaceTraced` takes out just the occurrences of a word that are whole when they are met. For
several words one after another, `Replaced` says which these are, on the input.
-/

namespace List

variable {α : Type}

/-- Each character with its position. -/
def trace (text : List α) : List (α × Option Nat) :=
  text.zipIdx.map fun c => (c.1, some c.2)

/-- Characters that are not of the input. -/
def untraced (mark : List α) : List (α × Option Nat) := mark.map fun c => (c, none)

/-- The characters of a mark are those of the mark. -/
@[simp] theorem map_fst_untraced (mark : List α) : (untraced mark).map Prod.fst = mark := by
  simp [untraced, Function.comp_def]

/-- Forgetting the positions gives the text back. -/
@[simp] theorem map_fst_trace (text : List α) : (trace text).map Prod.fst = text := by
  simp [trace, Function.comp_def]

/-- What has a position is of no mark. -/
theorem not_mem_untraced {mark : List α} {c : α} {i : Nat} : (c, some i) ∉ untraced mark := by
  simp [untraced]

/-- Each character has its own position. -/
theorem getElem?_trace (text : List α) (i : Nat) :
    (trace text)[i]? = text[i]?.map fun c => (c, some i) := by
  simp only [trace, getElem?_map, getElem?_zipIdx, Option.map_map, Nat.zero_add]
  rfl

/-- What holds behind the last character, and of a character in front of what it holds of, holds of
    all of `trace`. -/
theorem trace_induction {text : List α} {P : Nat → List (α × Option Nat) → Prop}
    (hnil : P text.length [])
    (hcons : ∀ p c rest, text[p]? = some c → P (p + 1) rest → P p ((c, some p) :: rest)) :
    P 0 (trace text) := by
  have hdrop : ∀ n p, p + n = text.length → P p ((trace text).drop p) := by
    intro n
    induction n with
    | zero =>
      intro p hp
      obtain rfl : p = text.length := hp
      rw [drop_eq_nil_of_le (by simp [trace])]
      exact hnil
    | succ n ih =>
      intro p hp
      have hlt : p < (trace text).length := by simp [trace]; omega
      have hat := getElem?_trace text p
      rw [getElem?_eq_getElem hlt, getElem?_eq_getElem (by omega), Option.map_some,
        Option.some.injEq] at hat
      rw [drop_eq_getElem_cons hlt, hat]
      exact hcons p _ _ (getElem?_eq_getElem (by omega)) (ih (p + 1) (by omega))
  exact hdrop text.length 0 (Nat.zero_add _)

/-! ## The occurrences that are replaced -/

/-- The occurrence of the word `j` at `p` is replaced: it meets no replaced occurrence of a word
    before it, and of its own none further left. -/
def Replaced (words : List (List α)) (text : List α) (j p : Nat) : Prop :=
  ∃ word, words[j]? = some word ∧ word <+: text.drop p ∧
    (∀ j' < j, ∀ p' word', words[j']? = some word' → Replaced words text j' p' →
      p' + word'.length ≤ p ∨ p + word.length ≤ p') ∧
    ∀ p' < p, Replaced words text j p' → p' + word.length ≤ p
termination_by (j, p)

/-- From `p` to `q` there is a replaced occurrence of one of the first `k` words. -/
def Cut (words : List (List α)) (text : List α) (k p q : Nat) : Prop :=
  ∃ j < k, ∃ word, words[j]? = some word ∧ Replaced words text j p ∧ q = p + word.length

/-- Position `i` is in one of some spans. -/
def Within (cut : Nat → Nat → Prop) (i : Nat) : Prop := ∃ p q, cut p q ∧ p ≤ i ∧ i < q

/-- A span meets no earlier one just if it has no position of one. -/
theorem not_within_cut_iff {words : List (List α)} {text : List α}
    (hwords : ∀ word ∈ words, word ≠ []) {k p n : Nat} (hn : 0 < n) :
    (∀ i, p ≤ i → i < p + n → ¬Within (Cut words text k) i) ↔
      ∀ j' < k, ∀ p' word', words[j']? = some word' → Replaced words text j' p' →
        p' + word'.length ≤ p ∨ p + n ≤ p' := by
  constructor
  · intro hno j' hj' p' word' hword' hreplaced
    have hpos : 0 < word'.length := length_pos_iff.mpr (hwords _ (mem_of_getElem? hword'))
    by_contra hmeet
    -- The two meet where the later of them begins.
    refine hno (max p p') (by omega) (by omega)
      ⟨p', p' + word'.length, ⟨j', hj', word', hword', hreplaced, rfl⟩, ?_, ?_⟩
    · omega
    · omega
  · rintro hapart i hle hlt ⟨p', q', ⟨j', hj', word', hword', hreplaced, rfl⟩, hle', hlt'⟩
    have := hapart j' hj' p' word' hword' hreplaced
    omega

/-- `Replaced`, told by the positions that are cut out already. -/
theorem replaced_iff {words : List (List α)} {text word : List α}
    (hwords : ∀ word ∈ words, word ≠ []) {k : Nat} (hword : words[k]? = some word) (p : Nat) :
    Replaced words text k p ↔ (word <+: text.drop p ∧
      ∀ i, p ≤ i → i < p + word.length → ¬Within (Cut words text k) i) ∧
        ∀ p' < p, Replaced words text k p' → p' + word.length ≤ p := by
  have hpos : 0 < word.length := length_pos_iff.mpr (hwords _ (mem_of_getElem? hword))
  rw [Replaced, not_within_cut_iff hwords hpos, and_assoc]
  constructor
  · rintro ⟨word', hword', h⟩
    rw [hword, Option.some.injEq] at hword'
    exact hword' ▸ h
  · exact fun h => ⟨word, hword, h⟩

/-- One more word cuts out its own occurrences. -/
theorem cut_succ_iff {words : List (List α)} {text word : List α} {k : Nat}
    (hword : words[k]? = some word) (p q : Nat) :
    Cut words text (k + 1) p q ↔
      Cut words text k p q ∨ Replaced words text k p ∧ q = p + word.length := by
  constructor
  · rintro ⟨j, hj, word', hword', h⟩
    rcases Nat.eq_or_lt_of_le (Nat.le_of_lt_succ hj) with rfl | hlt
    · rw [hword, Option.some.injEq] at hword'
      exact .inr (hword' ▸ h)
    · exact .inl ⟨j, hlt, word', hword', h⟩
  · rintro (⟨j, hj, h⟩ | h)
    · exact ⟨j, Nat.lt_succ_of_lt hj, h⟩
    · exact ⟨k, Nat.lt_succ_self k, word, hword, h⟩

/-! ## What is left of a text -/

section Left

variable {text mark : List α} {rest : List (α × Option Nat)} {gone : Nat → Prop} {p q i : Nat}
  {c d : α}

/-- A character that is kept is left, and what is left behind it. -/
theorem mem_kept_iff (hat : text[p]? = some d) (hkept : ¬gone p)
    (hrest : (c, some i) ∈ rest ↔ p + 1 ≤ i ∧ text[i]? = some c ∧ ¬gone i) :
    (c, some i) ∈ (d, some p) :: rest ↔ p ≤ i ∧ text[i]? = some c ∧ ¬gone i := by
  rw [mem_cons, Prod.mk.injEq, Option.some.injEq, hrest]
  constructor
  · rintro (⟨rfl, rfl⟩ | ⟨hle, hleft⟩)
    · exact ⟨le_rfl, hat, hkept⟩
    · exact ⟨by omega, hleft⟩
  -- The position is the kept one, or a later one
  · rintro ⟨hle, hleft⟩
    rcases Nat.eq_or_lt_of_le hle with rfl | hlt
    · exact .inl ⟨Option.some.inj (hleft.1.symm.trans hat), rfl⟩
    · exact .inr ⟨hlt, hleft⟩

/-- Behind a mark is left what was left behind the span it is in place of. -/
theorem mem_cut_iff (hpq : p < q) (hgone : ∀ i, p ≤ i → i < q → gone i)
    (hrest : (c, some i) ∈ rest ↔ q ≤ i ∧ text[i]? = some c ∧ ¬gone i) :
    (c, some i) ∈ untraced mark ++ rest ↔ p ≤ i ∧ text[i]? = some c ∧ ¬gone i := by
  rw [mem_append, or_iff_right not_mem_untraced, hrest]
  constructor
  · rintro ⟨hle, hleft⟩
    exact ⟨by omega, hleft⟩
  · rintro ⟨hle, hleft⟩
    exact ⟨Nat.le_of_not_lt fun hlt => hleft.2 (hgone i hle hlt), hleft⟩

end Left

/-- The text from position `p` on, where the spans of `cut` have given way to marks. -/
inductive Shows (text mark : List α) (cut : Nat → Nat → Prop) :
    Nat → List (α × Option Nat) → Prop
  | done {p : Nat} : text.length ≤ p → Shows text mark cut p []
  | kept {p : Nat} {c : α} {rest : List (α × Option Nat)} : text[p]? = some c →
      ¬Within cut p → Shows text mark cut (p + 1) rest →
      Shows text mark cut p ((c, some p) :: rest)
  | cut {p q : Nat} {rest : List (α × Option Nat)} : cut p q → p < q → q ≤ text.length →
      Shows text mark cut q rest → Shows text mark cut p (untraced mark ++ rest)

/-- At first all is shown. -/
theorem shows_trace {text mark : List α} {cut : Nat → Nat → Prop} (hcut : ∀ p q, ¬cut p q) :
    Shows text mark cut 0 (trace text) := by
  refine trace_induction (.done le_rfl) fun p c rest hat hrest => .kept hat ?_ hrest
  rintro ⟨a, b, hab, -⟩
  exact hcut a b hab

/-- A shown text has the characters that are in no span. -/
theorem Shows.mem_iff {text mark : List α} {cut : Nat → Nat → Prop} {p : Nat}
    {shown : List (α × Option Nat)} (h : Shows text mark cut p shown) {c : α} {i : Nat} :
    (c, some i) ∈ shown ↔ p ≤ i ∧ text[i]? = some c ∧ ¬Within cut i := by
  -- Induction on how the text is shown
  induction h with
  | @done p hp =>
    constructor
    · intro h
      cases h
    · rintro ⟨hle, hat, -⟩
      rw [getElem?_eq_none (by omega)] at hat
      cases hat
  | @kept p d rest hat hkept _ ih => exact mem_kept_iff hat hkept ih
  | @cut p q rest hcut hpq _ _ ih =>
    exact mem_cut_iff hpq (fun j hle hlt => ⟨p, q, hcut, hle, hlt⟩) ih

/-- A shown character that is not of the text is of the mark. -/
theorem Shows.mem_mark {text mark : List α} {cut : Nat → Nat → Prop} {p : Nat}
    {shown : List (α × Option Nat)} (h : Shows text mark cut p shown) {c : α}
    (hc : (c, none) ∈ shown) : c ∈ mark := by
  induction h with
  | done => exact nomatch hc
  | kept _ _ _ ih =>
    rw [mem_cons, Prod.mk.injEq] at hc
    exact ih (hc.resolve_left fun h => nomatch h.2)
  | cut _ _ _ _ ih =>
    rcases mem_append.mp hc with hc | hc
    · obtain ⟨d, hd, heq⟩ := mem_map.mp hc
      exact (Prod.mk.inj heq).1 ▸ hd
    · exact ih hc

/-- No occurrence of a word has a character of a mark. -/
def Apart (word : List α) (shown : List (α × Option Nat)) : Prop :=
  ∀ x, word <+: (shown.drop x).map Prod.fst →
    ∀ c ∈ (shown.drop x).take word.length, c.2 ≠ none

/-- Marks that are apart stay apart in a rest. -/
theorem Apart.drop {word : List α} {shown : List (α × Option Nat)} (h : Apart word shown)
    (n : Nat) : Apart word (shown.drop n) := by
  intro x
  rw [drop_drop]
  exact h (n + x)

/-- A word that shares no character with the mark is `Apart` from its marks. -/
theorem Shows.apart_of_disjoint {text mark word : List α} {cut : Nat → Nat → Prop} {p : Nat}
    {shown : List (α × Option Nat)} (h : Shows text mark cut p shown)
    (hword : ∀ c ∈ word, c ∉ mark) : Apart word shown := by
  rintro x hprefix ⟨c, i⟩ hmem rfl
  have hc : c ∈ word := by
    rw [prefix_iff_eq_take.mp hprefix, ← map_take]
    exact mem_map.mpr ⟨(c, none), hmem, rfl⟩
  exact hword c hc (h.mem_mark (mem_of_mem_drop (mem_of_mem_take hmem)))

/-- A word that is `Apart` from the marks begins the shown text just if it begins the text there and
    is whole, and what is shown behind it is laid out from its end. -/
theorem Shows.prefix_iff {text mark : List α} {cut : Nat → Nat → Prop} (hmark : mark ≠ [])
    {word : List α} {p : Nat} {shown : List (α × Option Nat)} (h : Shows text mark cut p shown)
    (hapart : word <+: shown.map Prod.fst → ∀ c ∈ shown.take word.length, c.2 ≠ none) :
    (word <+: shown.map Prod.fst ↔ word <+: text.drop p ∧
      ∀ i, p ≤ i → i < p + word.length → ¬Within cut i) ∧
    (word <+: shown.map Prod.fst →
      Shows text mark cut (p + word.length) (shown.drop word.length)) := by
  -- Induction on the word, one shown character at a time
  induction word generalizing p shown with
  | nil =>
    constructor
    · simp
      omega
    · exact fun _ => h
  | cons d word ih =>
    cases h with
    | done hp =>
      rw [drop_eq_nil_of_le hp]
      simp
    | @kept _ c rest hat hkept hrest =>
      have hdrop : text.drop p = c :: text.drop (p + 1) := by
        obtain ⟨hlt, rfl⟩ := getElem?_eq_some_iff.mp hat
        exact drop_eq_getElem_cons hlt
      rw [map_cons, cons_prefix_cons, hdrop, cons_prefix_cons, length_cons]
      by_cases hdc : d = c
      · subst hdc
        have hrest' := ih hrest fun hword e he =>
          hapart (cons_prefix_cons.mpr ⟨rfl, hword⟩) e (mem_cons_of_mem _ he)
        obtain ⟨hiff, hshows⟩ := hrest'
        rw [hiff]
        constructor
        · constructor
          · rintro ⟨-, hword, hall⟩
            refine ⟨⟨rfl, hword⟩, fun i hle hlt => ?_⟩
            rcases Nat.eq_or_lt_of_le hle with rfl | hlt'
            · exact hkept
            · exact hall i hlt' (by omega)
          · rintro ⟨⟨-, hword⟩, hall⟩
            exact ⟨rfl, hword, fun i hle hlt => hall i (by omega) (by omega)⟩
        · rintro ⟨-, hword⟩
          rw [drop_succ_cons, Nat.add_comm word.length, ← Nat.add_assoc]
          exact hshows (hiff.mpr hword)
      · simp [hdc]
    | @cut _ q rest hcut hpq hq hrest =>
      -- The word would begin with a character of the mark
      have hno : ¬d :: word <+: (untraced mark ++ rest).map Prod.fst := by
        intro hfront
        obtain ⟨m, mark, rfl⟩ := exists_cons_of_ne_nil hmark
        exact hapart hfront (m, none) (by simp [untraced]) rfl
      refine ⟨⟨fun h => (hno h).elim, ?_⟩, fun h => (hno h).elim⟩
      rintro ⟨-, hall⟩
      exact (hall p le_rfl (by simp) ⟨p, q, hcut, le_rfl, hpq⟩).elim

/-! ## Replacing one word after another -/

variable [DecidableEq α]

/-- `replaceFrom`, traced. -/
def replaceTracedFrom (word mark : List α) :
    Nat → List (α × Option Nat) → List (α × Option Nat)
  | _, [] => []
  | skip + 1, _ :: text => replaceTracedFrom word mark skip text
  | 0, c :: text =>
    if word <+: (c :: text).map Prod.fst then
      untraced mark ++ replaceTracedFrom word mark (word.length - 1) text
    else c :: replaceTracedFrom word mark 0 text

/-- `replaceAll`, traced. -/
def replaceTraced (word mark : List α) (text : List (α × Option Nat)) : List (α × Option Nat) :=
  replaceTracedFrom word mark 0 text

/-- Tracing does not change what is written. -/
theorem map_fst_replaceTracedFrom (word mark : List α) (n : Nat)
    (text : List (α × Option Nat)) :
    (replaceTracedFrom word mark n text).map Prod.fst =
      replaceFrom word mark n (text.map Prod.fst) := by
  induction text generalizing n with
  | nil => rfl
  | cons c text ih =>
    cases n with
    | succ n => exact ih n
    | zero =>
      rw [replaceTracedFrom, map_cons, replaceFrom, ← map_cons]
      split
      · rw [map_append, map_fst_untraced, ih]
      · rw [map_cons, ih]

/-- Tracing does not change what is written. -/
theorem map_fst_replaceTraced (word mark : List α) (text : List (α × Option Nat)) :
    (replaceTraced word mark text).map Prod.fst = replaceAll word mark (text.map Prod.fst) :=
  map_fst_replaceTracedFrom word mark 0 text

/-- `replaceTracedFrom` passes over what it has to. -/
theorem replaceTracedFrom_skip (word mark : List α) (n : Nat) (text : List (α × Option Nat)) :
    replaceTracedFrom word mark n text = replaceTracedFrom word mark 0 (text.drop n) := by
  induction text generalizing n with
  | nil => cases n <;> simp [replaceTracedFrom]
  | cons c text ih =>
    cases n with
    | zero => rfl
    | succ n => rw [replaceTracedFrom, ih, drop_succ_cons]

/-- `replaceTraced` passes over a mark that the word is `Apart` from. -/
theorem replaceTraced_untraced_append {word mark : List α} {text : List (α × Option Nat)}
    (hword : word ≠ []) (hapart : Apart word (untraced mark ++ text)) :
    replaceTraced word mark (untraced mark ++ text) =
      untraced mark ++ replaceTraced word mark text := by
  have hpart : ∀ part : List α, Apart word (untraced part ++ text) →
      replaceTraced word mark (untraced part ++ text) =
        untraced part ++ replaceTraced word mark text := by
    intro part hapart
    induction part with
    | nil => rfl
    | cons c part ih =>
      have hno : ¬word <+: (untraced (c :: part) ++ text).map Prod.fst := by
        intro hfront
        refine hapart 0 hfront (c, none) ?_ rfl
        obtain ⟨d, word, rfl⟩ := exists_cons_of_ne_nil hword
        simp [untraced]
      have hrest := ih (hapart.drop 1)
      rw [replaceTraced, untraced, map_cons, cons_append, replaceTracedFrom, if_neg]
      · exact congrArg ((c, none) :: ·) hrest
      · exact hno
  exact hpart mark hapart

/-- One word after others: what it takes out are its occurrences that are whole, but for those that
    begin in one it has taken out. -/
theorem Shows.replace {text mark : List α} {cut : Nat → Nat → Prop} {fresh : Nat → Prop}
    {word : List α} (hmark : mark ≠ []) (hword : word ≠ [])
    (hfresh : ∀ p, fresh p ↔ (word <+: text.drop p ∧
      ∀ i, p ≤ i → i < p + word.length → ¬Within cut i) ∧
        ∀ p' < p, fresh p' → p' + word.length ≤ p)
    {p : Nat} {shown : List (α × Option Nat)} (h : Shows text mark cut p shown)
    (hapart : Apart word shown) (hpast : ∀ p' < p, fresh p' → p' + word.length ≤ p) :
    Shows text mark (fun p q => cut p q ∨ fresh p ∧ q = p + word.length) p
      (replaceTraced word mark shown) := by
  have hpos : 0 < word.length := length_pos_iff.mpr hword
  -- Induction on what is left of the text, since an occurrence is skipped at once
  induction hn : text.length - p using Nat.strong_induction_on generalizing p shown with
  | _ n ih =>
    have hfront := h.prefix_iff hmark (hapart 0)
    cases h with
    | done hp => exact .done hp
    | @kept _ c rest hat hkept hrest =>
      have hlt := (getElem?_eq_some_iff.mp hat).1
      obtain ⟨hiff, hshows⟩ := hfront
      have hhere : word <+: ((c, some p) :: rest).map Prod.fst ↔ fresh p := by
        rw [hfresh p, and_iff_left hpast, hiff]
      rw [replaceTraced, replaceTracedFrom]
      split
      · next hmatch =>
        have hfreshp := hhere.mp hmatch
        -- The occurrence gives way to a mark, and the next one begins behind it
        have hdrop : rest.drop (word.length - 1) =
            (((c, some p) :: rest).drop word.length) := by
          obtain ⟨n, hn⟩ := Nat.exists_eq_succ_of_ne_zero hpos.ne'
          rw [hn, Nat.succ_sub_one, drop_succ_cons]
        have hlength : p + word.length ≤ text.length := by
          have := ((hfresh p).mp hfreshp).1.1.length_le
          rw [length_drop] at this
          omega
        rw [replaceTracedFrom_skip, hdrop]
        refine .cut (.inr ⟨hfreshp, rfl⟩) (by omega) hlength ?_
        refine ih _ (by omega) (hshows hmatch) (hapart.drop word.length) ?_ rfl
        intro p' hlt' hp'
        rcases Nat.lt_trichotomy p' p with hbefore | rfl | hafter
        · have := hpast p' hbefore hp'
          omega
        · exact le_rfl
        · have := ((hfresh p').mp hp').2 p hafter hfreshp
          omega
      · next hmatch =>
        -- No occurrence begins here, so the character is kept
        have hnot := mt hhere.mpr hmatch
        have hpast' : ∀ p' < p + 1, fresh p' → p' + word.length ≤ p := by
          intro p' hlt hp'
          rcases Nat.eq_or_lt_of_le (Nat.le_of_lt_succ hlt) with rfl | hbefore
          · exact (hnot hp').elim
          · exact hpast p' hbefore hp'
        refine .kept hat ?_ (ih _ (by omega) hrest (hapart.drop 1)
          (fun p' hlt hp' => Nat.le_succ_of_le (hpast' p' hlt hp')) rfl)
        rintro ⟨a, b, hcut | ⟨ha, rfl⟩, hle, hlt⟩
        · exact hkept ⟨a, b, hcut, hle, hlt⟩
        · have := hpast' a (by omega) ha
          omega
    | @cut _ q rest hcut hpq hq hrest =>
      have hpast' : ∀ p' < q, fresh p' → p' + word.length ≤ q := by
        intro p' hlt hp'
        by_cases hbefore : p' < p
        · exact (hpast p' hbefore hp').trans hpq.le
        · -- An occurrence that is whole does not begin in a span.
          refine (((hfresh p').mp hp').1.2 p' le_rfl (by omega) ?_).elim
          exact ⟨p, q, hcut, by omega, hlt⟩
      rw [replaceTraced_untraced_append hword hapart]
      refine .cut (.inl hcut) hpq hq (ih _ (by omega) hrest ?_ hpast' rfl)
      have hbehind := hapart.drop (untraced mark).length
      rwa [drop_left] at hbehind

/-- Replacing words one after another takes out their replaced occurrences, where each word is
    `Apart` from the marks when its turn comes. -/
theorem shows_foldl {words : List (List α)} {text mark : List α} (hmark : mark ≠ [])
    (hwords : ∀ word ∈ words, word ≠ [])
    (hapart : ∀ k word, words[k]? = some word →
      ∀ shown, Shows text mark (Cut words text k) 0 shown → Apart word shown)
    {k : Nat} (hk : k ≤ words.length) :
    Shows text mark (Cut words text k) 0
      ((words.take k).foldl (fun shown word => replaceTraced word mark shown) (trace text)) := by
  induction k with
  | zero =>
    apply shows_trace
    rintro p q ⟨j, hj, -⟩
    exact nomatch hj
  | succ k ih =>
    have hword : words[k]? = some words[k] := getElem?_eq_getElem hk
    have hcut : Cut words text (k + 1) = fun p q => Cut words text k p q ∨
        Replaced words text k p ∧ q = p + words[k].length := by
      funext p q
      exact propext (cut_succ_iff hword p q)
    have hbefore := ih (by omega)
    rw [take_add_one, hword, Option.toList_some, foldl_append, foldl_cons, foldl_nil, hcut]
    exact hbefore.replace hmark (hwords _ (getElem_mem hk)) (replaced_iff hwords hword)
      (hapart k _ hword _ hbefore) (fun p' hlt => nomatch hlt)

/-- Replacing words one after another leaves the characters that are in no replaced occurrence. -/
theorem mem_foldl_replaceTraced {words : List (List α)} {text mark : List α} (hmark : mark ≠ [])
    (hwords : ∀ word ∈ words, word ≠ [])
    (hapart : ∀ k word, words[k]? = some word →
      ∀ shown, Shows text mark (Cut words text k) 0 shown → Apart word shown)
    {c : α} {i : Nat} :
    (c, some i) ∈ words.foldl (fun shown word => replaceTraced word mark shown) (trace text) ↔
      text[i]? = some c ∧ ¬Within (Cut words text words.length) i := by
  have hshows := shows_foldl hmark hwords hapart le_rfl
  rw [take_length] at hshows
  rw [hshows.mem_iff, and_iff_right (Nat.zero_le i)]

end List

/-! ## Replacing what an expression matches -/

namespace Regex

variable {α : Type}

/-- `tries` gives the ends of the spans. -/
theorem mem_tries_iff {word : α → Bool} {text : List α} {r : Regex α} {i j : Nat} :
    j ∈ tries word text r i ↔ Spans (atBoundary word text · = true) text r i j := by
  rw [← mem_ends_iff]
  induction r generalizing i j with
  | empty => rfl
  | one inClass => rfl
  | seq r t ihr iht => simp only [tries, ends, List.mem_flatMap, ihr, iht]
  | alt r t ihr iht => simp only [tries, ends, List.mem_append, ihr, iht]
  | many inClass => simp only [tries, ends, List.mem_reverse]
  | boundary => rfl

/-- A match ends where it begins or later. -/
theorem Spans.le {cut : Nat → Prop} {text : List α} {r : Regex α} {i j : Nat}
    (h : Spans cut text r i j) : i ≤ j := by
  induction r generalizing i j with
  | empty => exact Nat.le_of_eq h
  | one inClass => exact h.2 ▸ Nat.le_succ i
  | seq r t ihr iht =>
    obtain ⟨k, hr, ht⟩ := h
    exact (ihr hr).trans (iht ht)
  | alt r t ihr iht => exact h.elim ihr iht
  | many inClass => exact h.1
  | boundary => exact Nat.le_of_eq h.1

/-- The classes of an expression. -/
def classes : Regex α → List (α → Bool)
  | empty => []
  | one inClass => [inClass]
  | seq r t => classes r ++ classes t
  | alt r t => classes r ++ classes t
  | many inClass => [inClass]
  | boundary => []

/-- Every character of a match is in a class of the expression. -/
theorem Spans.mem_classes {cut : Nat → Prop} {text : List α} {r : Regex α} {i j x : Nat}
    (h : Spans cut text r i j) (hi : i ≤ x) (hj : x < j) :
    ∃ c, text[x]? = some c ∧ ∃ inClass ∈ classes r, inClass c = true := by
  -- Induction on the expression
  induction r generalizing i j with
  | empty =>
    have hij : i = j := h
    omega
  | one inClass =>
    obtain ⟨⟨c, hc, hclass⟩, hj'⟩ := h
    obtain rfl : x = i := by omega
    exact ⟨c, hc, inClass, List.mem_singleton_self _, hclass⟩
  | seq r t ihr iht =>
    obtain ⟨k, hr, ht⟩ := h
    rcases Nat.lt_or_ge x k with hlt | hge
    · obtain ⟨c, hc, inClass, hmem, hclass⟩ := ihr hr hi hlt
      exact ⟨c, hc, inClass, List.mem_append_left _ hmem, hclass⟩
    · obtain ⟨c, hc, inClass, hmem, hclass⟩ := iht ht hge hj
      exact ⟨c, hc, inClass, List.mem_append_right _ hmem, hclass⟩
  | alt r t ihr iht =>
    cases h with
    | inl h =>
      obtain ⟨c, hc, inClass, hmem, hclass⟩ := ihr h hi hj
      exact ⟨c, hc, inClass, List.mem_append_left _ hmem, hclass⟩
    | inr h =>
      obtain ⟨c, hc, inClass, hmem, hclass⟩ := iht h hi hj
      exact ⟨c, hc, inClass, List.mem_append_right _ hmem, hclass⟩
  | many inClass =>
    obtain ⟨c, hc, hclass⟩ := h.2 x hi hj
    exact ⟨c, hc, inClass, List.mem_singleton_self _, hclass⟩
  | boundary =>
    have hij : i = j := h.1
    omega

/-- A sequence of single classes spans as many characters as it has classes, each of its own. -/
theorem spans_foldr_one {β : Type} {cut : Nat → Prop} {text : List α} {f : β → α → Bool}
    {letters : List β} {i j : Nat} :
    Spans cut text (letters.foldr (fun d rest => seq (one (f d)) rest) empty) i j ↔
      j = i + letters.length ∧
        ∀ n d, letters[n]? = some d → ∃ c, text[i + n]? = some c ∧ f d c = true := by
  induction letters generalizing i with
  | nil =>
    constructor
    · intro h
      exact ⟨Eq.symm h, fun n d hd => nomatch hd⟩
    · rintro ⟨rfl, -⟩
      exact rfl
  | cons d letters ih =>
    constructor
    · rintro ⟨k, ⟨hd, rfl⟩, hrest⟩
      obtain ⟨rfl, hall⟩ := ih.mp hrest
      refine ⟨by rw [List.length_cons]; omega, fun n e he => ?_⟩
      cases n with
      | zero =>
        obtain rfl : d = e := Option.some.inj he
        exact hd
      | succ n =>
        have hn := hall n e he
        rwa [Nat.add_assoc, Nat.add_comm 1 n] at hn
    · rintro ⟨rfl, hall⟩
      refine ⟨i + 1, ⟨hall 0 d rfl, rfl⟩, ih.mpr ⟨by rw [List.length_cons]; omega, ?_⟩⟩
      intro n e he
      have hn := hall (n + 1) e he
      rwa [Nat.add_comm n 1, ← Nat.add_assoc] at hn

/-- A class that is repeated at least `n` times matches the runs of that length or longer. -/
theorem spans_atLeast {cut : Nat → Prop} {text : List α} {inClass : α → Bool} {n i j : Nat} :
    Spans cut text (atLeast n inClass) i j ↔ i + n ≤ j ∧
      ∀ k, i ≤ k → k < j → ∃ c, text[k]? = some c ∧ inClass c = true := by
  induction n generalizing i with
  | zero => exact Iff.rfl
  | succ n ih =>
    constructor
    · rintro ⟨k, ⟨hfirst, rfl⟩, hrest⟩
      obtain ⟨hle, hall⟩ := ih.mp hrest
      refine ⟨by omega, fun k hk hkj => ?_⟩
      rcases Nat.eq_or_lt_of_le hk with rfl | hlt
      · exact hfirst
      · exact hall k hlt hkj
    · rintro ⟨hle, hall⟩
      exact ⟨i + 1, ⟨hall i le_rfl (by omega), rfl⟩,
        ih.mpr ⟨by omega, fun k hk hkj => hall k (by omega) hkj⟩⟩

/-- What comes first of all comes first of one. -/
theorem exists_head?_of_flatMap {β γ : Type} {f : β → List γ} {xs : List β} {y : γ}
    (h : (xs.flatMap f).head? = some y) : ∃ x ∈ xs, (f x).head? = some y := by
  rw [List.head?_flatMap] at h
  exact List.exists_of_findSome?_eq_some h

/-- The first way in which `atLeast` matches goes on for as long as the class does. -/
theorem classAt_of_head?_atLeast {word inClass : α → Bool} {text : List α} {n i j : Nat}
    (h : (tries word text (atLeast n inClass) i).head? = some j) :
    classAt inClass text j = false := by
  induction n generalizing i with
  | zero =>
    have hj : i + ((text.drop i).takeWhile inClass).length = j := by
      simpa [atLeast, tries, List.range_succ] using h
    rw [← Bool.not_eq_true, classAt_iff]
    rintro ⟨c, hc, hclass⟩
    -- One more character would have been taken.
    have hmore : ((text.drop i).takeWhile inClass).length + 1 ≤
        ((text.drop i).takeWhile inClass).length := by
      rw [le_takeWhile_iff]
      intro k hk
      rcases Nat.eq_or_lt_of_le (Nat.le_of_lt_succ hk) with rfl | hlt
      · exact ⟨c, by rw [List.getElem?_drop, hj, hc], hclass⟩
      · exact le_takeWhile_iff.mp le_rfl k hlt
    omega
  | succ n ih =>
    obtain ⟨k, -, hk⟩ := exists_head?_of_flatMap h
    exact ih hk

namespace Rewrite

/-- `subFrom`, traced. -/
def subTracedFrom (rule : Rewrite α) (word : α → Bool) (text : List (α × Option Nat)) :
    Nat → Nat → List (α × Option Nat)
  | 0, i => text.drop i
  | n + 1, i =>
    match rule.find word (text.map Prod.fst) i with
    | some (j, k, l) =>
      (text.take j).drop i ++ (List.untraced rule.mark ++
        ((text.take l).drop k ++ subTracedFrom rule word text n l))
    | none => (text.take (i + 1)).drop i ++ subTracedFrom rule word text n (i + 1)

/-- `sub`, traced. -/
def subTraced (rule : Rewrite α) (word : α → Bool) (text : List (α × Option Nat)) :
    List (α × Option Nat) :=
  rule.subTracedFrom word text text.length 0

variable {rule : Rewrite α} {word : α → Bool} {text : List (α × Option Nat)}

/-- Forgetting the positions gives `subFrom`. -/
theorem map_fst_subTracedFrom (n i : Nat) :
    (rule.subTracedFrom word text n i).map Prod.fst =
      rule.subFrom word (text.map Prod.fst) n i := by
  induction n generalizing i with
  | zero => exact List.map_drop
  | succ n ih =>
    rw [subTracedFrom, subFrom]
    cases rule.find word (text.map Prod.fst) i with
    | some found =>
      simp only [List.map_append, List.map_drop, List.map_take, List.map_fst_untraced, ih]
    | none => simp only [List.map_append, List.map_drop, List.map_take, ih]

/-- Tracing does not change what is written. -/
theorem map_fst_subTraced :
    (rule.subTraced word text).map Prod.fst = rule.sub word (text.map Prod.fst) := by
  rw [subTraced, sub, map_fst_subTracedFrom, List.length_map]

/-- What `find` gives are spans of the three parts. -/
theorem spans_of_find {i j k l : Nat} {text : List α} (h : rule.find word text i = some (j, k, l)) :
    Spans (atBoundary word text · = true) text rule.kept i j ∧
      Spans (atBoundary word text · = true) text rule.dropped j k ∧
        Spans (atBoundary word text · = true) text rule.after k l := by
  have hmem := List.mem_of_mem_head? h
  simp only [List.mem_flatMap, List.mem_map, Prod.mk.injEq, mem_tries_iff] at hmem
  obtain ⟨j', hj, k', hk, l', hl, rfl, rfl, rfl⟩ := hmem
  exact ⟨hj, hk, hl⟩

/-- What stands between two positions is in the slice. -/
theorem mem_slice {a b x : Nat} {c : α × Option Nat} (hat : text[x]? = some c) (ha : a ≤ x)
    (hb : x < b) : c ∈ (text.take b).drop a := by
  refine List.mem_iff_getElem?.mpr ⟨x - a, ?_⟩
  rw [List.getElem?_drop, Nat.add_sub_cancel' ha, List.getElem?_take_of_lt hb, hat]

/-- What is in a slice of the text stands between its ends. -/
theorem exists_of_mem_slice {a b : Nat} {c : α × Option Nat} (h : c ∈ (text.take b).drop a) :
    ∃ x, text[x]? = some c ∧ a ≤ x ∧ x < b := by
  obtain ⟨n, hn⟩ := List.mem_iff_getElem?.mp h
  rw [List.getElem?_drop, List.getElem?_take] at hn
  split at hn
  · exact ⟨a + n, hn, Nat.le_add_right a n, by assumption⟩
  · exact nomatch hn

/-- `subTracedFrom` gives characters of the text and of its mark only. -/
theorem exists_of_mem_subTracedFrom (n : Nat) {i : Nat} {c : α × Option Nat}
    (h : c ∈ rule.subTracedFrom word text n i) :
    c ∈ List.untraced rule.mark ∨ ∃ x, text[x]? = some c ∧ i ≤ x := by
  induction n generalizing i with
  | zero =>
    obtain ⟨y, hy⟩ := List.mem_iff_getElem?.mp h
    rw [subTracedFrom, List.getElem?_drop] at hy
    exact .inr ⟨i + y, hy, Nat.le_add_right i y⟩
  | succ n ih =>
    rw [subTracedFrom] at h
    split at h
    · rename_i j k l hfind
      obtain ⟨hij, hjk, hkl⟩ := find_le hfind
      rcases List.mem_append.mp h with h | h
      · obtain ⟨x, hx, hle, -⟩ := exists_of_mem_slice h
        exact .inr ⟨x, hx, hle⟩
      · rcases List.mem_append.mp h with h | h
        · exact .inl h
        · rcases List.mem_append.mp h with h | h
          · obtain ⟨x, hx, hle, -⟩ := exists_of_mem_slice h
            exact .inr ⟨x, hx, by omega⟩
          · exact (ih h).imp_right fun ⟨x, hx, hle⟩ => ⟨x, hx, by omega⟩
    · rcases List.mem_append.mp h with h | h
      · obtain ⟨x, hx, hle, -⟩ := exists_of_mem_slice h
        exact .inr ⟨x, hx, hle⟩
      · exact (ih h).imp_right fun ⟨x, hx, hle⟩ => ⟨x, hx, by omega⟩

/-- Where there are spans, `find` gives some. -/
theorem find_isSome {i j k l : Nat} {text : List α}
    (hkept : Spans (atBoundary word text · = true) text rule.kept i j)
    (hdropped : Spans (atBoundary word text · = true) text rule.dropped j k)
    (hafter : Spans (atBoundary word text · = true) text rule.after k l) :
    ∃ found, rule.find word text i = some found := by
  rw [← Option.isSome_iff_exists, find, List.isSome_head?, ← List.length_pos_iff,
    List.length_pos_iff_exists_mem]
  refine ⟨(j, k, l), ?_⟩
  simp only [List.mem_flatMap, List.mem_map, mem_tries_iff]
  exact ⟨j, hkept, k, hdropped, l, hafter, rfl⟩

/-- A traced character that is left was in the text. -/
theorem mem_of_mem_subTraced {c : α} {i : Nat} (h : (c, some i) ∈ rule.subTraced word text) :
    (c, some i) ∈ text := by
  rcases exists_of_mem_subTracedFrom _ h with hmark | ⟨x, hx, -⟩
  · exact (List.not_mem_untraced hmark).elim
  · exact List.mem_of_getElem? hx

end Rewrite

end Regex
