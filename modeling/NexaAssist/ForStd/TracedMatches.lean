import NexaAssist.ForStd.TracedSubstitution

/-!
# What the matches of an expression take out

`Rewrite.sub` makes the leftmost matches, so a match is made unless it begins in one made before it:
`Leftmost`. Where several rules run one after another, the text that a rule sees is the input with
marks in place of some of its parts, `Laid`. A run of its characters that has neither end of a mark
is a run of the input, which is how a match in the one is a match in the other.

## Key results

- `Regex.Rewrite.mem_subTraced_iff`: what a rule leaves is what no made match drops
- `List.Laid.subTraced`: what it leaves is the input again, with more of it cut out
- `List.Laid.forward`, `List.Laid.back`: runs of characters without an end of a mark
- `Leftmost.transfer`: matches that correspond are made alike
-/

/-! ## The matches that are made -/

/-- The match from `i` to `l` is made: it does not begin in one that was made before it. -/
def Leftmost (found : Nat → Nat → Prop) (i l : Nat) : Prop :=
  found i l ∧ ∀ i' < i, ∀ l', Leftmost found i' l' → l' ≤ i
termination_by i

namespace Leftmost

variable {found found' : Nat → Nat → Prop} {i l : Nat}

/-- `Leftmost`, unfolded once. -/
theorem iff : Leftmost found i l ↔ found i l ∧ ∀ i' < i, ∀ l', Leftmost found i' l' → l' ≤ i := by
  rw [Leftmost]

/-- What is made is found. -/
theorem isFound (h : Leftmost found i l) : found i l := (iff.mp h).1

/-- A match that is made ends before the next one begins. -/
theorem le (h : Leftmost found i l) {i' l' : Nat} (hlt : i' < i) (h' : Leftmost found i' l') :
    l' ≤ i := (iff.mp h).2 i' hlt l' h'

/-- A match either was made or begins in one that was. -/
theorem or_within (h : found i l) :
    Leftmost found i l ∨ ∃ i' < i, ∃ l', Leftmost found i' l' ∧ i < l' := by
  by_cases hmade : Leftmost found i l
  · exact .inl hmade
  · right
    by_contra hnone
    refine hmade (iff.mpr ⟨h, fun i' hlt l' h' => ?_⟩)
    by_contra hlate
    exact hnone ⟨i', hlt, l', h', by omega⟩

/-- Two families of matches that correspond, in order and in overlap, are made alike. -/
theorem transfer (same : Nat → Nat → Nat → Nat → Prop)
    (hto : ∀ i l, found i l → ∃ x e, same i l x e) (hfrom : ∀ x e, found' x e → ∃ i l, same i l x e)
    (hsound : ∀ i l x e, same i l x e → found i l ∧ found' x e)
    (horder : ∀ i l x e i' l' x' e', same i l x e → same i' l' x' e' →
      (i < i' ↔ x < x') ∧ (l ≤ i' ↔ e ≤ x')) :
    ∀ i l x e, same i l x e → (Leftmost found i l ↔ Leftmost found' x e) := by
  intro i
  induction i using Nat.strong_induction_on with
  | _ i ih =>
    intro l x e h
    rw [iff, iff, and_iff_right (hsound i l x e h).1, and_iff_right (hsound i l x e h).2]
    constructor
    · intro hleft x' hlt e' hmade
      obtain ⟨i', l', h'⟩ := hfrom x' e' hmade.isFound
      have hbefore := (horder i' l' x' e' i l x e h' h).1.mpr hlt
      exact (horder i' l' x' e' i l x e h' h).2.mp
        (hleft i' hbefore l' ((ih i' hbefore l' x' e' h').mpr hmade))
    · intro hleft i' hlt l' hmade
      obtain ⟨x', e', h'⟩ := hto i' l' hmade.isFound
      have hbefore := (horder i' l' x' e' i l x e h' h).1.mp hlt
      exact (horder i' l' x' e' i l x e h' h).2.mpr
        (hleft x' hbefore e' ((ih i' hlt l' x' e' h').mp hmade))

end Leftmost

/-! ## A text with marks in place of some of its parts -/

namespace List

variable {α : Type}

/-- Position `x` is in a part that has given way to a mark. -/
def Covers (cut : Nat → Nat → List α → Prop) (x : Nat) : Prop :=
  ∃ p q mark, cut p q mark ∧ p ≤ x ∧ x < q

/-- The text from position `p` on, where each part of `cut` has given way to its mark. -/
inductive Laid (text : List α) (cut : Nat → Nat → List α → Prop) :
    Nat → List (α × Option Nat) → Prop
  | done : Laid text cut text.length []
  | kept {p : Nat} {c : α} {rest : List (α × Option Nat)} : text[p]? = some c →
      ¬Covers cut p → Laid text cut (p + 1) rest → Laid text cut p ((c, some p) :: rest)
  | cut {p q : Nat} {mark : List α} {rest : List (α × Option Nat)} : cut p q mark →
      mark ≠ [] → p < q → Laid text cut q rest → Laid text cut p (untraced mark ++ rest)

/-- A mark has its characters, without positions. -/
theorem getElem?_untraced {mark : List α} {y : Nat} :
    (untraced mark)[y]? = mark[y]?.map fun c => (c, none) := by
  simp [untraced]

/-- `untraced` keeps the length of a mark. -/
@[simp] theorem length_untraced (mark : List α) : (untraced mark).length = mark.length := by
  simp [untraced]

/-- A `drop` that goes past a mark drops from what is behind it. -/
theorem drop_untraced_append {mark : List α} {rest : List (α × Option Nat)} {n : Nat} :
    (untraced mark ++ rest).drop (mark.length + n) = rest.drop n := by
  rw [drop_append, length_untraced, drop_eq_nil_of_le (by simp), nil_append,
    Nat.add_sub_cancel_left]

/-- A `take` that goes past a mark takes from what is behind it. -/
theorem take_untraced_append {mark : List α} {rest : List (α × Option Nat)} {n : Nat} :
    (untraced mark ++ rest).take (mark.length + n) = untraced mark ++ rest.take n := by
  rw [take_append, length_untraced, take_of_length_le (by simp), Nat.add_sub_cancel_left]

/-- A traced character behind a mark has its place behind the mark's length. -/
theorem getElem?_untraced_append {mark : List α} {rest : List (α × Option Nat)} {y x : Nat} {c : α}
    (h : (untraced mark ++ rest)[y]? = some (c, some x)) :
    mark.length ≤ y ∧ rest[y - mark.length]? = some (c, some x) := by
  by_cases hlt : y < mark.length
  · rw [getElem?_append_left (by simpa using hlt), getElem?_untraced] at h
    obtain ⟨d, -, hd⟩ := Option.map_eq_some_iff.mp h
    cases (Prod.mk.inj hd).2
  · rw [getElem?_append_right (by simpa using hlt), length_untraced] at h
    exact ⟨by omega, h⟩

/-- What is behind a mark is found past its length. -/
theorem getElem?_append_untraced {mark : List α} {rest : List (α × Option Nat)} {y : Nat} :
    (untraced mark ++ rest)[mark.length + y]? = rest[y]? := by
  rw [getElem?_append_right (by simp), length_untraced, Nat.add_sub_cancel_left]

/-- At first nothing has given way. -/
theorem laid_trace {text : List α} {cut : Nat → Nat → List α → Prop}
    (hcut : ∀ p q mark, ¬cut p q mark) : Laid text cut 0 (trace text) := by
  refine trace_induction .done fun p c rest hat hrest => .kept hat ?_ hrest
  rintro ⟨a, b, mark, hab, -⟩
  exact hcut a b mark hab

namespace Laid

variable {text : List α} {cut : Nat → Nat → List α → Prop} {p : Nat}
  {shown : List (α × Option Nat)}

/-- A shown text has the characters of the input that no cut covers. -/
theorem mem_iff (h : Laid text cut p shown) {c : α} {x : Nat} :
    (c, some x) ∈ shown ↔ p ≤ x ∧ text[x]? = some c ∧ ¬Covers cut x := by
  -- Induction on how the text was laid out
  induction h with
  | done =>
    constructor
    · intro h
      cases h
    · rintro ⟨hle, hat, -⟩
      rw [getElem?_eq_none hle] at hat
      cases hat
  | @kept p d rest hat hkept _ ih => exact mem_kept_iff hat hkept ih
  | @cut p q mark rest hcut _ hpq _ ih =>
    exact mem_cut_iff hpq (fun j hle hlt => ⟨p, q, mark, hcut, hle, hlt⟩) ih

/-- A shown character that is not of the input is one of a mark. -/
theorem of_untraced (h : Laid text cut p shown) {c : α} (hc : (c, none) ∈ shown) :
    ∃ a b mark, cut a b mark ∧ c ∈ mark := by
  induction h with
  | done => cases hc
  | kept _ _ _ ih =>
    rw [mem_cons, Prod.mk.injEq] at hc
    rcases hc with ⟨-, hnone⟩ | hrest
    · cases hnone
    · exact ih hrest
  | @cut p q mark rest hcut _ _ _ ih =>
    rcases mem_append.mp hc with hc | hc
    · obtain ⟨d, hd, heq⟩ := mem_map.mp hc
      exact ⟨p, q, mark, hcut, (Prod.mk.inj heq).1 ▸ hd⟩
    · exact ih hc

/-- Behind a shown character of the input the text is laid out from the next position on. -/
theorem behind (h : Laid text cut p shown) {y x : Nat} {c : α}
    (hy : shown[y]? = some (c, some x)) :
    p ≤ x ∧ Laid text cut (x + 1) (shown.drop (y + 1)) := by
  induction h generalizing y with
  | done => cases hy
  | @kept p d rest _ _ hrest ih =>
    cases y with
    | zero =>
      rw [getElem?_cons_zero, Option.some.injEq, Prod.mk.injEq, Option.some.injEq] at hy
      obtain ⟨-, rfl⟩ := hy
      exact ⟨le_rfl, hrest⟩
    | succ y =>
      rw [getElem?_cons_succ] at hy
      obtain ⟨hle, hlaid⟩ := ih hy
      exact ⟨by omega, hlaid⟩
  | @cut p q mark rest _ _ hpq _ ih =>
    obtain ⟨hle, hat⟩ := getElem?_untraced_append hy
    obtain ⟨hqx, hlaid⟩ := ih hat
    refine ⟨by omega, ?_⟩
    obtain ⟨n, rfl⟩ := Nat.exists_eq_add_of_le hle
    rw [Nat.add_sub_cancel_left] at hlaid
    rw [Nat.add_assoc, drop_untraced_append]
    exact hlaid

/-- From a shown character of the input on, the text is laid out from its position. -/
theorem from_kept (h : Laid text cut p shown) {y x : Nat} {c : α}
    (hy : shown[y]? = some (c, some x)) : Laid text cut x (shown.drop y) := by
  obtain ⟨-, hbehind⟩ := h.behind hy
  obtain ⟨hle, hat, hkept⟩ := h.mem_iff.mp (mem_of_getElem? hy)
  obtain ⟨hlt, hget⟩ := getElem?_eq_some_iff.mp hy
  rw [drop_eq_getElem_cons hlt, hget]
  exact .kept hat hkept hbehind

/-- Shown characters of the input stand in the order of their positions. -/
theorem lt_iff (h : Laid text cut p shown) {y y' x x' : Nat} {c c' : α}
    (hy : shown[y]? = some (c, some x)) (hy' : shown[y']? = some (c', some x')) :
    y < y' ↔ x < x' := by
  have hmono : ∀ (y y' x x' : Nat) (c c' : α), shown[y]? = some (c, some x) →
      shown[y']? = some (c', some x') → y < y' → x < x' := by
    intro y y' x x' c c' hy hy' hlt
    obtain ⟨n, rfl⟩ := Nat.exists_eq_add_of_lt hlt
    obtain ⟨-, hbehind⟩ := h.behind hy
    have hat : (shown.drop (y + 1))[n]? = some (c', some x') := by
      rw [getElem?_drop, Nat.add_right_comm]
      exact hy'
    exact (hbehind.behind hat).1
  constructor
  · exact hmono y y' x x' c c' hy hy'
  · intro hlt
    rcases Nat.lt_trichotomy y y' with h' | rfl | h'
    · exact h'
    · rw [hy, Option.some.injEq, Prod.mk.injEq, Option.some.injEq] at hy'
      omega
    · have := hmono y' y x' x c' c hy' hy h'
      omega

/-- A character of the input is there once. -/
theorem eq_of_kept (h : Laid text cut p shown) {y y' x : Nat} {c c' : α}
    (hy : shown[y]? = some (c, some x)) (hy' : shown[y']? = some (c', some x)) : y = y' := by
  have hlt := h.lt_iff hy hy'
  have hlt' := h.lt_iff hy' hy
  omega

/-- A character that no cut covers is still shown, with its position. -/
theorem exists_kept (h : Laid text cut p shown) {x : Nat} {c : α} (hle : p ≤ x)
    (hat : text[x]? = some c) (hkept : ¬Covers cut x) : ∃ y : Nat, shown[y]? = some (c, some x) :=
  List.mem_iff_getElem?.mp (h.mem_iff.mpr ⟨hle, hat, hkept⟩)

/-- What is there is of the input, and no mark is in its place. -/
theorem getElem?_of_kept (h : Laid text cut p shown) {y x : Nat} {c : α}
    (hy : shown[y]? = some (c, some x)) : text[x]? = some c ∧ ¬Covers cut x :=
  (h.mem_iff.mp (mem_of_getElem? hy)).2

/-- Behind a shown character comes the next one of the input, or a mark, or the end. -/
theorem after (h : Laid text cut p shown) {y x : Nat} {c : α}
    (hy : shown[y]? = some (c, some x)) :
    (shown[y + 1]? = none ∧ text.length = x + 1) ∨
      (∃ d, shown[y + 1]? = some (d, some (x + 1))) ∨
      ∃ q mark d, cut (x + 1) q mark ∧ x + 1 < q ∧ mark.head? = some d ∧
        shown[y + 1]? = some (d, none) := by
  obtain ⟨-, hbehind⟩ := h.behind hy
  have hat : shown[y + 1]? = (shown.drop (y + 1))[0]? := by rw [getElem?_drop, Nat.add_zero]
  rw [hat]
  generalize shown.drop (y + 1) = rest at hbehind
  generalize hx : x + 1 = x' at hbehind
  cases hbehind with
  | done => exact .inl ⟨rfl, hx ▸ rfl⟩
  | @kept _ d rest _ _ _ => exact .inr (.inl ⟨d, rfl⟩)
  | @cut _ q mark rest hcut hne hlt _ =>
    obtain ⟨d, mark, rfl⟩ := exists_cons_of_ne_nil hne
    exact .inr (.inr ⟨q, d :: mark, d, hx ▸ hcut, hx ▸ hlt, rfl, rfl⟩)

/-- In front of a shown character is the one before it, or the end of a mark, or the beginning. -/
theorem before (h : Laid text cut p shown) {y x : Nat} {c : α}
    (hy : shown[y]? = some (c, some x)) :
    (y = 0 ∧ x = p) ∨
      (∃ d, 0 < y ∧ 0 < x ∧ shown[y - 1]? = some (d, some (x - 1))) ∨
      ∃ a mark d, 0 < y ∧ cut a x mark ∧ a < x ∧ mark.getLast? = some d ∧
        shown[y - 1]? = some (d, none) := by
  induction h generalizing y with
  | done => cases hy
  | @kept p e rest _ _ hrest ih =>
    cases y with
    | zero =>
      rw [getElem?_cons_zero, Option.some.injEq, Prod.mk.injEq, Option.some.injEq] at hy
      exact .inl ⟨rfl, hy.2.symm⟩
    | succ y =>
      rw [getElem?_cons_succ] at hy
      right
      rcases ih hy with ⟨rfl, rfl⟩ | ⟨d, hpos, hx, hd⟩ | ⟨a, mark, d, hpos, hcut, ha, hlast, hd⟩
      · exact .inl ⟨e, by omega, by omega, rfl⟩
      · refine .inl ⟨d, by omega, hx, ?_⟩
        obtain ⟨n, rfl⟩ := Nat.exists_eq_succ_of_ne_zero hpos.ne'
        exact hd
      · refine .inr ⟨a, mark, d, by omega, hcut, ha, hlast, ?_⟩
        obtain ⟨n, rfl⟩ := Nat.exists_eq_succ_of_ne_zero hpos.ne'
        exact hd
  -- The character is behind the mark, and has the mark's last one in front of it if it comes first
  | @cut p q mark rest hcut hne hpq hrest ih =>
    obtain ⟨hle, hat⟩ := getElem?_untraced_append hy
    obtain ⟨n, rfl⟩ := Nat.exists_eq_add_of_le hle
    rw [Nat.add_sub_cancel_left] at hat
    have hpos : 0 < mark.length := length_pos_iff.mpr hne
    right
    rcases ih hat with ⟨rfl, rfl⟩ | ⟨d, hn, hx, hd⟩ | ⟨a, mark', d, hn, hcut', ha, hlast, hd⟩
    · refine .inr ⟨p, mark, mark.getLast hne, by omega, hcut, hpq, getLast?_eq_some_getLast hne, ?_⟩
      rw [getElem?_append_left (by simp; omega), getElem?_untraced, Nat.add_zero,
        ← getLast?_eq_getElem?, getLast?_eq_some_getLast hne]
      rfl
    · refine .inl ⟨d, by omega, hx, ?_⟩
      rw [Nat.add_sub_assoc hn, getElem?_append_untraced, hd]
    · refine .inr ⟨a, mark', d, by omega, hcut', ha, hlast, ?_⟩
      rw [Nat.add_sub_assoc hn, getElem?_append_untraced, hd]

/-! ### Runs -/

/-- What is written is there, with a position or without. -/
theorem exists_of_map_fst {y : Nat} {c : α} (hy : (shown.map Prod.fst)[y]? = some c) :
    ∃ from?, shown[y]? = some (c, from?) := by
  rw [getElem?_map, Option.map_eq_some_iff] at hy
  obtain ⟨⟨d, from?⟩, hd, rfl⟩ := hy
  exact ⟨from?, hd⟩

/-- A shown character that no mark has is of the input. -/
theorem exists_position (h : Laid text cut p shown) {y : Nat} {c : α}
    (hy : (shown.map Prod.fst)[y]? = some c) (hmark : ∀ a b mark, cut a b mark → c ∉ mark) :
    ∃ x, shown[y]? = some (c, some x) := by
  obtain ⟨from?, hfrom⟩ := exists_of_map_fst hy
  cases from? with
  | some x => exact ⟨x, hfrom⟩
  | none =>
    obtain ⟨a, b, mark, hcut, hmem⟩ := h.of_untraced (mem_of_getElem? hfrom)
    exact (hmark a b mark hcut hmem).elim

/-- Behind a shown character, those that begin no mark are the next ones of the input. -/
theorem forward (h : Laid text cut p shown) {heads : List α}
    (hheads : ∀ a b mark d, cut a b mark → mark.head? = some d → d ∈ heads) {y x n : Nat} {c : α}
    (hy : shown[y]? = some (c, some x))
    (hrun : ∀ i, i < n → ∃ e, (shown.map Prod.fst)[y + 1 + i]? = some e ∧ e ∉ heads) :
    ∀ i, i ≤ n → ∃ d, shown[y + i]? = some (d, some (x + i)) := by
  intro i
  induction i with
  | zero => exact fun _ => ⟨c, hy⟩
  | succ i ih =>
    intro hi
    obtain ⟨d, hd⟩ := ih (by omega)
    obtain ⟨e, he, hhead⟩ := hrun i (by omega)
    obtain ⟨from?, hnext⟩ := exists_of_map_fst he
    rw [Nat.add_right_comm] at hnext
    rcases h.after hd with ⟨hnone, -⟩ | ⟨e', he'⟩ | ⟨q, mark, e', hcut, -, hmark, he'⟩
    · rw [hnext] at hnone
      cases hnone
    · exact ⟨e', he'⟩
    · rw [hnext, Option.some.injEq, Prod.mk.injEq] at he'
      exact absurd (hheads _ _ _ _ hcut hmark) (he'.1 ▸ hhead)

/-- In front of a shown character, those that end no mark are the ones before it in the input. -/
theorem back (h : Laid text cut p shown) {lasts : List α}
    (hlasts : ∀ a b mark d, cut a b mark → mark.getLast? = some d → d ∈ lasts) {y x n : Nat} {c : α}
    (hy : shown[y + n]? = some (c, some x))
    (hrun : ∀ i, i < n → ∃ e, (shown.map Prod.fst)[y + i]? = some e ∧ e ∉ lasts) :
    ∃ x', x = x' + n ∧ ∀ i, i ≤ n → ∃ d, shown[y + i]? = some (d, some (x' + i)) := by
  induction n generalizing x c with
  | zero => exact ⟨x, rfl, fun i hi => ⟨c, by rw [Nat.le_zero.mp hi]; exact hy⟩⟩
  | succ n ih =>
    obtain ⟨e, he, hlast⟩ := hrun n (by omega)
    rcases h.before hy with ⟨hzero, -⟩ | ⟨d, -, hx, hd⟩ | ⟨a, mark, d, -, hcut, -, hmark, hd⟩
    · omega
    · obtain ⟨x', hx', hall⟩ := ih (x := x - 1) (c := d) hd fun i hi => hrun i (by omega)
      refine ⟨x', by omega, fun i hi => ?_⟩
      rcases Nat.lt_or_ge i (n + 1) with hlt | hge
      · exact hall i (by omega)
      · obtain rfl : i = n + 1 := by omega
        exact ⟨c, by rw [hy]; congr 3; omega⟩
    · have hd : shown[y + n]? = some (d, none) := hd
      obtain ⟨from?, hfrom⟩ := exists_of_map_fst he
      rw [hfrom, Option.some.injEq, Prod.mk.injEq] at hd
      exact absurd (hlasts _ _ _ _ hcut hmark) (hd.1 ▸ hlast)

/-- Characters of the input behind a shown one are shown behind it, if none of them is covered. -/
theorem run (h : Laid text cut p shown) {y x n : Nat} {c : α} (hy : shown[y]? = some (c, some x))
    (hrun : ∀ i, i ≤ n → x + i < text.length ∧ ¬Covers cut (x + i)) :
    ∀ i, i ≤ n → ∃ d, shown[y + i]? = some (d, some (x + i)) := by
  intro i
  induction i with
  | zero => exact fun _ => ⟨c, hy⟩
  | succ i ih =>
    intro hi
    obtain ⟨d, hd⟩ := ih (by omega)
    obtain ⟨hlt, hkept⟩ := hrun (i + 1) hi
    rcases h.after hd with ⟨-, hlength⟩ | ⟨e, he⟩ | ⟨q, mark, -, hcut, hq, -, -⟩
    · omega
    · exact ⟨e, he⟩
    · exact absurd ⟨x + i + 1, q, mark, hcut, by omega, by omega⟩ hkept

/-- The shown text has at that place the character that the input has at its position. -/
theorem getElem?_map_fst (h : Laid text cut p shown) {y x : Nat} {c : α}
    (hy : shown[y]? = some (c, some x)) : (shown.map Prod.fst)[y]? = text[x]? := by
  rw [getElem?_map, hy, (h.getElem?_of_kept hy).1]
  rfl

/-- A shown character with its position is of the classes it had in the text. -/
theorem classAt_eq (h : Laid text cut p shown) {inClass : α → Bool} {y x : Nat} {c : α}
    (hy : shown[y]? = some (c, some x)) :
    Regex.classAt inClass (shown.map Prod.fst) y = Regex.classAt inClass text x := by
  rw [Regex.classAt, Regex.classAt, h.getElem?_map_fst hy]

/-- In front of a shown character all are of a class just if all in the input are, where each mark
    is of the class just if what it is in place of is. -/
theorem run_iff (h : Laid text cut p shown) {inClass : α → Bool}
    (halike : ∀ a b mark, cut a b mark → ((∀ d ∈ mark, inClass d = true) ↔
      ∀ x, a ≤ x → x < b → Regex.classAt inClass text x = true)) {z x : Nat} {c : α}
    (hz : shown[z]? = some (c, some x)) :
    (∀ i < z, Regex.classAt inClass (shown.map Prod.fst) i = true) ↔
      ∀ w, p ≤ w → w < x → Regex.classAt inClass text w = true := by
  -- Induction on how the text was laid out
  induction h generalizing z with
  | done => cases hz
  | @kept p d rest hat hkept hrest ih =>
    have hlaid : Laid text cut p ((d, some p) :: rest) := .kept hat hkept hrest
    have hfirst : Regex.classAt inClass (((d, some p) :: rest).map Prod.fst) 0 =
        Regex.classAt inClass text p := hlaid.classAt_eq (y := 0) rfl
    cases z with
    | zero =>
      rw [getElem?_cons_zero, Option.some.injEq, Prod.mk.injEq, Option.some.injEq] at hz
      obtain ⟨-, rfl⟩ := hz
      exact iff_of_true (fun i hi => by omega) fun w hw hlt => by omega
    | succ z =>
      have hpx := (hlaid.lt_iff (y := 0) rfl hz).mp (Nat.succ_pos z)
      rw [getElem?_cons_succ] at hz
      constructor
      · intro hall w hw hlt
        rcases Nat.eq_or_lt_of_le hw with rfl | hmore
        · exact hfirst ▸ hall 0 (Nat.succ_pos z)
        · exact (ih hz).mp (fun i hi => hall (i + 1) (by omega)) w hmore hlt
      · intro hall i hi
        cases i with
        | zero => exact hfirst ▸ hall p le_rfl hpx
        | succ i => exact (ih hz).mpr (fun w hw => hall w (by omega)) i (by omega)
  | @cut p q mark rest hcut _ hpq hrest ih =>
    obtain ⟨hle, hat⟩ := getElem?_untraced_append hz
    obtain ⟨n, rfl⟩ := Nat.exists_eq_add_of_le hle
    rw [Nat.add_sub_cancel_left] at hat
    have hqx := (hrest.behind hat).1
    -- The mark is shown first, and the rest behind it
    have hmark : ∀ i < mark.length, ((untraced mark ++ rest).map Prod.fst)[i]? = mark[i]? := by
      intro i hi
      rw [map_append, map_fst_untraced, getElem?_append_left hi]
    have hbehind : ∀ i, ((untraced mark ++ rest).map Prod.fst)[mark.length + i]? =
        (rest.map Prod.fst)[i]? := by
      intro i
      rw [map_append, map_fst_untraced, getElem?_append_right (by omega), Nat.add_sub_cancel_left]
    constructor
    · intro hall w hw hlt
      have hclass : ∀ d ∈ mark, inClass d = true := by
        intro d hd
        obtain ⟨i, hi⟩ := mem_iff_getElem?.mp hd
        have hin := (getElem?_eq_some_iff.mp hi).1
        obtain ⟨e, he, hclass⟩ := Regex.classAt_iff.mp (hall i (by omega))
        rw [hmark i hin, hi, Option.some.injEq] at he
        exact he ▸ hclass
      -- A position in the cut is of the class as the mark is; one behind it, by induction
      rcases Nat.lt_or_ge w q with hin | hout
      · exact (halike p q mark hcut).mp hclass w hw hin
      · refine (ih hat).mp (fun i hi => ?_) w hout hlt
        rw [Regex.classAt, ← hbehind i]
        exact hall (mark.length + i) (by omega)
    · intro hall i hi
      rcases Nat.lt_or_ge i mark.length with hin | hout
      · have hclass := (halike p q mark hcut).mpr fun w hw hlt => hall w hw (by omega)
        refine Regex.classAt_iff.mpr ⟨mark[i], ?_, hclass _ (getElem_mem hin)⟩
        rw [hmark i hin, getElem?_eq_getElem hin]
      · obtain ⟨m, rfl⟩ := Nat.exists_eq_add_of_le hout
        rw [Regex.classAt, hbehind m]
        exact (ih hat).mpr (fun w hw => hall w (by omega)) m (by omega)

/-- Between two shown characters all are of a class just if all between them in the input are, under
    the condition of `run_iff`. -/
theorem between_iff (h : Laid text cut p shown) {inClass : α → Bool}
    (halike : ∀ a b mark, cut a b mark → ((∀ d ∈ mark, inClass d = true) ↔
      ∀ x, a ≤ x → x < b → Regex.classAt inClass text x = true)) {y z x w : Nat} {c d : α}
    (hy : shown[y]? = some (c, some x)) (hz : shown[z]? = some (d, some w)) (hlt : y < z) :
    (∀ i, y < i → i < z → Regex.classAt inClass (shown.map Prod.fst) i = true) ↔
      ∀ v, x < v → v < w → Regex.classAt inClass text v = true := by
  obtain ⟨n, rfl⟩ := Nat.exists_eq_add_of_lt hlt
  have hlaid := (h.behind hy).2
  have hn : (shown.drop (y + 1))[n]? = some (d, some w) := by
    rw [getElem?_drop, Nat.add_right_comm]
    exact hz
  have hat : ∀ i, Regex.classAt inClass ((shown.drop (y + 1)).map Prod.fst) i =
      Regex.classAt inClass (shown.map Prod.fst) (y + 1 + i) := by
    intro i
    rw [Regex.classAt, Regex.classAt, map_drop, getElem?_drop]
  have hrun := hlaid.run_iff halike hn
  constructor
  · exact fun hall => hrun.mp fun i hi => (hat i).trans (hall (y + 1 + i) (by omega) (by omega))
  · intro hall i hy hi
    obtain ⟨m, rfl⟩ := Nat.exists_eq_add_of_lt hy
    rw [Nat.add_right_comm, ← hat m]
    exact hrun.mpr hall m (by omega)

/-- Two shown characters of the input are next to each other just if they are in the input. -/
theorem next_iff (h : Laid text cut p shown) {y z x w : Nat} {c d : α}
    (hy : shown[y]? = some (c, some x)) (hz : shown[z]? = some (d, some w)) :
    z = y + 1 ↔ w = x + 1 := by
  constructor
  · rintro rfl
    rcases h.after hy with ⟨hnone, -⟩ | ⟨e, he⟩ | ⟨q, mark, e, -, -, -, he⟩
    · rw [hz] at hnone
      cases hnone
    · rw [hz, Option.some.injEq, Prod.mk.injEq, Option.some.injEq] at he
      exact he.2
    · rw [hz, Option.some.injEq, Prod.mk.injEq] at he
      cases he.2
  · rintro rfl
    rcases h.after hy with ⟨-, hlength⟩ | ⟨e, he⟩ | ⟨q, mark, e, hcut, hlt, -, -⟩
    · have := (getElem?_eq_some_iff.mp (h.getElem?_of_kept hz).1).1
      omega
    · exact h.eq_of_kept hz he
    · exact ((h.getElem?_of_kept hz).2 ⟨x + 1, q, mark, hcut, le_rfl, hlt⟩).elim

/-- In front of a shown character there is a word boundary just if there is one in the input, where
    a part that was cut out counts as no word. -/
theorem atBoundary_iff (h : Laid text cut 0 shown) {word : α → Bool}
    (hlast : ∀ a b mark d, cut a b mark → mark.getLast? = some d → word d = false) {y x : Nat}
    {c : α} (hy : shown[y]? = some (c, some x)) :
    Regex.atBoundary word (shown.map Prod.fst) y = true ↔
      (Regex.classAt word text x = true ↔
        ¬(0 < x ∧ ¬Covers cut (x - 1) ∧ Regex.classAt word text (x - 1) = true)) := by
  rw [Regex.atBoundary, h.classAt_eq hy]
  rcases h.before hy with ⟨rfl, rfl⟩ | ⟨d, hpos, hx, hd⟩ | ⟨a, mark, d, hpos, hcut, ha, hmark, hd⟩
  · simp
  · rw [h.classAt_eq hd, decide_eq_true hpos, Bool.true_and, bne_iff_ne]
    simp only [hx, (h.getElem?_of_kept hd).2, not_false_eq_true, true_and, Bool.not_eq_true]
    cases Regex.classAt word text (x - 1) <;> cases Regex.classAt word text x <;> simp
  · have hcovers : Covers cut (x - 1) := ⟨a, x, mark, hcut, by omega, by omega⟩
    have hstop : Regex.classAt word (shown.map Prod.fst) (y - 1) = false := by
      rw [Regex.classAt, getElem?_map, hd]
      exact hlast a x mark d hcut hmark
    rw [hstop]
    simp [hcovers]

/-- A shown text can go on from a kept character as any text that is laid out from its position. -/
theorem splice (h : Laid text cut p shown) {cut' : Nat → Nat → List α → Prop}
    (hsub : ∀ a b mark, cut a b mark → cut' a b mark) {y x : Nat} {c : α}
    (hy : shown[y]? = some (c, some x))
    (hkept : ∀ y' < y, ∀ c' x', shown[y']? = some (c', some x') → ¬Covers cut' x')
    {rest : List (α × Option Nat)} (hrest : Laid text cut' x rest) :
    Laid text cut' p (shown.take y ++ rest) := by
  induction h generalizing y with
  | done => cases hy
  | @kept p d rest' hat hkept' _ ih =>
    cases y with
    | zero =>
      rw [getElem?_cons_zero, Option.some.injEq, Prod.mk.injEq, Option.some.injEq] at hy
      obtain ⟨-, rfl⟩ := hy
      exact hrest
    | succ y =>
      rw [getElem?_cons_succ] at hy
      refine .kept hat (hkept 0 (by omega) d p rfl) (ih hy fun y' hlt c' x' hy' => ?_)
      exact hkept (y' + 1) (by omega) c' x' hy'
  | @cut p q mark rest' hcut hne hpq _ ih =>
    obtain ⟨hle, hat⟩ := getElem?_untraced_append hy
    obtain ⟨n, rfl⟩ := Nat.exists_eq_add_of_le hle
    rw [Nat.add_sub_cancel_left] at hat
    rw [take_untraced_append, append_assoc]
    refine .cut (hsub _ _ _ hcut) hne hpq (ih hat fun y' hlt c' x' hy' => ?_)
    exact hkept (mark.length + y') (by omega) c' x' (by rw [getElem?_append_untraced, hy'])

end Laid

end List

/-! ## Matches in a text and in another -/

namespace Regex

variable {α : Type}

/-- Whether an expression asks for a boundary. -/
def bounded : Regex α → Bool
  | empty => false
  | one _ => false
  | seq r t => bounded r || bounded t
  | alt r t => bounded r || bounded t
  | many _ => false
  | boundary => true

/-- Where two texts have the same characters, they have the same matches of an expression that asks
    for no boundary. -/
theorem Spans.transfer {cut cut' : Nat → Prop} {text text' : List α} {x y n : Nat}
    (hchar : ∀ i < n, text[x + i]? = text'[y + i]?) {r : Regex α} (hr : bounded r = false)
    {a b : Nat} (hb : b ≤ n) (h : Spans cut text r (x + a) (x + b)) :
    Spans cut' text' r (y + a) (y + b) := by
  -- Induction on the expression, whose matches all lie in the run of equal characters
  induction r generalizing a b with
  | empty =>
    have hab : x + a = x + b := h
    exact show y + a = y + b by omega
  | one inClass =>
    obtain ⟨⟨c, hc, hclass⟩, hab⟩ := h
    rw [hchar a (by omega)] at hc
    exact ⟨⟨c, hc, hclass⟩, by omega⟩
  | seq r t ihr iht =>
    rw [bounded, Bool.or_eq_false_iff] at hr
    obtain ⟨k, hk, hk'⟩ := h
    have hle := hk.le
    have hle' := hk'.le
    obtain ⟨m, rfl⟩ := Nat.exists_eq_add_of_le (show x ≤ k by omega)
    exact ⟨y + m, ihr hr.1 (by omega) hk, iht hr.2 hb hk'⟩
  | alt r t ihr iht =>
    rw [bounded, Bool.or_eq_false_iff] at hr
    exact h.imp (ihr hr.1 hb) (iht hr.2 hb)
  | many inClass =>
    obtain ⟨hab, hall⟩ := h
    refine ⟨by omega, fun k hk hlt => ?_⟩
    obtain ⟨m, rfl⟩ := Nat.exists_eq_add_of_le (show y ≤ k by omega)
    rw [← hchar m (by omega)]
    exact hall (x + m) (by omega) (by omega)
  | boundary => cases hr

namespace Rewrite

variable {rule : Rewrite α} {word : α → Bool} {shown : List (α × Option Nat)}

/-- A match from `i` to `l`. -/
def Found (rule : Rewrite α) (word : α → Bool) (text : List α) (i l : Nat) : Prop :=
  ∃ j k, rule.find word text i = some (j, k, l)

/-- A made match drops index `y`. -/
def Drops (rule : Rewrite α) (word : α → Bool) (text : List α) (y : Nat) : Prop :=
  ∃ i j k l, rule.find word text i = some (j, k, l) ∧
    Leftmost (rule.Found word text) i l ∧ j ≤ y ∧ y < k

/-- No match that is made goes past `i` from before it. -/
def Visited (rule : Rewrite α) (word : α → Bool) (text : List α) (i : Nat) : Prop :=
  ∀ i' < i, ∀ l', Leftmost (rule.Found word text) i' l' → l' ≤ i

section Search

variable {text : List α} {i j k l : Nat}

/-- A match that is found where no other goes past is made. -/
theorem Visited.leftmost (h : rule.Visited word text i)
    (hfind : rule.find word text i = some (j, k, l)) :
    Leftmost (rule.Found word text) i l := Leftmost.iff.mpr ⟨⟨j, k, hfind⟩, h⟩

/-- The search goes on behind the end of the match it has found. -/
theorem Visited.behind (h : rule.Visited word text i)
    (hfind : rule.find word text i = some (j, k, l)) : rule.Visited word text l := by
  obtain ⟨hij, hjk, hkl⟩ := find_le hfind
  intro i' hlt l' hmade
  rcases Nat.lt_trichotomy i' i with hbefore | rfl | hafter
  · exact (h i' hbefore l' hmade).trans (by omega)
  · obtain ⟨j', k', hfind'⟩ := hmade.isFound
    rw [hfind, Option.some.injEq, Prod.mk.injEq, Prod.mk.injEq] at hfind'
    exact hfind'.2.2.ge
  · have := hmade.le hafter (h.leftmost hfind)
    omega

/-- Where none is found, none goes past the next position. -/
theorem Visited.next (h : rule.Visited word text i) (hfind : rule.find word text i = none) :
    rule.Visited word text (i + 1) := by
  intro i' hlt l' hmade
  rcases Nat.eq_or_lt_of_le (Nat.le_of_lt_succ hlt) with rfl | hbefore
  · obtain ⟨j', k', hfind'⟩ := hmade.isFound
    rw [hfind] at hfind'
    cases hfind'
  · exact (h i' hbefore l' hmade).trans (Nat.le_succ i)

/-- A position from the start of a made match up to its end is dropped just if the match drops
    it. -/
theorem Visited.drops_iff (h : rule.Visited word text i)
    (hfind : rule.find word text i = some (j, k, l)) {y : Nat} (hy : i ≤ y) (hl : y < l) :
    rule.Drops word text y ↔ j ≤ y ∧ y < k := by
  constructor
  · rintro ⟨i', j', k', l', hfind', hmade, hj, hk⟩
    obtain ⟨hij, hjk, hkl⟩ := find_le hfind'
    rcases Nat.lt_trichotomy i' i with hbefore | rfl | hafter
    · have := h i' hbefore l' hmade
      omega
    · rw [hfind, Option.some.injEq, Prod.mk.injEq, Prod.mk.injEq] at hfind'
      obtain ⟨rfl, rfl, -⟩ := hfind'
      exact ⟨hj, hk⟩
    · have := hmade.le hafter (h.leftmost hfind)
      omega
  · rintro ⟨hj, hk⟩
    exact ⟨i, j, k, l, hfind, h.leftmost hfind, hj, hk⟩

/-- Where the search finds no match, nothing is dropped. -/
theorem Visited.not_drops (h : rule.Visited word text i)
    (hfind : rule.find word text i = none) : ¬rule.Drops word text i := by
  rintro ⟨i', j', k', l', hfind', hmade, hj, hk⟩
  obtain ⟨hij, hjk, hkl⟩ := find_le hfind'
  rcases Nat.eq_or_lt_of_le (hij.trans hj) with rfl | hbefore
  · rw [hfind] at hfind'
    cases hfind'
  · have := h i' hbefore l' hmade
    omega

/-- No match goes past the beginning. -/
theorem visited_zero : rule.Visited word text 0 := fun _ hlt => absurd hlt (Nat.not_lt_zero _)

end Search

/-- Where a rule asks for nothing behind, what it drops is the first way of matching that `tries`
    gives. -/
theorem head?_of_find {text : List α} {i j k l : Nat} (hafter : rule.after = empty)
    (h : rule.find word text i = some (j, k, l)) :
    l = k ∧ (tries word text rule.dropped j).head? = some k := by
  obtain ⟨j', -, h⟩ := exists_head?_of_flatMap h
  have hmap : (tries word text rule.dropped j').flatMap (fun k =>
      (tries word text rule.after k).map fun l => (j', k, l)) =
        (tries word text rule.dropped j').map fun k => (j', k, k) := by
    rw [hafter, List.map_eq_flatMap]
    rfl
  rw [hmap, List.head?_map, Option.map_eq_some_iff] at h
  obtain ⟨k', hk', heq⟩ := h
  simp only [Prod.mk.injEq] at heq
  obtain ⟨rfl, rfl, rfl⟩ := heq
  exact ⟨rfl, hk'⟩

/-- `subTraced` leaves a character just if no made match drops its place. -/
theorem mem_subTraced_iff (hprogress : ∀ i j k l,
      rule.find word (shown.map Prod.fst) i = some (j, k, l) → i < l) {c : α} {x y : Nat}
    (hy : shown[y]? = some (c, some x))
    (honce : ∀ y', shown[y']? = some (c, some x) → y' = y) :
    (c, some x) ∈ rule.subTraced word shown ↔ ¬rule.Drops word (shown.map Prod.fst) y := by
  have hlength := (List.getElem?_eq_some_iff.mp hy).1
  -- Once the search has passed the character, it is not kept any more
  have hlate : ∀ n i, y < i → (c, some x) ∉ rule.subTracedFrom word shown n i := by
    intro n i hlt hmem
    rcases exists_of_mem_subTracedFrom n hmem with hmark | ⟨y', hy', hle⟩
    · exact List.not_mem_untraced hmark
    · have := honce y' hy'
      omega
  have hslice : ∀ {a b : Nat}, (c, some x) ∈ (shown.take b).drop a → a ≤ y ∧ y < b := by
    intro a b hmem
    obtain ⟨y', hy', ha, hb⟩ := exists_of_mem_slice hmem
    obtain rfl := honce y' hy'
    exact ⟨ha, hb⟩
  -- Induction on the steps left, for every place in front of the character that is visited
  have hfrom : ∀ n i, rule.Visited word (shown.map Prod.fst) i → i ≤ y → shown.length ≤ n + i →
      ((c, some x) ∈ rule.subTracedFrom word shown n i ↔
        ¬rule.Drops word (shown.map Prod.fst) y) := by
    intro n
    induction n with
    | zero =>
      intro i _ hi hn
      omega
    | succ n ih =>
      intro i hvisited hi hn
      rw [subTracedFrom]
      split
      · next j k l hfind =>
        obtain ⟨hij, hjk, hkl⟩ := find_le hfind
        have hmore := hprogress i j k l hfind
        -- The character is in this match, or the search goes on behind it
        by_cases hl : y < l
        · rw [hvisited.drops_iff hfind hi hl]
          constructor
          · rintro hmem ⟨hj, hk⟩
            rcases List.mem_append.mp hmem with hmem | hmem
            · have := hslice hmem
              omega
            · rcases List.mem_append.mp hmem with hmem | hmem
              · exact List.not_mem_untraced hmem
              · rcases List.mem_append.mp hmem with hmem | hmem
                · have := hslice hmem
                  omega
                · exact hlate n l hl hmem
          · intro hnot
            by_cases hj : y < j
            · exact List.mem_append_left _ (mem_slice hy hi hj)
            · exact List.mem_append_right _ (List.mem_append_right _
                (List.mem_append_left _ (mem_slice hy (by omega) hl)))
        · rw [← ih l (hvisited.behind hfind) (by omega) (by omega)]
          constructor
          · intro hmem
            rcases List.mem_append.mp hmem with hmem | hmem
            · have := hslice hmem
              omega
            · rcases List.mem_append.mp hmem with hmem | hmem
              · exact (List.not_mem_untraced hmem).elim
              · rcases List.mem_append.mp hmem with hmem | hmem
                · have := hslice hmem
                  omega
                · exact hmem
          · exact fun hmem => List.mem_append_right _ (List.mem_append_right _
              (List.mem_append_right _ hmem))
      · next hfind =>
        rcases Nat.eq_or_lt_of_le hi with rfl | hlt
        · refine iff_of_true ?_ (hvisited.not_drops hfind)
          exact List.mem_append_left _ (mem_slice hy le_rfl (Nat.lt_succ_self i))
        · rw [← ih (i + 1) (hvisited.next hfind) hlt (by omega)]
          constructor
          · intro hmem
            rcases List.mem_append.mp hmem with hmem | hmem
            · have := hslice hmem
              omega
            · exact hmem
          · exact List.mem_append_right _
  exact hfrom shown.length 0 visited_zero (Nat.zero_le y) (by omega)

/-- Behind the text nothing is found. -/
theorem find_of_length_le {text : List α} (hprogress : ∀ i j k l,
      rule.find word text i = some (j, k, l) → i < l) {i : Nat} (h : text.length ≤ i) :
    rule.find word text i = none := by
  cases hfind : rule.find word text i with
  | none => rfl
  | some found =>
    obtain ⟨j, k, l⟩ := found
    have hmore := hprogress i j k l hfind
    obtain ⟨hkept, hdropped, hafter⟩ := spans_of_find hfind
    -- The first character that is matched would be in the text
    have hat : ∃ c, text[i]? = some c := by
      by_cases hj : i < j
      · obtain ⟨c, hc, -⟩ := hkept.mem_classes le_rfl hj
        exact ⟨c, hc⟩
      · obtain rfl : i = j := Nat.le_antisymm hkept.le (Nat.le_of_not_lt hj)
        by_cases hk : i < k
        · obtain ⟨c, hc, -⟩ := hdropped.mem_classes le_rfl hk
          exact ⟨c, hc⟩
        · obtain rfl : i = k := Nat.le_antisymm hdropped.le (Nat.le_of_not_lt hk)
          obtain ⟨c, hc, -⟩ := hafter.mem_classes le_rfl hmore
          exact ⟨c, hc⟩
    obtain ⟨c, hc⟩ := hat
    rw [List.getElem?_eq_none h] at hc
    cases hc

/-- Behind the end of the text the substitution has nothing left to give. -/
theorem subTracedFrom_of_length_le (hprogress : ∀ i j k l,
      rule.find word (shown.map Prod.fst) i = some (j, k, l) → i < l) (n : Nat) {i : Nat}
    (h : shown.length ≤ i) : rule.subTracedFrom word shown n i = [] := by
  induction n generalizing i with
  | zero => exact List.drop_eq_nil_of_le h
  | succ n ih =>
    rw [subTracedFrom, find_of_length_le hprogress (by simpa using h), ih (by omega)]
    simp only [List.append_nil, List.drop_eq_nil_iff, List.length_take]
    omega

/-- `subTracedFrom` leaves a mark in which no match begins. -/
theorem subTracedFrom_untraced {mark : List α} {rest : List (α × Option Nat)} {n i : Nat}
    (hdrop : shown.drop i = List.untraced mark ++ rest)
    (hquiet : ∀ y c, shown[y]? = some (c, none) →
      rule.find word (shown.map Prod.fst) y = none)
    (hvisited : rule.Visited word (shown.map Prod.fst) i) :
    rule.subTracedFrom word shown (mark.length + n) i =
        List.untraced mark ++ rule.subTracedFrom word shown n (i + mark.length) ∧
      rule.Visited word (shown.map Prod.fst) (i + mark.length) ∧
      shown.drop (i + mark.length) = rest := by
  -- One character of the mark after another, where nothing is found
  induction mark generalizing i with
  | nil => exact ⟨by simp [List.untraced], hvisited, by simpa [List.untraced] using hdrop⟩
  | cons d mark ih =>
    have hat : shown[i]? = some (d, none) := by
      have hzero : (shown.drop i)[0]? = some (d, none) := by rw [hdrop]; rfl
      rwa [List.getElem?_drop, Nat.add_zero] at hzero
    have hnone := hquiet i d hat
    have hdrop' : shown.drop (i + 1) = List.untraced mark ++ rest := by
      rw [← List.drop_drop, hdrop]
      rfl
    obtain ⟨heq, hvisited', hrest⟩ := ih hdrop' (hvisited.next hnone)
    have hlength : i + 1 + mark.length = i + (d :: mark).length := by
      rw [List.length_cons]
      omega
    rw [hlength] at heq hvisited' hrest
    refine ⟨?_, hvisited', hrest⟩
    have hcount : (d :: mark).length + n = mark.length + n + 1 := by
      rw [List.length_cons]
      omega
    have hslice : (shown.take (i + 1)).drop i = [(d, none)] := by
      rw [List.drop_take, Nat.add_sub_cancel_left]
      obtain ⟨hlt, hget⟩ := List.getElem?_eq_some_iff.mp hat
      rw [List.drop_eq_getElem_cons hlt, hget]
      rfl
    rw [hcount, subTracedFrom, hnone, heq, hslice]
    rfl

end Rewrite

end Regex

namespace List.Laid

variable {α : Type} {text : List α} {cut cut' : Nat → Nat → List α → Prop}
  {rule : Regex.Rewrite α} {word : α → Bool} {shown : List (α × Option Nat)}

/-- Over characters of the input with no mark in between, an expression matches in the shown text
    just where it does in the input. -/
theorem spans_iff (h : Laid text cut 0 shown) {r : Regex α} (hr : Regex.bounded r = false)
    {border border' : Nat → Prop} {x y n : Nat}
    (hrun : ∀ i < n, ∃ d, shown[y + i]? = some (d, some (x + i))) {a b : Nat} (hb : b ≤ n) :
    Regex.Spans border (shown.map Prod.fst) r (y + a) (y + b) ↔
      Regex.Spans border' text r (x + a) (x + b) := by
  have hchar : ∀ i < n, (shown.map Prod.fst)[y + i]? = text[x + i]? := by
    intro i hi
    obtain ⟨d, hd⟩ := hrun i hi
    exact h.getElem?_map_fst hd
  constructor
  · exact Regex.Spans.transfer hchar hr hb
  · exact Regex.Spans.transfer (fun i hi => (hchar i hi).symm) hr hb

/-- `subTraced` leaves a text laid out with more cut out, where no match begins in a mark and no
    dropped part ends in one. -/
theorem subTraced (h : Laid text cut 0 shown) (hmark : rule.mark ≠ [])
    (hsub : ∀ a b mark, cut a b mark → cut' a b mark)
    (hquiet : ∀ y c, shown[y]? = some (c, none) → rule.find word (shown.map Prod.fst) y = none)
    (hprogress : ∀ i j k l, rule.find word (shown.map Prod.fst) i = some (j, k, l) → i < l)
    (hkept : ∀ y c x, shown[y]? = some (c, some x) →
      ¬rule.Drops word (shown.map Prod.fst) y → ¬Covers cut' x)
    (hdropped : ∀ i j k l c x, shown[i]? = some (c, some x) →
      rule.find word (shown.map Prod.fst) i = some (j, k, l) →
      Leftmost (rule.Found word (shown.map Prod.fst)) i l →
      ∃ a b e, cut' a b rule.mark ∧ a < b ∧ Laid text cut e (shown.drop l) ∧
        (∀ rest, Laid text cut' a rest → Laid text cut' x ((shown.take j).drop i ++ rest)) ∧
        ∀ rest, Laid text cut' e rest → Laid text cut' b ((shown.take l).drop k ++ rest)) :
    Laid text cut' 0 (rule.subTraced word shown) := by
  -- Induction on the steps left, for every place that is visited and how the text is laid out from
  -- it
  have hfrom : ∀ n i p, Laid text cut p (shown.drop i) →
      rule.Visited word (shown.map Prod.fst) i → shown.length ≤ n + i →
      Laid text cut' p (rule.subTracedFrom word shown n i) := by
    intro n
    induction n using Nat.strong_induction_on with
    | _ n ih =>
      intro i p hlaid hvisited hn
      generalize hrest : shown.drop i = suffix at hlaid
      cases hlaid with
      | done =>
        rw [Regex.Rewrite.subTracedFrom_of_length_le hprogress n (drop_eq_nil_iff.mp hrest)]
        exact .done
      -- A character of the input: a match begins here and is cut out, or the character stays
      | @kept _ c rest hat _ hlaid =>
        have hy : shown[i]? = some (c, some p) := by
          have hzero : (shown.drop i)[0]? = some (c, some p) := by rw [hrest]; rfl
          rwa [getElem?_drop, Nat.add_zero] at hzero
        have hlt := (getElem?_eq_some_iff.mp hy).1
        have hrest' : shown.drop (i + 1) = rest := by
          rw [← drop_drop, hrest]
          rfl
        obtain ⟨m, rfl⟩ := Nat.exists_eq_succ_of_ne_zero (show n ≠ 0 by omega)
        rw [Nat.succ_eq_add_one, Regex.Rewrite.subTracedFrom]
        split
        · next j k l hfind =>
          have hmore := hprogress i j k l hfind
          obtain ⟨a, b, e, hcut, hab, hbehind, hfront, hback⟩ :=
            hdropped i j k l c p hy hfind (hvisited.leftmost hfind)
          exact hfront _ (.cut hcut hmark hab (hback _
            (ih m (Nat.lt_succ_self m) l e hbehind (hvisited.behind hfind) (by omega))))
        · next hfind =>
          have hslice : (shown.take (i + 1)).drop i = [(c, some p)] := by
            rw [drop_take, Nat.add_sub_cancel_left, hrest]
            rfl
          rw [hslice]
          exact .kept hat (hkept i c p hy (hvisited.not_drops hfind))
            (ih m (Nat.lt_succ_self m) (i + 1) (p + 1) (hrest' ▸ hlaid) (hvisited.next hfind)
              (by omega))
      -- A mark is passed over as a whole
      | @cut _ q mark rest hcut hne hpq hlaid =>
        have hpos : 0 < mark.length := length_pos_iff.mpr hne
        have hlength : mark.length ≤ shown.length - i := by
          rw [← length_drop, hrest, length_append, length_untraced]
          omega
        obtain ⟨m, rfl⟩ := Nat.exists_eq_add_of_le (show mark.length ≤ n by omega)
        obtain ⟨heq, hvisited', hrest'⟩ :=
          Regex.Rewrite.subTracedFrom_untraced (n := m) hrest hquiet hvisited
        rw [heq]
        exact .cut (hsub _ _ _ hcut) hne hpq
          (ih m (by omega) _ q (hrest' ▸ hlaid) hvisited' (by omega))
  have hzero : Laid text cut 0 (shown.drop 0) := h
  exact hfrom shown.length 0 0 hzero Regex.Rewrite.visited_zero (Nat.le_refl _)

end List.Laid
