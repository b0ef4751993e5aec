import Mathlib.Algebra.GroupWithZero.Nat

/-!
# Python strings as JSON strings

A Python `str` is a list of code points that may hold surrogates. `json.dumps`
writes everything past ASCII as `\uXXXX` escapes of UTF-16 units, so a high and a
low surrogate that stand side by side are read back as one code point, and every
other string survives the round trip.
-/

namespace PyJson

/-- A code point of a Python `str`. Unlike `Char` it may be a surrogate. -/
abbrev CodePoint := Fin 0x110000

instance instNeZeroCodePoint : NeZero 0x110000 := ⟨Nat.succ_ne_zero _⟩

/-- A Python `str`. -/
abbrev PyStr := List CodePoint

instance : LawfulBEq PyStr := inferInstance

/-- The code points of a Lean string, none of which is a surrogate. -/
def PyStr.ofString (s : String) : PyStr :=
  s.toList.map fun c => Fin.ofNat 0x110000 c.toNat

def isHigh (c : CodePoint) : Bool := 0xD800 ≤ c.val && c.val < 0xDC00

def isLow (c : CodePoint) : Bool := 0xDC00 ≤ c.val && c.val < 0xE000

def isSurrogate (c : CodePoint) : Bool := isHigh c || isLow c

/-- One character of a JSON string: itself, or a `\uXXXX` escape of a UTF-16 unit. -/
inductive StrItem
  | raw (c : CodePoint)
  | esc (unit : CodePoint)
  deriving DecidableEq, Repr

/-- The high half of the surrogate pair of a code point past the basic plane. -/
def highOf (c : CodePoint) : CodePoint := Fin.ofNat 0x110000 (0xD800 + (c.val - 0x10000) / 0x400)

/-- The low half of the surrogate pair of a code point past the basic plane. -/
def lowOf (c : CodePoint) : CodePoint := Fin.ofNat 0x110000 (0xDC00 + (c.val - 0x10000) % 0x400)

/-- The code point a surrogate pair stands for. -/
def combine (hi lo : CodePoint) : CodePoint :=
  Fin.ofNat 0x110000 (0x10000 + (hi.val - 0xD800) * 0x400 + (lo.val - 0xDC00))

/-- `json.dumps` of one code point, with its default `ensure_ascii=True`. -/
def dumpsChar (c : CodePoint) : List StrItem :=
  if c.val < 0x80 then [.raw c]
  else if c.val < 0x10000 then [.esc c]
  else [.esc (highOf c), .esc (lowOf c)]

/-- `json.dumps` of a `str`. -/
def dumpsStr (s : PyStr) : List StrItem := s.flatMap dumpsChar

/-- `json.loads` of a string: an escaped high surrogate and the escaped low
    surrogate after it are one code point. -/
def loadsStr : List StrItem → PyStr
  | [] => []
  | .raw c :: rest => c :: loadsStr rest
  | .esc u :: .esc v :: rest =>
    if isHigh u && isLow v then combine u v :: loadsStr rest
    else u :: loadsStr (.esc v :: rest)
  | .esc u :: .raw c :: rest => u :: c :: loadsStr rest
  | [.esc u] => [u]

/-- What `json.loads` makes of what `json.dumps` wrote: two surrogates that
    stand side by side as a pair come back as one code point. -/
def norm : PyStr → PyStr
  | [] => []
  | [c] => [c]
  | c :: d :: rest =>
    if isHigh c && isLow d then combine c d :: norm rest else c :: norm (d :: rest)

/-- No high surrogate stands directly before a low one. -/
def pairFree : PyStr → Bool
  | [] => true
  | [_] => true
  | c :: d :: rest => !(isHigh c && isLow d) && pairFree (d :: rest)

/-- No surrogate at all: text that has a UTF-8 encoding. -/
def wellFormed (s : PyStr) : Bool := s.all fun c => !isSurrogate c

/-- The text that is read where surrogates are written in UTF-8: each of the three bytes of one
    is replaced. -/
def lossy (s : PyStr) : PyStr :=
  s.flatMap fun c => if isSurrogate c then [0xFFFD, 0xFFFD, 0xFFFD] else [c]

/-- The high surrogates, by number. -/
private theorem isHigh_iff (c : CodePoint) : isHigh c = true ↔ 0xD800 ≤ c.val ∧ c.val < 0xDC00 := by
  simp only [isHigh, Bool.and_eq_true, decide_eq_true_eq]

/-- The low ones. -/
private theorem isLow_iff (c : CodePoint) : isLow c = true ↔ 0xDC00 ≤ c.val ∧ c.val < 0xE000 := by
  simp only [isLow, Bool.and_eq_true, decide_eq_true_eq]

/-- The high half of a character. -/
private theorem highOf_val (c : CodePoint) :
    (highOf c).val = (0xD800 + (c.val - 0x10000) / 0x400) % 0x110000 := rfl

/-- The low half. -/
private theorem lowOf_val (c : CodePoint) :
    (lowOf c).val = (0xDC00 + (c.val - 0x10000) % 0x400) % 0x110000 := rfl

/-- The character of two halves. -/
private theorem combine_val (hi lo : CodePoint) :
    (combine hi lo).val =
      (0x10000 + (hi.val - 0xD800) * 0x400 + (lo.val - 0xDC00)) % 0x110000 := rfl

/-- The halves of a character give it back. -/
private theorem combine_halves (c : CodePoint) (h : 0x10000 ≤ c.val) :
    combine (highOf c) (lowOf c) = c := by
  apply Fin.ext
  have := c.isLt
  rw [combine_val, highOf_val, lowOf_val]
  omega

/-- The high half is a high surrogate. -/
private theorem isHigh_highOf (c : CodePoint) (h : 0x10000 ≤ c.val) :
    isHigh (highOf c) = true := by
  have := c.isLt
  rw [isHigh_iff, highOf_val]
  omega

/-- The low half is a low one. -/
private theorem isLow_lowOf (c : CodePoint) : isLow (lowOf c) = true := by
  rw [isLow_iff, lowOf_val]
  omega

/-- The high half is no low one. -/
private theorem isLow_highOf (c : CodePoint) (h : 0x10000 ≤ c.val) :
    isLow (highOf c) = false := by
  have := c.isLt
  rw [Bool.eq_false_iff, ne_eq, isLow_iff, highOf_val]
  omega

/-- The character of two halves is no surrogate. -/
private theorem isSurrogate_combine (hi lo : CodePoint) (hh : isHigh hi = true)
    (hl : isLow lo = true) : isSurrogate (combine hi lo) = false := by
  rw [isHigh_iff] at hh
  rw [isLow_iff] at hl
  rw [isSurrogate, Bool.or_eq_false_iff, Bool.eq_false_iff, Bool.eq_false_iff, ne_eq, ne_eq,
    isHigh_iff, isLow_iff, combine_val]
  omega

/-- How `dumpsChar` escapes a code point, by where it lies. -/
private theorem dumpsChar_cases (c : CodePoint) :
    (dumpsChar c = [.raw c] ∧ isHigh c = false ∧ isLow c = false) ∨
    (dumpsChar c = [.esc c] ∧ c.val < 0x10000) ∨
    (dumpsChar c = [.esc (highOf c), .esc (lowOf c)] ∧ 0x10000 ≤ c.val) := by
  unfold dumpsChar
  split
  · left
    simp only [isHigh, isLow, Bool.and_eq_false_iff, decide_eq_false_iff_not, true_and]
    omega
  · split
    · exact .inr (.inl ⟨rfl, ‹_›⟩)
    · exact .inr (.inr ⟨rfl, by omega⟩)

/-- A character that has halves is no surrogate. -/
private theorem not_surrogate_of_astral (c : CodePoint) (h : 0x10000 ≤ c.val) :
    isHigh c = false ∧ isLow c = false := by
  simp only [isHigh, isLow, Bool.and_eq_false_iff, decide_eq_false_iff_not]
  omega

/-- Reading an escape that is not the start of a pair. -/
theorem loadsStr_esc_cons (u : CodePoint) (items : List StrItem)
    (h : ∀ v rest, items = .esc v :: rest → (isHigh u && isLow v) = false) :
    loadsStr (.esc u :: items) = u :: loadsStr items := by
  match items with
  | [] => rfl
  | .raw c :: rest => rfl
  | .esc v :: rest => simp only [loadsStr, h v rest rfl, Bool.false_eq_true, if_false]

/-- The first item of an encoded string is a low escape only for a low surrogate. -/
private theorem dumpsStr_head_low (d : CodePoint) (rest : PyStr) (v : CodePoint)
    (items : List StrItem) (h : dumpsStr (d :: rest) = .esc v :: items)
    (hlow : isLow v = true) : isLow d = true := by
  simp only [dumpsStr, List.flatMap_cons] at h
  rcases dumpsChar_cases d with ⟨hd, -, -⟩ | ⟨hd, -⟩ | ⟨hd, hast⟩
  · simp [hd] at h
  · simp only [hd, List.cons_append, List.nil_append, List.cons.injEq, StrItem.esc.injEq] at h
    exact h.1 ▸ hlow
  · simp only [hd, List.cons_append, List.nil_append, List.cons.injEq, StrItem.esc.injEq] at h
    rw [← h.1, isLow_highOf d hast] at hlow
    exact absurd hlow (by decide)

/-- The round trip through the standard library merges surrogate pairs. -/
theorem loadsStr_dumpsStr (s : PyStr) : loadsStr (dumpsStr s) = norm s := by
  induction s using norm.induct with
  | case1 => rfl
  | case2 c =>
    simp only [dumpsStr, List.flatMap_cons, List.flatMap_nil, List.append_nil]
    rcases dumpsChar_cases c with ⟨hc, -, -⟩ | ⟨hc, -⟩ | ⟨hc, hast⟩
    · rw [hc]; rfl
    · rw [hc]; rfl
    · simp [hc, loadsStr, isHigh_highOf c hast, isLow_lowOf c, combine_halves c hast, norm]
  -- A high and a low surrogate are written as two escapes, which are read back as one character
  | case3 c d rest hpair ih =>
    obtain ⟨hc, hd⟩ := by simpa only [Bool.and_eq_true] using hpair
    have hcd : dumpsChar c = [.esc c] := by
      rcases dumpsChar_cases c with ⟨-, hh, -⟩ | ⟨h, -⟩ | ⟨-, hast⟩
      · simp [hh] at hc
      · exact h
      · simp [(not_surrogate_of_astral c hast).1] at hc
    have hdd : dumpsChar d = [.esc d] := by
      rcases dumpsChar_cases d with ⟨-, -, hl⟩ | ⟨h, -⟩ | ⟨-, hast⟩
      · simp [hl] at hd
      · exact h
      · simp [(not_surrogate_of_astral d hast).2] at hd
    have hstr : dumpsStr (c :: d :: rest) = .esc c :: .esc d :: dumpsStr rest := by
      simp [dumpsStr, hcd, hdd]
    rw [hstr, loadsStr, norm, if_pos hpair, if_pos hpair, ih]
  -- Otherwise the first character is read back by itself
  | case4 c d rest hpair ih =>
    have hno : (isHigh c && isLow d) = false := by simpa using hpair
    rw [norm, if_neg hpair, ← ih]
    have hstr : dumpsStr (c :: d :: rest) = dumpsChar c ++ dumpsStr (d :: rest) := rfl
    rw [hstr]
    rcases dumpsChar_cases c with ⟨hc, -, -⟩ | ⟨hc, -⟩ | ⟨hc, hast⟩
    · rw [hc]; rfl
    · rw [hc, List.singleton_append, loadsStr_esc_cons]
      intro v items hitems
      -- A high surrogate joins the escape behind it only if the next character is a low one
      refine Bool.eq_false_iff.mpr fun hne => ?_
      simp only [Bool.and_eq_true] at hne
      rw [hne.1, dumpsStr_head_low d rest v items hitems hne.2] at hno
      exact absurd hno (by decide)
    · rw [hc]
      simp only [List.cons_append, List.nil_append, loadsStr, isHigh_highOf c hast,
        isLow_lowOf c, Bool.and_self, if_true, combine_halves c hast]

/-- A string without surrogate pairs survives the round trip. -/
theorem norm_of_pairFree (s : PyStr) (h : pairFree s = true) : norm s = s := by
  induction s using norm.induct with
  | case1 => rfl
  | case2 c => rfl
  | case3 c d rest hpair ih => simp [pairFree, hpair] at h
  | case4 c d rest hpair ih =>
    simp only [pairFree, Bool.and_eq_true] at h
    rw [norm, if_neg hpair, ih h.2]

/-- The head of a round-tripped string is low only if the original's head was. -/
private theorem norm_head_low (d : CodePoint) (rest : PyStr) (e : CodePoint) (tail : PyStr)
    (h : norm (d :: rest) = e :: tail) (hlow : isLow e = true) : isLow d = true := by
  cases rest with
  | nil =>
    simp only [norm, List.cons.injEq] at h
    exact h.1 ▸ hlow
  | cons f rest =>
    rw [norm] at h
    split at h
    · rename_i hpair
      simp only [Bool.and_eq_true] at hpair
      have := isSurrogate_combine d f hpair.1 hpair.2
      simp only [List.cons.injEq] at h
      rw [h.1] at this
      simp [isSurrogate, hlow] at this
    · simp only [List.cons.injEq] at h
      exact h.1 ▸ hlow

/-- No surrogate pair is left after one round trip. -/
theorem pairFree_norm (s : PyStr) : pairFree (norm s) = true := by
  induction s using norm.induct with
  | case1 => rfl
  | case2 c => rfl
  | case3 c d rest hpair ih =>
    rw [norm, if_pos hpair]
    simp only [Bool.and_eq_true] at hpair
    -- A combined character is no surrogate, so it begins no pair
    have hnot : isHigh (combine c d) = false := by
      have := isSurrogate_combine c d hpair.1 hpair.2
      simp only [isSurrogate, Bool.or_eq_false_iff] at this
      exact this.1
    cases hn : norm rest with
    | nil => rfl
    | cons e tail =>
      rw [hn] at ih
      simp [pairFree, hnot, ih]
  | case4 c d rest hpair ih =>
    rw [norm, if_neg hpair]
    cases hn : norm (d :: rest) with
    | nil => rfl
    | cons e tail =>
      rw [hn] at ih
      simp only [pairFree, ih, Bool.and_true, Bool.not_eq_true', Bool.and_eq_false_iff]
      by_cases hc : isHigh c = true
      -- A high surrogate is followed by no low one, or the pair would have been combined
      · right
        refine Bool.eq_false_iff.mpr fun hl => ?_
        exact hpair (by simp [hc, norm_head_low d rest e tail hn hl])
      · left
        simpa using hc

/-- Text without surrogates has no surrogate pair. -/
theorem pairFree_of_wellFormed (s : PyStr) (h : wellFormed s = true) : pairFree s = true := by
  induction s using norm.induct with
  | case1 => rfl
  | case2 c => rfl
  | case3 c d rest hpair ih =>
    simp only [Bool.and_eq_true] at hpair
    simp [wellFormed, isSurrogate, hpair.1] at h
  | case4 c d rest hpair ih =>
    simp only [wellFormed, List.all_cons, Bool.and_eq_true] at h ih
    simp only [pairFree, Bool.and_eq_true, Bool.not_eq_true']
    exact ⟨by simpa using hpair, ih h.2⟩

/-- `lossy` leaves no surrogate. -/
theorem wellFormed_lossy (s : PyStr) : wellFormed (lossy s) = true := by
  rw [wellFormed, lossy, List.all_flatMap, List.all_eq_true]
  intro c _
  split
  · decide
  · rename_i hc
    simpa using hc

/-- `lossy` leaves a text without surrogates as it is. -/
theorem lossy_of_wellFormed {s : PyStr} (h : wellFormed s = true) : lossy s = s := by
  induction s with
  | nil => rfl
  | cons c s ih =>
    rw [wellFormed, List.all_cons, Bool.and_eq_true] at h
    obtain ⟨hc, hs⟩ := h
    rw [lossy, List.flatMap_cons, if_neg (by simpa using hc), List.singleton_append]
    exact congrArg (c :: ·) (ih hs)

/-- Unescaped characters are read back one for one. -/
theorem loadsStr_map_raw (s : PyStr) : loadsStr (s.map StrItem.raw) = s := by
  induction s with
  | nil => rfl
  | cons c s ih => simp [loadsStr, ih]

end PyJson
