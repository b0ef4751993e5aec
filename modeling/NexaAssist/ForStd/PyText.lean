import NexaAssist.ForStd.PyStr

/-!
# Text functions of Python

White space as `str.isspace` and `\s` have it, `rstrip`, `lower`, `in`, and
`re.split(r"(\s+)", text)`, which keeps the white space between the words.
-/

namespace PyJson

/-- `c.isspace()`, which is also the class `\s`. -/
def isSpace (c : CodePoint) : Bool :=
  (0x09 ≤ c.val && c.val ≤ 0x0d) || (0x1c ≤ c.val && c.val ≤ 0x20) || c.val = 0x85 ||
    c.val = 0xa0 || c.val = 0x1680 || (0x2000 ≤ c.val && c.val ≤ 0x200a) || c.val = 0x2028 ||
    c.val = 0x2029 || c.val = 0x202f || c.val = 0x205f || c.val = 0x3000

/-- `text.isspace()`. -/
def PyStr.isspace (text : PyStr) : Bool := !text.isEmpty && text.all isSpace

/-- `text.rstrip()`. -/
def PyStr.rstrip (text : PyStr) : PyStr := (text.reverse.dropWhile isSpace).reverse

/-- `text.strip()`. -/
def PyStr.strip (text : PyStr) : PyStr := PyStr.rstrip (text.dropWhile isSpace)

/-- `rstrip` leaves a text that the text begins with. -/
theorem PyStr.prefix_rstrip (text : PyStr) : PyStr.rstrip text <+: text := by
  have hsuffix := List.dropWhile_suffix (l := text.reverse) isSpace
  have h := List.reverse_prefix.mpr hsuffix
  rwa [List.reverse_reverse] at h

/-- `rstrip` leaves characters of the text, in their order. -/
theorem PyStr.rstrip_sublist (text : PyStr) : (PyStr.rstrip text).Sublist text :=
  (PyStr.prefix_rstrip text).sublist

/-- `lower` of a character, as far as it is ASCII. Past ASCII only `İ` and the Kelvin
    sign become ASCII letters, `i` and `k`. -/
def lowerAscii (c : CodePoint) : CodePoint :=
  if 0x41 ≤ c.val && c.val ≤ 0x5a then Fin.ofNat 0x110000 (c.val + 0x20) else c

/-- `str.lower`, which past ASCII is a table of the Unicode database. A text that does not end
    in white space still does not when it is lowered. -/
structure LowerTable where
  lower : PyStr → PyStr
  empty : lower [] = []
  last : ∀ text c, isSpace c = false →
    ∃ front d, lower (text ++ [c]) = front ++ [d] ∧ isSpace d = false

/-- A table that lowers ASCII letters only. -/
def LowerTable.asciiOnly : LowerTable where
  lower text := text.map lowerAscii
  empty := rfl
  last text c h := by
    refine ⟨text.map lowerAscii, lowerAscii c, by simp, ?_⟩
    unfold lowerAscii
    split
    · rename_i hupper
      simp only [Bool.and_eq_true, decide_eq_true_eq] at hupper
      simp only [isSpace, Bool.or_eq_false_iff, Bool.and_eq_false_iff, decide_eq_false_iff_not,
        Fin.ofNat]
      omega
    · exact h

/-- `needle in text`. -/
def PyStr.isIn (needle : PyStr) : PyStr → Bool
  | [] => needle.isEmpty
  | c :: text => needle.isPrefixOf (c :: text) || PyStr.isIn needle text

/-- `sep.join(parts)`. -/
def PyStr.join (sep : PyStr) : List PyStr → PyStr
  | [] => []
  | [part] => part
  | part :: parts => part ++ sep ++ PyStr.join sep parts

/-- `text.split(sep)`, after `skip` characters of a separator. -/
def PyStr.splitFrom (sep : PyStr) : Nat → PyStr → List PyStr
  | _, [] => [[]]
  | skip + 1, _ :: text => PyStr.splitFrom sep skip text
  | 0, c :: text =>
    if sep.isPrefixOf (c :: text) then [] :: PyStr.splitFrom sep (sep.length - 1) text
    else
      match PyStr.splitFrom sep 0 text with
      | [] => [[c]]
      | part :: parts => (c :: part) :: parts

/-- `text.split(sep)`. -/
def PyStr.splitOn (sep text : PyStr) : List PyStr := PyStr.splitFrom sep 0 text

/-- Texts joined with the same others are the same when what is joined is. -/
theorem PyStr.join_cancel (sep : PyStr) (before after : List PyStr) {a b : PyStr}
    (h : PyStr.join sep (before ++ a :: after) = PyStr.join sep (before ++ b :: after)) : a = b := by
  induction before with
  | nil =>
    cases after with
    | nil => exact h
    | cons next after => simpa [PyStr.join] using h
  | cons part before ih =>
    apply ih
    cases before with
    | nil => simpa [PyStr.join] using h
    | cons next before => simpa [PyStr.join] using h

/-- What is joined of some text is some text. -/
theorem PyStr.join_ne_nil (sep : PyStr) (before : List PyStr) {a : PyStr} (h : a ≠ []) :
    PyStr.join sep (before ++ [a]) ≠ [] := by
  induction before with
  | nil => exact h
  | cons part before ih =>
    cases before with
    | nil => simp [PyStr.join, h]
    | cons next before =>
      intro hnil
      exact ih (List.append_eq_nil_iff.mp hnil).2

/-- The pieces of joined texts are theirs, where one character separates both. -/
theorem PyStr.splitOn_join (c : CodePoint) {parts : List PyStr} (h : parts ≠ []) :
    List.splitOn c (PyStr.join [c] parts) = parts.flatMap (List.splitOn c) := by
  induction parts with
  | nil => exact absurd rfl h
  | cons part parts ih =>
    cases parts with
    | nil => exact (List.append_nil _).symm
    | cons next parts =>
      rw [PyStr.join, List.append_assoc, List.singleton_append, List.splitOn_append_cons_self,
        ih (List.cons_ne_nil _ _), List.flatMap_cons (x := part)]
      exact List.cons_ne_nil _ _

/-- Joined texts are the same when they come to the same pieces. -/
theorem PyStr.join_eq_join_iff (c : CodePoint) {parts parts' : List PyStr} (h : parts ≠ [])
    (h' : parts' ≠ []) : PyStr.join [c] parts = PyStr.join [c] parts' ↔
      parts.flatMap (List.splitOn c) = parts'.flatMap (List.splitOn c) := by
  rw [← PyStr.splitOn_join c h, ← PyStr.splitOn_join c h']
  refine ⟨congrArg _, fun heq => ?_⟩
  have hback := congrArg (List.intercalate [c]) heq
  rwa [List.intercalate_splitOn, List.intercalate_splitOn] at hback

/-! ## Characters of regular expressions -/

/-- `\w`, as far as it is ASCII. -/
def asciiWord (c : CodePoint) : Bool :=
  (0x30 ≤ c.val && c.val ≤ 0x39) || (0x41 ≤ c.val && c.val ≤ 0x5a) || c.val = 0x5f ||
    (0x61 ≤ c.val && c.val ≤ 0x7a)

/-- `\w`, which past ASCII is a table of the Unicode database. -/
structure WordTable where
  isWord : CodePoint → Bool
  ascii : ∀ c, c.val < 0x80 → isWord c = asciiWord c
  space : ∀ c, isSpace c = true → isWord c = false

/-- A table that knows no words past ASCII. -/
def WordTable.asciiOnly : WordTable where
  isWord := asciiWord
  ascii _ _ := rfl
  space c h := by
    simp only [isSpace, Bool.or_eq_true, Bool.and_eq_true, decide_eq_true_eq] at h
    simp only [asciiWord, Bool.or_eq_false_iff, Bool.and_eq_false_iff, decide_eq_false_iff_not]
    omega

/-- The character `c`, a lower-case one, under `(?i)`. Past ASCII the dotted capital and
    the dotless `i`, the long `s` and the Kelvin sign match a letter. -/
def ignoreCase (c d : CodePoint) : Bool :=
  lowerAscii d = c || (c.val = 0x69 && (d.val = 0x130 || d.val = 0x131)) ||
    (c.val = 0x73 && d.val = 0x17f) || (c.val = 0x6b && d.val = 0x212a)

/-! ## Splitting on white space -/

/-- The first word of a text, and each run of white space with the word after it. Words
    at either end may be empty. -/
def splitSpaces : PyStr → PyStr × List (PyStr × PyStr)
  | [] => ([], [])
  | c :: text =>
    match isSpace c, splitSpaces text with
    | false, (word, rest) => (c :: word, rest)
    | true, ([], (run, word) :: rest) => ([], (c :: run, word) :: rest)
    | true, (word, rest) => ([], ([c], word) :: rest)

/-- `re.split(r"(\s+)", text)`. -/
def resplit (text : PyStr) : List PyStr :=
  (splitSpaces text).1 :: (splitSpaces text).2.flatMap fun (run, word) => [run, word]

/-- `text.split()`. -/
def PyStr.words (text : PyStr) : List PyStr :=
  ((splitSpaces text).1 :: (splitSpaces text).2.map Prod.snd).filter (· ≠ [])

example : resplit (.ofString " to be ") =
    ["", " ", "to", " ", "be", " ", ""].map PyStr.ofString := by decide

/-- A word has no white space. -/
def IsWord (word : PyStr) : Prop := ∀ c ∈ word, isSpace c = false

/-- A run of white space, and not an empty one. -/
def IsRun (run : PyStr) : Prop := run ≠ [] ∧ ∀ c ∈ run, isSpace c = true

/-- `splitSpaces` parts a text into a word and runs of white space, each with a word behind it. -/
theorem splitSpaces_shape (text : PyStr) :
    IsWord (splitSpaces text).1 ∧ ∀ p ∈ (splitSpaces text).2, IsRun p.1 ∧ IsWord p.2 := by
  induction text with
  | nil => exact ⟨fun _ h => (nomatch h), fun _ h => (nomatch h)⟩
  | cons c text ih =>
    unfold splitSpaces
    obtain ⟨hword, hrest⟩ := ih
    split
    -- The character is of a word: it goes in front of the first one
    · rename_i word rest hc hsplit
      rw [hsplit] at hword hrest
      refine ⟨?_, hrest⟩
      intro d hd
      cases List.mem_cons.mp hd with
      | inl heq => rw [heq, hc]
      | inr hmem => exact hword d hmem
    -- White space behind which there is more: the run grows by it
    · rename_i run word rest hc hsplit
      rw [hsplit] at hrest
      refine ⟨fun _ h => (nomatch h), ?_⟩
      intro p hp
      cases List.mem_cons.mp hp with
      | inl heq =>
        obtain ⟨hrun, hnext⟩ := hrest (run, word) List.mem_cons_self
        rw [heq]
        refine ⟨⟨List.cons_ne_nil c run, ?_⟩, hnext⟩
        intro d hd
        cases List.mem_cons.mp hd with
        | inl heq => rw [heq, hc]
        | inr hmem => exact hrun.2 d hmem
      | inr hmem => exact hrest p (List.mem_cons_of_mem _ hmem)
    -- White space in front of a word: a run of its own
    · rename_i word rest _ hc hsplit
      rw [hsplit] at hword hrest
      refine ⟨fun _ h => (nomatch h), ?_⟩
      intro p hp
      cases List.mem_cons.mp hp with
      | inl heq =>
        rw [heq]
        refine ⟨⟨List.cons_ne_nil c [], ?_⟩, hword⟩
        intro d hd
        rw [List.mem_singleton.mp hd, hc]
      | inr hmem => exact hrest p hmem

/-- The words and the white space between them make up the text. -/
theorem splitSpaces_join (text : PyStr) :
    (splitSpaces text).1 ++ ((splitSpaces text).2.flatMap fun p => p.1 ++ p.2) = text := by
  induction text with
  | nil => rfl
  | cons c text ih =>
    unfold splitSpaces
    split
    · rename_i word rest _ hsplit
      rw [hsplit] at ih
      rw [List.cons_append, ih]
    · rename_i run word rest _ hsplit
      rw [hsplit] at ih
      simpa using ih
    · rename_i word rest _ _ hsplit
      rw [hsplit] at ih
      simpa using ih

end PyJson
