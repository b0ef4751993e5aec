import NexaAssist.Core.Logging
import NexaAssist.ForStd.TracedMatches

/-!
# Where the four patterns find a credential

Each pattern of `SECRET_PATTERNS` runs over what the ones before it have left. What it drops is told
here on the input: `InGroqKey`, `InToken`, `InPassword` and `InValue` say of a position whether
`groqKey`, `bearer`, `url` or `apiKey` drops its character. The first two patterns are followed in
this module, the others in `CredentialMatches`.

## Key results

- `laid_groqKey`: what `groqKey` leaves of a text
- `token_of_find`, `find_of_token`: the matches of `bearer` are the tokens of the input
- `laid_bearer`: what `bearer` leaves of that
-/

namespace NexaAssist.Spec.CredentialPlaces

open NexaAssist PyJson
open Regex (classAt atBoundary Spans)

/-! ## Classes -/

/-- `[A-Za-z0-9_\-]`. -/
def isKeyChar (c : CodePoint) : Bool := SecretPattern.isAlnum c || SecretPattern.isOneOf "_-" c

/-- `[A-Za-z0-9._\-]` under `(?i)`. -/
def isTokenChar (c : CodePoint) : Bool :=
  SecretPattern.isAlnum c || SecretPattern.foldsToLetter c || SecretPattern.isOneOf "._-" c

/-- `[a-z]` under `(?i)`. -/
def isSchemeStart (c : CodePoint) : Bool :=
  (SecretPattern.isAlnum c && !(0x30 ≤ c.val && c.val ≤ 0x39)) || SecretPattern.foldsToLetter c

/-- `[a-z0-9+.\-]` under `(?i)`. -/
def isSchemeChar (c : CodePoint) : Bool :=
  SecretPattern.isAlnum c || SecretPattern.foldsToLetter c || SecretPattern.isOneOf "+.-" c

/-- `[^\s:/@]`. -/
def isUserChar (c : CodePoint) : Bool := !isSpace c && !SecretPattern.isOneOf ":/@" c

/-- `[^\s@/]`. -/
def isPasswordChar (c : CodePoint) : Bool := !isSpace c && !SecretPattern.isOneOf "@/" c

/-- `[A-Za-z0-9_-]` under `(?i)`. -/
def isNameChar (c : CodePoint) : Bool :=
  SecretPattern.isAlnum c || SecretPattern.foldsToLetter c || SecretPattern.isOneOf "_-" c

/-- `\S`. -/
def isSolid (c : CodePoint) : Bool := !isSpace c

/-- `[:=]`. -/
def isEquals : CodePoint → Bool := SecretPattern.isOneOf ":="

/-- From `a` to `b` all characters are of a class. -/
def Run (inClass : CodePoint → Bool) (text : PyStr) (a b : Nat) : Prop :=
  ∀ x, a ≤ x → x < b → classAt inClass text x = true

/-! ## Places -/

section Places

variable (word : WordTable) (text : PyStr)

/-- Position `x` is in a Groq key. -/
def InGroqKey (x : Nat) : Prop :=
  ∃ i k, Spans (fun _ => True) text SecretPattern.groqKey.dropped i k ∧ i ≤ x ∧ x < k

/-- A bearer token from `i` to `l`, as far as it goes, that no Groq key is a part of. -/
structure Token (i l : Nat) : Prop where
  spans : Spans (atBoundary word.isWord text · = true) text SecretPattern.bearer.dropped i l
  free : ∀ x, i ≤ x → x < l → ¬InGroqKey text x
  ends : classAt isTokenChar text l = true → InGroqKey text l

/-- Position `x` is in a bearer token that does not begin in one before it. -/
def InToken (x : Nat) : Prop := ∃ i l, Leftmost (Token word text) i l ∧ i ≤ x ∧ x < l

/-- A URL from `s` on: its scheme goes up to `c`, the user name from there to `u`, and the password
    from there to `b`. -/
structure Parts (s c u b : Nat) : Prop where
  start : classAt isSchemeStart text s = true
  lt : s < c
  scheme : Run isSchemeChar text (s + 1) c
  colon : text[c]? = some 0x3a
  slash : text[c + 1]? = some 0x2f
  slash' : text[c + 2]? = some 0x2f
  userLt : c + 3 < u
  user : Run isUserChar text (c + 3) u
  colon' : text[u]? = some 0x3a
  passwordLt : u + 1 < b
  password : Run isPasswordChar text (u + 1) b
  atSign : text[b]? = some 0x40

/-- A URL as `url` sees it, to which the end of a mark is of no word. -/
structure Url (s c u b : Nat) : Prop where
  parts : Parts text s c u b
  boundary : classAt word.isWord text s = true ↔ ¬(0 < s ∧
    ¬(InGroqKey text (s - 1) ∨ InToken word text (s - 1)) ∧
      classAt word.isWord text (s - 1) = true)
  free : ∀ x, s ≤ x → x < c → ¬(InGroqKey text x ∨ InToken word text x)

/-- Position `x` is in the password of a URL. -/
def InPassword (x : Nat) : Prop := ∃ s c u b, Url word text s c u b ∧ u < x ∧ x < b

/-- A value from `v` to `l` as `apiKey` sees it, whose name begins at `m`. -/
structure Assignment (m v l : Nat) : Prop where
  name : Spans (fun _ => True) text SecretPattern.apiKey.kept m v
  free : ∀ x, m ≤ x → x < v →
    ¬(InGroqKey text x ∨ InToken word text x ∨ InPassword word text x)
  lt : v < l
  value : Run isSolid text v l
  ends : classAt isSolid text l = false

/-- Position `x` is in a value whose name does not begin in an assignment before it. -/
def InValue (x : Nat) : Prop :=
  ∃ m v l, Assignment word text m v l ∧
    Leftmost (fun m l => ∃ v, Assignment word text m v l) m l ∧ v ≤ x ∧ x < l

/-- Position `x` is in one of the four places. -/
def Covered (x : Nat) : Prop :=
  InGroqKey text x ∨ InToken word text x ∨ InPassword word text x ∨ InValue word text x

end Places

/-! ## The first pattern -/

/-- What the first pattern cuts out. -/
def cutGroqKey (text : PyStr) (a b : Nat) (mark : PyStr) : Prop :=
  mark = REDACTED ∧ Spans (fun _ => True) text SecretPattern.groqKey.dropped a b

/-- What has given way after the first pattern is in a Groq key. -/
theorem covers_cutGroqKey {text : PyStr} {x : Nat} :
    List.Covers (cutGroqKey text) x ↔ InGroqKey text x := by
  constructor
  · rintro ⟨i, k, mark, ⟨-, hspans⟩, hi, hk⟩
    exact ⟨i, k, hspans, hi, hk⟩
  · rintro ⟨i, k, hspans, hi, hk⟩
    exact ⟨i, k, REDACTED, ⟨rfl, hspans⟩, hi, hk⟩

section GroqKey

variable {word : CodePoint → Bool} {text : PyStr} {i j k l x : Nat}

/-- A literal, letter by letter. -/
theorem spans_literal {cut : Nat → Prop} {letters : String} :
    Spans cut text (SecretPattern.literal letters) i j ↔
      j = i + (PyStr.ofString letters).length ∧
        ∀ n d, (PyStr.ofString letters)[n]? = some d → text[i + n]? = some d := by
  have hfold : Spans cut text (SecretPattern.literal letters) i j ↔
      j = i + (PyStr.ofString letters).length ∧ ∀ n d, (PyStr.ofString letters)[n]? = some d →
        ∃ c, text[i + n]? = some c ∧ decide (c = d) = true :=
    Regex.spans_foldr_one (f := fun d c => decide (c = d))
  simpa using hfold

/-- A class that is repeated is a run. -/
theorem spans_atLeast {cut : Nat → Prop} {inClass : CodePoint → Bool} {n : Nat} :
    Spans cut text (.atLeast n inClass) i j ↔ i + n ≤ j ∧ Run inClass text i j := by
  rw [Regex.spans_atLeast]
  simp only [Run, Regex.classAt_iff]

/-- `gsk_`, then at least eight characters of a key. -/
theorem spans_groqKey {cut : Nat → Prop} :
    Spans cut text SecretPattern.groqKey.dropped i k ↔
      (∀ n d, (PyStr.ofString "gsk_")[n]? = some d → text[i + n]? = some d) ∧ i + 12 ≤ k ∧
        Run isKeyChar text (i + 4) k := by
  constructor
  · rintro ⟨j, hj, l, hl, rfl⟩
    obtain ⟨rfl, hfront⟩ := spans_literal.mp hj
    obtain ⟨hle, hall⟩ := spans_atLeast.mp hl
    exact ⟨hfront, hle, hall⟩
  · rintro ⟨hfront, hle, hall⟩
    exact ⟨i + 4, spans_literal.mpr ⟨rfl, hfront⟩, k, spans_atLeast.mpr ⟨hle, hall⟩, rfl⟩

/-- Every character of a match is one of a key. -/
theorem run_groqKey {cut : Nat → Prop} (h : Spans cut text SecretPattern.groqKey.dropped i k) :
    Run isKeyChar text i k := by
  obtain ⟨hfront, -, hall⟩ := spans_groqKey.mp h
  intro x hi hk
  rcases Nat.lt_or_ge x (i + 4) with hlt | hge
  · obtain ⟨n, rfl⟩ := Nat.exists_eq_add_of_le hi
    have hkey : ∀ n < 4, ((PyStr.ofString "gsk_")[n]?).any isKeyChar = true := by decide
    obtain ⟨d, hd, hclass⟩ := (Option.any_eq_true _ _).mp (hkey n (by omega))
    exact Regex.classAt_iff.mpr ⟨d, hfront n d hd, hclass⟩
  · exact hall x hge hk

/-- A repetition at the end of an expression goes on for as long as the class does. -/
theorem classAt_of_head?_last {inClass : CodePoint → Bool} {n : Nat}
    (h : (Regex.tries word text (SecretPattern.inOrder [.atLeast n inClass]) i).head? = some k) :
    classAt inClass text k = false := by
  have h : ((Regex.tries word text (.atLeast n inClass) i).flatMap fun k => [k]).head? = some k := h
  rw [List.flatMap_singleton'] at h
  exact Regex.classAt_of_head?_atLeast h

/-- A match goes on for as long as the characters are of a key. -/
theorem find_groqKey (h : SecretPattern.groqKey.find word text i = some (j, k, l)) :
    j = i ∧ l = k ∧ Spans (fun _ => True) text SecretPattern.groqKey.dropped i k ∧
      classAt isKeyChar text k = false := by
  obtain ⟨rfl, hspans, rfl⟩ := Regex.Rewrite.spans_of_find h
  refine ⟨rfl, rfl, ?_, ?_⟩
  · exact spans_groqKey.mpr (spans_groqKey.mp hspans)
  · obtain ⟨m, -, hm⟩ := Regex.exists_head?_of_flatMap (Regex.Rewrite.head?_of_find rfl h).2
    exact classAt_of_head?_last hm

/-- A key that begins in a position of a match goes no further than the match does. -/
theorem drops_groqKey_iff :
    SecretPattern.groqKey.Drops word text x ↔ InGroqKey text x := by
  constructor
  · rintro ⟨i, j, k, l, hfind, -, hj, hk⟩
    obtain ⟨rfl, rfl, hspans, -⟩ := find_groqKey hfind
    exact ⟨j, l, hspans, hj, hk⟩
  · rintro ⟨i, k, hspans, hi, hk⟩
    obtain ⟨⟨j, k', l⟩, hfind⟩ : ∃ found, SecretPattern.groqKey.find word text i = some found :=
      Regex.Rewrite.find_isSome rfl (spans_groqKey.mpr (spans_groqKey.mp hspans)) rfl
    obtain ⟨rfl, rfl, -, hend⟩ := find_groqKey hfind
    -- A made match from there or before it goes on to the end of the run
    have hpast : ∀ i' j' k' l', i' ≤ j → SecretPattern.groqKey.find word text i' = some (j', k', l') →
        j < l' → k ≤ l' := by
      intro i' j' k' l' hi' hfind' hl'
      obtain ⟨rfl, rfl, -, hend'⟩ := find_groqKey hfind'
      by_contra hshort
      rw [run_groqKey hspans l' (by omega) (by omega)] at hend'
      cases hend'
    have hlong := (spans_groqKey.mp hspans).2.1
    have hfound : SecretPattern.groqKey.Found word text j l := ⟨j, l, hfind⟩
    rcases Leftmost.or_within hfound with hmade | ⟨i', hlt, l', hmade, hl'⟩
    · have hend' : k ≤ l := by
        by_contra hshort
        obtain ⟨-, -, hspans', -⟩ := find_groqKey hfind
        have hlong' := (spans_groqKey.mp hspans').2.1
        rw [run_groqKey hspans l (by omega) (by omega)] at hend
        cases hend
      exact ⟨j, j, l, l, hfind, hmade, hi, by omega⟩
    · obtain ⟨j', k', hfind'⟩ := hmade.isFound
      have hend' := hpast i' j' k' l' hlt.le hfind' hl'
      obtain ⟨rfl, rfl, -, -⟩ := find_groqKey hfind'
      exact ⟨j', j', l', l', hfind', hmade, by omega, by omega⟩

end GroqKey

/-- In a traced text a character is at its own position. -/
theorem getElem?_trace_eq {text : PyStr} {y x : Nat} {c : CodePoint}
    (h : (List.trace text)[y]? = some (c, some x)) : y = x ∧ text[x]? = some c := by
  rw [List.getElem?_trace, Option.map_eq_some_iff] at h
  obtain ⟨d, hd, heq⟩ := h
  rw [Prod.mk.injEq, Option.some.injEq] at heq
  obtain ⟨rfl, rfl⟩ := heq
  exact ⟨rfl, hd⟩

/-- The first pattern cuts out the Groq keys. -/
theorem laid_groqKey (word : CodePoint → Bool) (text : PyStr) :
    List.Laid text (cutGroqKey text) 0 (SecretPattern.groqKey.subTraced word (List.trace text)) := by
  have htrace : List.Laid text (fun _ _ _ => False) 0 (List.trace text) :=
    List.laid_trace fun _ _ _ => id
  refine htrace.subTraced (by decide) (fun _ _ _ => False.elim) ?_ ?_ ?_ ?_
  · intro y c hy
    rw [List.getElem?_trace, Option.map_eq_some_iff] at hy
    obtain ⟨d, -, heq⟩ := hy
    cases (Prod.mk.inj heq).2
  · intro i j k l hfind
    rw [List.map_fst_trace] at hfind
    obtain ⟨rfl, rfl, hspans, -⟩ := find_groqKey hfind
    have := (spans_groqKey.mp hspans).2.1
    omega
  · intro y c x hy hkept hcovers
    obtain ⟨rfl, hat⟩ := getElem?_trace_eq hy
    rw [List.map_fst_trace, drops_groqKey_iff] at hkept
    exact hkept (covers_cutGroqKey.mp hcovers)
  · intro i j k l c x hy hfind _
    obtain ⟨rfl, hat⟩ := getElem?_trace_eq hy
    rw [List.map_fst_trace] at hfind
    obtain ⟨rfl, rfl, hspans, -⟩ := find_groqKey hfind
    have hlong := (spans_groqKey.mp hspans).2.1
    refine ⟨j, l, l, ⟨rfl, hspans⟩, by omega, ?_, fun rest h => by simpa using h,
      fun rest h => by simpa using h⟩
    -- The text goes on behind the last character of the key
    obtain ⟨d, hd, -⟩ := Regex.classAt_iff.mp (run_groqKey hspans (l - 1) (by omega) (by omega))
    have hlast : (List.trace text)[l - 1]? = some (d, some (l - 1)) := by
      rw [List.getElem?_trace, hd]
      rfl
    have hbehind := (htrace.behind hlast).2
    rwa [Nat.sub_add_cancel (by omega)] at hbehind

/-! ## The second pattern -/

/-- `bearer`, but for the boundary. -/
def bearerBody : Regex CodePoint :=
  SecretPattern.inOrder [SecretPattern.literalIgnoreCase "bearer", .some1 isSpace,
    .atLeast 8 isTokenChar]

section Bearer

variable {word : WordTable} {text : PyStr} {i j k l x y : Nat}

/-- `+` is a run that is not empty. -/
theorem spans_some1 {cut : Nat → Prop} {inClass : CodePoint → Bool} :
    Spans cut text (.some1 inClass) i j ↔ i < j ∧ Run inClass text i j := by
  have hone : Spans cut text (.atLeast 1 inClass) i j ↔ i + 1 ≤ j ∧ Run inClass text i j :=
    spans_atLeast
  exact hone

/-- `bearer` is a boundary and the rest. -/
theorem spans_bearer {cut : Nat → Prop} :
    Spans cut text SecretPattern.bearer.dropped i l ↔ cut i ∧ Spans cut text bearerBody i l := by
  constructor
  · rintro ⟨j, ⟨rfl, hcut⟩, hbody⟩
    exact ⟨hcut, hbody⟩
  · rintro ⟨hcut, hbody⟩
    exact ⟨i, ⟨rfl, hcut⟩, hbody⟩

/-- The rest is six letters, white space, and at least eight characters of a token. -/
theorem spans_bearerBody {cut : Nat → Prop} :
    Spans cut text bearerBody i l ↔
      (∀ n d, (PyStr.ofString "bearer")[n]? = some d →
        ∃ c, text[i + n]? = some c ∧ ignoreCase d c = true) ∧
      ∃ a, i + 6 < a ∧ Run isSpace text (i + 6) a ∧ a + 8 ≤ l ∧ Run isTokenChar text a l := by
  constructor
  · rintro ⟨b, hletters, a, hblank, l, hchars, rfl⟩
    obtain ⟨rfl, hall⟩ := Regex.spans_foldr_one.mp hletters
    obtain ⟨hlt, hrun⟩ := spans_some1.mp hblank
    obtain ⟨hle, htoken⟩ := spans_atLeast.mp hchars
    exact ⟨hall, a, hlt, hrun, hle, htoken⟩
  · rintro ⟨hall, a, hlt, hrun, hle, htoken⟩
    exact ⟨i + 6, Regex.spans_foldr_one.mpr ⟨rfl, hall⟩, a, spans_some1.mpr ⟨hlt, hrun⟩, l,
      spans_atLeast.mpr ⟨hle, htoken⟩, rfl⟩

end Bearer

/-! ### Classes -/

/-- A letter under `(?i)`. -/
theorem val_of_ignoreCase {d c : CodePoint} (h : ignoreCase d c = true) :
    c.val = d.val ∨ (0x41 ≤ c.val ∧ c.val ≤ 0x5a ∧ c.val + 0x20 = d.val) ∨
      SecretPattern.foldsToLetter c = true ∧ (d.val = 0x69 ∨ d.val = 0x73 ∨ d.val = 0x6b) := by
  simp only [ignoreCase, Bool.or_eq_true, Bool.and_eq_true, decide_eq_true_eq] at h
  simp only [SecretPattern.foldsToLetter, Bool.or_eq_true, decide_eq_true_eq]
  rcases h with ((h | h) | h) | h
  · unfold lowerAscii at h
    split at h
    · next hupper =>
      simp only [Bool.and_eq_true, decide_eq_true_eq] at hupper
      have hval := congrArg Fin.val h
      simp only [Fin.val_ofNat] at hval
      omega
    · exact .inl (congrArg Fin.val h)
  · omega
  · omega
  · omega

/-- A class that has the letters, the digits and some signs has no white space. -/
theorem eq_false_of_isSpace {signs : String}
    (hsigns : (PyStr.ofString signs).all (fun c => !isSpace c) = true) {c : CodePoint}
    (h : isSpace c = true) :
    (SecretPattern.isAlnum c || SecretPattern.foldsToLetter c ||
      SecretPattern.isOneOf signs c) = false := by
  have hother : SecretPattern.isOneOf signs c = false := by
    rw [← Bool.not_eq_true]
    intro hmem
    have hnot := List.all_eq_true.mp hsigns c (by simpa [SecretPattern.isOneOf] using hmem)
    rw [h] at hnot
    exact Bool.noConfusion hnot
  simp only [isSpace, Bool.or_eq_true, Bool.and_eq_true, decide_eq_true_eq] at h
  simp only [hother, SecretPattern.isAlnum, SecretPattern.foldsToLetter, asciiWord,
    Bool.or_eq_false_iff, Bool.and_eq_false_iff, decide_eq_false_iff_not, and_true]
  omega

/-- White space is of no token. -/
theorem not_isTokenChar_of_isSpace {c : CodePoint} (h : isSpace c = true) :
    isTokenChar c = false := eq_false_of_isSpace (by decide) h

/-- A position is not of two classes that have nothing in common. -/
theorem classAt_disjoint {inClass inClass' : CodePoint → Bool}
    (hno : ∀ c, inClass c = true → inClass' c = false) {text : PyStr} {x : Nat}
    (h : classAt inClass text x = true) : classAt inClass' text x = false := by
  obtain ⟨c, hc, hclass⟩ := Regex.classAt_iff.mp h
  rw [← Bool.not_eq_true]
  intro hother
  obtain ⟨d, hd, hclass'⟩ := Regex.classAt_iff.mp hother
  rw [hc, Option.some.injEq] at hd
  rw [← hd, hno c hclass] at hclass'
  exact Bool.noConfusion hclass'

/-- An expression that has no `*` matches none. -/
theorem not_mem_stars {cut : Nat → Prop} {text : PyStr} {r : Regex CodePoint} {i j x : Nat}
    (hr : r.classes.all (fun inClass => !inClass 0x2a) = true)
    (h : Spans cut text r i j) (hi : i ≤ x) (hj : x < j) :
    ∃ c, text[x]? = some c ∧ c ∉ [(0x2a : CodePoint)] := by
  obtain ⟨c, hc, inClass, hmem, hclass⟩ := h.mem_classes hi hj
  refine ⟨c, hc, fun hstar => ?_⟩
  rw [List.mem_singleton.mp hstar] at hclass
  have hnot := List.all_eq_true.mp hr inClass hmem
  rw [hclass] at hnot
  exact Bool.noConfusion hnot

section BearerMatches

variable {word : WordTable} {text : PyStr} {shown : List (CodePoint × Option Nat)}
  {i j k l x y : Nat}

/-- The mark of the first pattern begins with a `*`. -/
theorem cutGroqKey_mark {a b : Nat} {mark : PyStr} {d : CodePoint} (h : cutGroqKey text a b mark)
    (hd : mark.head? = some d) : d ∈ [(0x2a : CodePoint)] := by
  rw [h.1] at hd
  exact Option.some.inj hd ▸ List.mem_singleton_self _

/-- A boundary in front of a character of a key is one of the input. -/
theorem atBoundary_groqKey (h : List.Laid text (cutGroqKey text) 0 shown) {c : CodePoint}
    (hy : shown[y]? = some (c, some x)) (hkey : isKeyChar c = true) :
    atBoundary word.isWord (shown.map Prod.fst) y = atBoundary word.isWord text x := by
  obtain ⟨hat, hkept⟩ := h.getElem?_of_kept hy
  rcases h.before hy with ⟨rfl, rfl⟩ | ⟨d, hpos, hx, hd⟩ | ⟨a, mark, d, -, ⟨-, hspans⟩, ha, -, -⟩
  · rw [atBoundary, atBoundary, h.classAt_eq hy]
  · rw [atBoundary, atBoundary, h.classAt_eq hy, h.classAt_eq hd, decide_eq_true hpos,
      decide_eq_true hx]
  · -- the key would go on
    obtain ⟨hfront, hle, hall⟩ := spans_groqKey.mp hspans
    have hmore : Spans (fun _ => True) text SecretPattern.groqKey.dropped a (x + 1) := by
      refine spans_groqKey.mpr ⟨hfront, by omega, fun w hw hlt => ?_⟩
      rcases Nat.eq_or_lt_of_le (Nat.le_of_lt_succ hlt) with rfl | hbefore
      · exact Regex.classAt_iff.mpr ⟨c, hat, hkey⟩
      · exact hall w hw hbefore
    exact (hkept ⟨a, x + 1, REDACTED, ⟨rfl, hmore⟩, ha.le, Nat.lt_succ_self x⟩).elim

/-- A `b` is of a key and of no mark. -/
theorem ignoreCase_b {c : CodePoint} (h : ignoreCase 0x62 c = true) :
    isKeyChar c = true ∧ c ∉ REDACTED := by
  have hval : c.val = 0x62 ∨ c.val = 0x42 := by
    have hcases := val_of_ignoreCase h
    have hb : (0x62 : CodePoint).val = 0x62 := rfl
    omega
  have hc : c = 0x62 ∨ c = 0x42 := hval.imp Fin.ext Fin.ext
  rcases hc with rfl | rfl
  · exact ⟨by decide, by decide⟩
  · exact ⟨by decide, by decide⟩

/-- A match goes on for as long as the characters are of a token. -/
theorem classAt_of_find_bearer
    (hfind : SecretPattern.bearer.find word.isWord text i = some (j, k, l)) :
    classAt isTokenChar text k = false := by
  obtain ⟨a, -, ha⟩ := Regex.exists_head?_of_flatMap (Regex.Rewrite.head?_of_find rfl hfind).2
  obtain ⟨b, -, hb⟩ := Regex.exists_head?_of_flatMap ha
  obtain ⟨c, -, hc⟩ := Regex.exists_head?_of_flatMap hb
  exact classAt_of_head?_last hc

/-- A match behind the first pattern is a token of the input. -/
theorem token_of_find (h : List.Laid text (cutGroqKey text) 0 shown)
    (hfind : SecretPattern.bearer.find word.isWord (shown.map Prod.fst) y = some (j, k, l)) :
    j = y ∧ l = k ∧ ∃ x n, k = y + n ∧
      (∀ i < n, ∃ d, shown[y + i]? = some (d, some (x + i))) ∧ Token word text x (x + n) := by
  obtain ⟨rfl, hspans, rfl⟩ := Regex.Rewrite.spans_of_find hfind
  refine ⟨rfl, rfl, ?_⟩
  obtain ⟨hboundary, hbody⟩ := spans_bearer.mp hspans
  obtain ⟨hletters, a, ha, -, hle, -⟩ := spans_bearerBody.mp hbody
  obtain ⟨c, hc, hfirst⟩ := hletters 0 0x62 rfl
  obtain ⟨hkey, hmark⟩ := ignoreCase_b hfirst
  -- The first letter is of the input, and with it the rest
  obtain ⟨x, hy⟩ := h.exists_position hc fun a b mark hcut hmem => hmark (hcut.1 ▸ hmem)
  obtain ⟨n, rfl⟩ := Nat.exists_eq_add_of_lt (show y < k by omega)
  have hforward := h.forward (fun a b mark d => cutGroqKey_mark) (n := n) hy fun i hi =>
    not_mem_stars (by decide) hbody (by omega) (by omega)
  have hrun : ∀ i < n + 1, ∃ d, shown[y + i]? = some (d, some (x + i)) :=
    fun i hi => hforward i (by omega)
  refine ⟨x, n + 1, rfl, hrun, ?_, ?_, ?_⟩
  · rw [spans_bearer, ← atBoundary_groqKey h hy hkey]
    exact ⟨hboundary, (h.spans_iff (by decide) hrun (a := 0) le_rfl).mp hbody⟩
  · intro w hx hw hgroq
    obtain ⟨m, rfl⟩ := Nat.exists_eq_add_of_le hx
    obtain ⟨d, hd⟩ := hrun m (by omega)
    exact (h.getElem?_of_kept hd).2 (covers_cutGroqKey.mpr hgroq)
  -- The match is the longest, so only a key cut out behind it can hide more of the token
  · intro hmore
    obtain ⟨d, hd⟩ := hrun n (by omega)
    rcases h.after hd with ⟨-, hlength⟩ | ⟨e, he⟩ | ⟨q, mark, -, ⟨-, hcut⟩, hq, -, -⟩
    · obtain ⟨e, he, -⟩ := Regex.classAt_iff.mp hmore
      rw [List.getElem?_eq_none (by omega)] at he
      cases he
    · have hend := classAt_of_find_bearer hfind
      have hnot : classAt isTokenChar (shown.map Prod.fst) (y + (n + 1)) =
          classAt isTokenChar text (x + n + 1) := h.classAt_eq he
      exact Bool.noConfusion (hend.symm.trans (hnot.trans hmore))
    · exact ⟨_, q, hcut, le_rfl, hq⟩

/-- A token is at least fifteen characters long, with its scheme. -/
theorem Token.length_le (h : Token word text x l) : x + 15 ≤ l := by
  obtain ⟨-, a, ha, -, hle, -⟩ := spans_bearerBody.mp (spans_bearer.mp h.spans).2
  omega

/-- A token ends in one place. -/
theorem Token.unique {l' : Nat} (h : Token word text x l) (h' : Token word text x l') :
    l = l' := by
  have hle : ∀ l l', Token word text x l → Token word text x l' → l' ≤ l := by
    intro l l' h h'
    obtain ⟨-, a, ha, hblank, hle, hall⟩ := spans_bearerBody.mp (spans_bearer.mp h.spans).2
    obtain ⟨-, a', ha', hblank', hle', hall'⟩ := spans_bearerBody.mp (spans_bearer.mp h'.spans).2
    -- The blanks of both end together
    have haa : a = a' := by
      rcases Nat.lt_trichotomy a a' with hlt | heq | hlt
      · have hspace := classAt_disjoint (fun c => not_isTokenChar_of_isSpace)
          (hblank' a (by omega) hlt)
        rw [hall a le_rfl (by omega)] at hspace
        exact Bool.noConfusion hspace
      · exact heq
      · have hspace := classAt_disjoint (fun c => not_isTokenChar_of_isSpace)
          (hblank a' (by omega) hlt)
        rw [hall' a' le_rfl (by omega)] at hspace
        exact Bool.noConfusion hspace
    by_contra hshort
    exact h'.free l (by omega) (by omega) (h.ends (hall' l (by omega) (by omega)))
  exact Nat.le_antisymm (hle l' l h' h) (hle l l' h h')

/-- A token of the input is a match behind the first pattern. -/
theorem find_of_token (h : List.Laid text (cutGroqKey text) 0 shown) {e : Nat}
    (htoken : Token word text x e) : ∃ y n, e = x + n ∧
      SecretPattern.bearer.find word.isWord (shown.map Prod.fst) y = some (y, y + n, y + n) ∧
        ∀ i < n, ∃ d, shown[y + i]? = some (d, some (x + i)) := by
  obtain ⟨hboundary, hbody⟩ := spans_bearer.mp htoken.spans
  obtain ⟨hletters, -⟩ := spans_bearerBody.mp hbody
  obtain ⟨c, hc, hfirst⟩ := hletters 0 0x62 rfl
  obtain ⟨hkey, -⟩ := ignoreCase_b hfirst
  have hlong := htoken.length_le
  obtain ⟨n, rfl⟩ := Nat.exists_eq_add_of_lt (show x < e by omega)
  have hkept : ∀ i ≤ n, x + i < text.length ∧ ¬List.Covers (cutGroqKey text) (x + i) := by
    intro i hi
    obtain ⟨d, hd, -⟩ := hbody.mem_classes (x := x + i) (by omega) (by omega)
    exact ⟨(List.getElem?_eq_some_iff.mp hd).1, fun hcovers =>
      htoken.free (x + i) (by omega) (by omega) (covers_cutGroqKey.mp hcovers)⟩
  obtain ⟨y, hy⟩ := h.exists_kept (Nat.zero_le x) hc (hkept 0 (Nat.zero_le n)).2
  have hrun : ∀ i < n + 1, ∃ d, shown[y + i]? = some (d, some (x + i)) :=
    fun i hi => h.run hy hkept i (by omega)
  have hspans : Spans (atBoundary word.isWord (shown.map Prod.fst) · = true)
      (shown.map Prod.fst) SecretPattern.bearer.dropped y (y + (n + 1)) := by
    rw [spans_bearer, atBoundary_groqKey h hy hkey]
    exact ⟨hboundary, (h.spans_iff (by decide) hrun (a := 0) le_rfl).mpr hbody⟩
  obtain ⟨⟨j, k, l⟩, hfind⟩ : ∃ found,
      SecretPattern.bearer.find word.isWord (shown.map Prod.fst) y = some found :=
    Regex.Rewrite.find_isSome rfl hspans rfl
  obtain ⟨rfl, rfl, x', n', rfl, hrun', htoken'⟩ := token_of_find h hfind
  -- What is read there is the token again
  obtain ⟨d, hd⟩ := hrun' 0 (by have := htoken'.length_le; omega)
  obtain ⟨d', hd'⟩ := hrun 0 (by omega)
  rw [hd, Option.some.injEq, Prod.mk.injEq, Option.some.injEq] at hd'
  obtain rfl : x' = x := by omega
  have hlength := htoken'.unique htoken
  obtain rfl : n' = n + 1 := by omega
  exact ⟨j, n + 1, rfl, hfind, hrun⟩

/-- A token from `x` is matched at `y`. -/
structure SameToken (word : WordTable) (text : PyStr) (shown : List (CodePoint × Option Nat))
    (y l x e : Nat) : Prop where
  find : SecretPattern.bearer.find word.isWord (shown.map Prod.fst) y = some (y, l, l)
  token : Token word text x e
  run : ∃ n, l = y + n ∧ e = x + n ∧ ∀ i < n, ∃ d, shown[y + i]? = some (d, some (x + i))

/-- The tokens are the matches, and are made alike. -/
theorem SameToken.leftmost_iff (h : List.Laid text (cutGroqKey text) 0 shown) {e : Nat}
    (hsame : SameToken word text shown y l x e) :
    Leftmost (SecretPattern.bearer.Found word.isWord (shown.map Prod.fst)) y l ↔
      Leftmost (Token word text) x e := by
  refine Leftmost.transfer (SameToken word text shown) ?_ ?_
    (fun y l x e hsame => ⟨⟨y, l, hsame.find⟩, hsame.token⟩) ?_ y l x e hsame
  · rintro y l ⟨j, k, hfind⟩
    obtain ⟨rfl, rfl, x, n, hn, hrun, htoken⟩ := token_of_find h hfind
    exact ⟨x, x + n, hfind, htoken, n, hn, rfl, hrun⟩
  · intro x e htoken
    obtain ⟨y, n, hn, hfind, hrun⟩ := find_of_token h htoken
    exact ⟨y, y + n, hfind, htoken, n, rfl, hn, hrun⟩
  · intro y l x e y' l' x' e' hsame hsame'
    obtain ⟨n, rfl, rfl, hrun⟩ := hsame.run
    obtain ⟨n', rfl, rfl, hrun'⟩ := hsame'.run
    have hlong := hsame.token.length_le
    have hlong' := hsame'.token.length_le
    obtain ⟨c, hc⟩ := hrun 0 (by omega)
    obtain ⟨c', hc'⟩ := hrun' 0 (by omega)
    obtain ⟨d, hd⟩ := hrun (n - 1) (by omega)
    have hstart := h.lt_iff hc hc'
    have hend := h.lt_iff hd hc'
    omega

/-- `bearer` drops the tokens. -/
theorem drops_bearer_iff (h : List.Laid text (cutGroqKey text) 0 shown) {c : CodePoint}
    (hy : shown[y]? = some (c, some x)) :
    SecretPattern.bearer.Drops word.isWord (shown.map Prod.fst) y ↔ InToken word text x := by
  constructor
  · rintro ⟨i, j, k, l, hfind, hmade, hj, hk⟩
    obtain ⟨rfl, rfl, x', n, rfl, hrun, htoken⟩ := token_of_find h hfind
    obtain ⟨m, rfl⟩ := Nat.exists_eq_add_of_le hj
    obtain ⟨d, hd⟩ := hrun m (by omega)
    rw [hy, Option.some.injEq, Prod.mk.injEq, Option.some.injEq] at hd
    have hsame : SameToken word text shown j (j + n) x' (x' + n) :=
      ⟨hfind, htoken, n, rfl, rfl, hrun⟩
    exact ⟨x', x' + n, (hsame.leftmost_iff h).mp hmade, by omega, by omega⟩
  · rintro ⟨x', e, hmade, hle, hlt⟩
    obtain ⟨y', n, rfl, hfind, hrun⟩ := find_of_token h hmade.isFound
    obtain ⟨m, rfl⟩ := Nat.exists_eq_add_of_le hle
    obtain ⟨d, hd⟩ := hrun m (by omega)
    obtain rfl := h.eq_of_kept hy hd
    have hsame : SameToken word text shown y' (y' + n) x' (x' + n) :=
      ⟨hfind, hmade.isFound, n, rfl, rfl, hrun⟩
    exact ⟨y', y', y' + n, y' + n, hfind, (hsame.leftmost_iff h).mpr hmade, by omega, by omega⟩

/-- What the first two patterns cut out. -/
def cutToken (word : WordTable) (text : PyStr) (a b : Nat) (mark : PyStr) : Prop :=
  cutGroqKey text a b mark ∨ mark = SecretPattern.bearerMark ∧ Leftmost (Token word text) a b

/-- What has given way after two patterns is in one of two places. -/
theorem covers_cutToken :
    List.Covers (cutToken word text) x ↔ InGroqKey text x ∨ InToken word text x := by
  rw [← covers_cutGroqKey]
  constructor
  · rintro ⟨a, b, mark, hcut | ⟨-, hmade⟩, ha, hb⟩
    · exact .inl ⟨a, b, mark, hcut, ha, hb⟩
    · exact .inr ⟨a, b, hmade, ha, hb⟩
  · rintro (⟨a, b, mark, hcut, ha, hb⟩ | ⟨a, b, hmade, ha, hb⟩)
    · exact ⟨a, b, mark, .inl hcut, ha, hb⟩
    · exact ⟨a, b, SecretPattern.bearerMark, .inr ⟨rfl, hmade⟩, ha, hb⟩

/-- The second pattern cuts out the tokens as well. -/
theorem laid_bearer (h : List.Laid text (cutGroqKey text) 0 shown) :
    List.Laid text (cutToken word text) 0 (SecretPattern.bearer.subTraced word.isWord shown) := by
  refine h.subTraced (by decide) (fun _ _ _ => .inl) ?_ ?_ ?_ ?_
  -- No match begins at a character of a mark
  · intro y c hy
    cases hfind : SecretPattern.bearer.find word.isWord (shown.map Prod.fst) y with
    | none => rfl
    | some found =>
      obtain ⟨j, k, l⟩ := found
      obtain ⟨rfl, rfl, x, n, rfl, hrun, htoken⟩ := token_of_find h hfind
      obtain ⟨d, hd⟩ := hrun 0 (by have := htoken.length_le; omega)
      rw [Nat.add_zero, hy] at hd
      cases hd
  -- A match is not empty
  · intro i j k l hfind
    obtain ⟨rfl, rfl, x, n, rfl, hrun, htoken⟩ := token_of_find h hfind
    have := htoken.length_le
    omega
  -- A character that is kept is in no token
  · intro y c x hy hkept hcovers
    rw [drops_bearer_iff h hy] at hkept
    have hnot := (h.getElem?_of_kept hy).2
    rw [covers_cutGroqKey] at hnot
    exact (covers_cutToken.mp hcovers).elim hnot hkept
  -- What is cut out is one whole token
  · intro y j k l c x hy hfind hmade
    obtain ⟨rfl, rfl, x', n, rfl, hrun, htoken⟩ := token_of_find h hfind
    have hlong := htoken.length_le
    obtain ⟨d, hd⟩ := hrun 0 (by omega)
    rw [Nat.add_zero, hy, Option.some.injEq, Prod.mk.injEq, Option.some.injEq] at hd
    obtain rfl : x = x' := hd.2
    have hsame : SameToken word text shown j (j + n) x (x + n) :=
      ⟨hfind, htoken, n, rfl, rfl, hrun⟩
    refine ⟨x, x + n, x + n, .inr ⟨rfl, (hsame.leftmost_iff h).mp hmade⟩, by omega, ?_,
      fun rest h => by simpa using h, fun rest h => by simpa using h⟩
    obtain ⟨d, hd⟩ := hrun (n - 1) (by omega)
    have hbehind := (h.behind hd).2
    rwa [show x + (n - 1) + 1 = x + n by omega, show j + (n - 1) + 1 = j + n by omega] at hbehind

end BearerMatches

end NexaAssist.Spec.CredentialPlaces
