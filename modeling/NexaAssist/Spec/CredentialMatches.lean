import NexaAssist.Spec.CredentialPlaces

/-!
# What the four patterns leave of a text

`url` runs over a text with marks in place of the Groq keys and the tokens, and `apiKey` over one in
which the passwords have given way as well. A user name, a password or a value may have such a mark
in it: no mark but that of a token has white space, and a token has some too. So the parts of a
URL and an assignment end where they do in the input.

## Key results

- `Parts.unique`: URLs that meet have the same password
- `laid_url`: what `url` leaves of what the first two patterns have left
- `drops_apiKey_iff`: what `apiKey` drops of that
- `left_iff`: what all four leave of a text
-/

namespace NexaAssist.Spec.CredentialPlaces

open NexaAssist PyJson
open Regex (classAt atBoundary Spans)

/-! ## The third pattern -/

section Url

variable {word : CodePoint → Bool} {text : PyStr} {i j k l x y : Nat}

/-- `://`. -/
theorem spans_slashes {cut : Nat → Prop} :
    Spans cut text (SecretPattern.literal "://") i j ↔
      j = i + 3 ∧ text[i]? = some 0x3a ∧ text[i + 1]? = some 0x2f ∧ text[i + 2]? = some 0x2f := by
  rw [spans_literal]
  constructor
  · rintro ⟨hj, hall⟩
    exact ⟨hj, hall 0 0x3a rfl, hall 1 0x2f rfl, hall 2 0x2f rfl⟩
  · rintro ⟨hj, hcolon, hslash, hslash'⟩
    refine ⟨hj, fun n d hd => ?_⟩
    have hlt : n < 3 := (List.getElem?_eq_some_iff.mp hd).1
    obtain rfl | rfl | rfl : n = 0 ∨ n = 1 ∨ n = 2 := by omega
    · exact Option.some.inj hd ▸ hcolon
    · exact Option.some.inj hd ▸ hslash
    · exact Option.some.inj hd ▸ hslash'

/-- A single sign. -/
theorem spans_sign {cut : Nat → Prop} {sign : String} {d : CodePoint}
    (hsign : PyStr.ofString sign = [d]) :
    Spans cut text (SecretPattern.literal sign) i j ↔ j = i + 1 ∧ text[i]? = some d := by
  rw [spans_literal, hsign]
  refine and_congr_right fun _ => ⟨fun hall => hall 0 d rfl, fun hat n e he => ?_⟩
  have hlt : n < 1 := (List.getElem?_eq_some_iff.mp he).1
  obtain rfl : n = 0 := by omega
  exact Option.some.inj he ▸ hat

/-- `:`. -/
theorem spans_colon {cut : Nat → Prop} :
    Spans cut text (SecretPattern.literal ":") i j ↔ j = i + 1 ∧ text[i]? = some 0x3a :=
  spans_sign rfl

/-- `@`. -/
theorem spans_at {cut : Nat → Prop} :
    Spans cut text (SecretPattern.literal "@") i j ↔ j = i + 1 ∧ text[i]? = some 0x40 :=
  spans_sign rfl

/-- `classAt` asks the character at a position. -/
theorem classAt_of_getElem? {inClass : CodePoint → Bool} {c : CodePoint}
    (h : text[x]? = some c) : classAt inClass text x = inClass c := by
  rw [classAt, h, Option.any_some]

/-- A character that is not of the class stands in no run. -/
theorem Run.lt_of_getElem? {inClass : CodePoint → Bool} {c : CodePoint} {a b : Nat}
    (h : Run inClass text a b) (hx : text[x]? = some c) (hc : inClass c = false) (hb : x < b) :
    x < a := by
  by_contra ha
  have hclass := h x (Nat.le_of_not_lt ha) hb
  rw [classAt_of_getElem? hx, hc] at hclass
  exact Bool.noConfusion hclass

/-- A match is a URL in front of which is a boundary. -/
theorem parts_of_find (hfind : SecretPattern.url.find word text y = some (j, k, l)) :
    ∃ c u, j = u + 1 ∧ l = k + 1 ∧ atBoundary word text y = true ∧ Parts text y c u k := by
  obtain ⟨⟨_, ⟨rfl, hboundary⟩, _, ⟨hstart, rfl⟩, c, hscheme, v, hslashes, u, huser, w, hcolon, hw⟩,
    hpassword, hat⟩ := Regex.Rewrite.spans_of_find hfind
  obtain rfl : w = j := hw
  obtain ⟨rfl, hc, hc1, hc2⟩ := spans_slashes.mp hslashes
  obtain ⟨hlt, hrun⟩ := spans_some1.mp huser
  obtain ⟨rfl, hu⟩ := spans_colon.mp hcolon
  obtain ⟨hlt', hrun'⟩ := spans_some1.mp hpassword
  obtain ⟨rfl, hb⟩ := spans_at.mp hat
  refine ⟨c, u, rfl, rfl, hboundary, Regex.classAt_iff.mpr hstart, hscheme.1, fun x hx hlt => ?_,
    hc, hc1, hc2, hlt, hrun, hu, hlt', hrun', hb⟩
  exact Regex.classAt_iff.mpr (hscheme.2 x hx hlt)

/-- Two URLs that meet are the same from the scheme on. -/
theorem Parts.unique {s c u b s' c' u' b' : Nat} (h : Parts text s c u b)
    (h' : Parts text s' c' u' b') (hs : s' ≤ s) (hb : s ≤ b') : c = c' ∧ u = u' ∧ b = b' := by
  have hcolon : isSchemeChar 0x3a = false := by decide
  have hcolonUser : isUserChar 0x3a = false := by decide
  have hslashUser : isUserChar 0x2f = false := by decide
  have hatPassword : isPasswordChar 0x40 = false := by decide
  have hslashPassword : isPasswordChar 0x2f = false := by decide
  -- A scheme does not begin with a sign
  have hne : ∀ x d, text[x]? = some d → isSchemeStart d = false → s ≠ x := by
    rintro x d hx hd rfl
    have hstart := h.start
    rw [classAt_of_getElem? hx, hd] at hstart
    exact Bool.noConfusion hstart
  have hlt := h.lt
  have hlt' := h'.lt
  have huser := h.userLt
  have huser' := h'.userLt
  have hpassword := h.passwordLt
  have hpassword' := h'.passwordLt
  have hnc := hne _ _ h'.colon (by decide)
  have hnc1 := hne _ _ h'.slash (by decide)
  have hnc2 := hne _ _ h'.slash' (by decide)
  have hnu := hne _ _ h'.colon' (by decide)
  have hnb := hne _ _ h'.atSign (by decide)
  -- The inner URL begins inside the scheme of the outer one
  have hsc : s < c' := by
    by_contra hpast
    rcases Nat.lt_trichotomy s u' with hsu | hsu | hsu
    · -- in the user name there is no colon, and behind the one at its end no slash
      rcases Nat.lt_trichotomy c u' with hcu | rfl | hcu
      · have := h'.user.lt_of_getElem? h.colon hcolonUser hcu
        omega
      · have := h'.password.lt_of_getElem? h.slash hslashPassword (by omega)
        omega
      · have := h.scheme.lt_of_getElem? h'.colon' hcolon hcu
        omega
    · exact hnu hsu
    · -- in the password there is no slash
      rcases Nat.lt_trichotomy (c + 1) b' with hcb | heq | hcb
      · have := h'.password.lt_of_getElem? h.slash hslashPassword hcb
        omega
      · exact absurd (h.slash.symm.trans (heq ▸ h'.atSign)) (by decide)
      · rcases Nat.eq_or_lt_of_le (Nat.le_of_lt_succ hcb) with heq | hmore
        · exact absurd (h.colon.symm.trans (heq ▸ h'.atSign)) (by decide)
        · have := h.scheme.lt_of_getElem? h'.atSign (by decide) hmore
          omega
  -- There is no colon inside a scheme
  obtain rfl : c = c' := by
    rcases Nat.lt_trichotomy c c' with hcc | heq | hcc
    · have := h'.scheme.lt_of_getElem? h.colon hcolon hcc
      omega
    · exact heq
    · have := h.scheme.lt_of_getElem? h'.colon hcolon hcc
      omega
  -- Nor inside a user name
  obtain rfl : u = u' := by
    rcases Nat.lt_trichotomy u u' with huu | heq | huu
    · have := h'.user.lt_of_getElem? h.colon' hcolonUser huu
      omega
    · exact heq
    · have := h.user.lt_of_getElem? h'.colon' hcolonUser huu
      omega
  refine ⟨rfl, rfl, ?_⟩
  -- Nor an at sign inside a password
  rcases Nat.lt_trichotomy b b' with hbb | heq | hbb
  · have := h'.password.lt_of_getElem? h.atSign hatPassword hbb
    omega
  · exact heq
  · have := h.password.lt_of_getElem? h'.atSign hatPassword hbb
    omega

/-- A URL in front of which is a boundary is a match. -/
theorem find_of_parts {c u b : Nat} (h : Parts text y c u b)
    (hboundary : atBoundary word text y = true) :
    SecretPattern.url.find word text y = some (u + 1, b, b + 1) := by
  have hkept : Spans (atBoundary word text · = true) text SecretPattern.url.kept y (u + 1) :=
    ⟨y, ⟨rfl, hboundary⟩, y + 1, ⟨Regex.classAt_iff.mp h.start, rfl⟩, c,
      ⟨h.lt, fun x hx hlt => Regex.classAt_iff.mp (h.scheme x hx hlt)⟩, c + 3,
      spans_slashes.mpr ⟨rfl, h.colon, h.slash, h.slash'⟩, u,
      spans_some1.mpr ⟨h.userLt, h.user⟩, u + 1, spans_colon.mpr ⟨rfl, h.colon'⟩, rfl⟩
  have hdropped : Spans (atBoundary word text · = true) text SecretPattern.url.dropped (u + 1) b :=
    spans_some1.mpr ⟨h.passwordLt, h.password⟩
  obtain ⟨⟨j, k, l⟩, hfind⟩ : ∃ found, SecretPattern.url.find word text y = some found :=
    Regex.Rewrite.find_isSome hkept hdropped (spans_at.mpr ⟨rfl, h.atSign⟩)
  obtain ⟨c', u', rfl, rfl, -, h'⟩ := parts_of_find hfind
  have := h'.lt
  have := h'.userLt
  have := h'.passwordLt
  obtain ⟨-, rfl, rfl⟩ := h.unique h' le_rfl (by omega)
  exact hfind

end Url

section Passwords

variable {word : WordTable} {text : PyStr} {shown : List (CodePoint × Option Nat)}
  {i j k l x y : Nat}

/-- Behind the six letters of a token is white space. -/
theorem isSpace_of_spans_bearerBody {cut : Nat → Prop} {a b : Nat}
    (h : Spans cut text bearerBody a b) : a + 6 < b ∧ classAt isSpace text (a + 6) = true := by
  obtain ⟨-, m, hm, hblank, hle, -⟩ := spans_bearerBody.mp h
  exact ⟨by omega, hblank (a + 6) le_rfl hm⟩

/-- To a class without white space that has the characters of a key, the marks are as what they are
    in place of. -/
theorem cutToken_alike {inClass : CodePoint → Bool}
    (hspace : ∀ c, isSpace c = true → inClass c = false)
    (hkey : ∀ c, isKeyChar c = true → inClass c = true) (hmark : REDACTED.all inClass = true)
    {a b : Nat} {mark : PyStr} (hcut : cutToken word text a b mark) :
    (∀ d ∈ mark, inClass d = true) ↔ ∀ x, a ≤ x → x < b → classAt inClass text x = true := by
  rcases hcut with ⟨rfl, hspans⟩ | ⟨rfl, hmade⟩
  · refine iff_of_true (List.all_eq_true.mp hmark) fun x ha hb => ?_
    obtain ⟨c, hc, hclass⟩ := Regex.classAt_iff.mp (run_groqKey hspans x ha hb)
    exact Regex.classAt_iff.mpr ⟨c, hc, hkey c hclass⟩
  · refine iff_of_false (fun hall => ?_) fun hall => ?_
    · have hblank := hspace 0x20 (by decide)
      rw [hall 0x20 (by decide)] at hblank
      exact Bool.noConfusion hblank
    · obtain ⟨hlt, hblank⟩ := isSpace_of_spans_bearerBody (spans_bearer.mp hmade.isFound.spans).2
      have hnot := classAt_disjoint hspace hblank
      rw [hall (a + 6) (by omega) hlt] at hnot
      exact Bool.noConfusion hnot

/-- A class without some signs has none of their characters. -/
theorem isOneOf_eq_false {signs : String} {inClass : CodePoint → Bool}
    (hsigns : (PyStr.ofString signs).all (fun c => !inClass c) = true) {c : CodePoint}
    (h : inClass c = true) : SecretPattern.isOneOf signs c = false := by
  rw [← Bool.not_eq_true]
  intro hmem
  have hnot := List.all_eq_true.mp hsigns c (by simpa [SecretPattern.isOneOf] using hmem)
  rw [h] at hnot
  exact Bool.noConfusion hnot

/-- The characters of a key are no white space. -/
theorem isSpace_eq_false_of_isKeyChar {c : CodePoint} (h : isKeyChar c = true) :
    isSpace c = false := by
  rw [← Bool.not_eq_true]
  intro hspace
  have hnot : (SecretPattern.isAlnum c || SecretPattern.foldsToLetter c ||
      SecretPattern.isOneOf "_-" c) = false := eq_false_of_isSpace (by decide) hspace
  rw [Bool.or_eq_false_iff, Bool.or_eq_false_iff] at hnot
  rw [isKeyChar, hnot.1.1, hnot.2] at h
  exact Bool.noConfusion h

/-- The characters of a key may stand in a user name. -/
theorem isUserChar_of_isKeyChar {c : CodePoint} (h : isKeyChar c = true) :
    isUserChar c = true := by
  rw [isUserChar, isSpace_eq_false_of_isKeyChar h, isOneOf_eq_false (by decide) h]
  rfl

/-- The characters of a key may stand in a password. -/
theorem isPasswordChar_of_isKeyChar {c : CodePoint} (h : isKeyChar c = true) :
    isPasswordChar c = true := by
  rw [isPasswordChar, isSpace_eq_false_of_isKeyChar h, isOneOf_eq_false (by decide) h]
  rfl

/-- White space may stand in no user name. -/
theorem not_isUserChar_of_isSpace {c : CodePoint} (h : isSpace c = true) :
    isUserChar c = false := by
  rw [isUserChar, h]
  rfl

/-- White space may stand in no password. -/
theorem not_isPasswordChar_of_isSpace {c : CodePoint} (h : isSpace c = true) :
    isPasswordChar c = false := by
  rw [isPasswordChar, h]
  rfl

/-- A URL whose ends are there is one of the input. -/
theorem parts_iff (h : List.Laid text (cutToken word text) 0 shown) {n s u u' b : Nat}
    {d e : CodePoint} (hrun : ∀ i < n + 3, ∃ c, shown[y + i]? = some (c, some (s + i)))
    (hu : shown[u']? = some (d, some u)) (hk : shown[k]? = some (e, some b)) :
    Parts (shown.map Prod.fst) y (y + n) u' k ↔ Parts text s (s + n) u b := by
  -- From the scheme to the slashes the shown text is the input itself
  have hat : ∀ i < n + 3, (shown.map Prod.fst)[y + i]? = text[s + i]? := by
    intro i hi
    obtain ⟨c, hc⟩ := hrun i hi
    exact h.getElem?_map_fst hc
  have hclass : ∀ (f : CodePoint → Bool) i, i < n + 3 →
      classAt f (shown.map Prod.fst) (y + i) = classAt f text (s + i) := by
    intro f i hi
    rw [classAt, classAt, hat i hi]
  have hscheme : Run isSchemeChar (shown.map Prod.fst) (y + 1) (y + n) ↔
      Run isSchemeChar text (s + 1) (s + n) := by
    constructor
    · intro hall x hx hlt
      obtain ⟨i, rfl⟩ := Nat.exists_eq_add_of_le (show s ≤ x by omega)
      rw [← hclass _ i (by omega)]
      exact hall (y + i) (by omega) (by omega)
    · intro hall x hx hlt
      obtain ⟨i, rfl⟩ := Nat.exists_eq_add_of_le (show y ≤ x by omega)
      rw [hclass _ i (by omega)]
      exact hall (s + i) (by omega) (by omega)
  obtain ⟨c, hc⟩ := hrun (n + 2) (by omega)
  have hlt := h.lt_iff hc hu
  have hnext := h.next_iff hc hu
  have hlt' := h.lt_iff hu hk
  have hnext' := h.next_iff hu hk
  -- In the user name and the password a mark may stand for a token
  have huser : y + (n + 2) < u' → (Run isUserChar (shown.map Prod.fst) (y + (n + 2) + 1) u' ↔
      Run isUserChar text (s + (n + 2) + 1) u) :=
    h.between_iff (fun a b mark => cutToken_alike (fun c => not_isUserChar_of_isSpace)
      (fun c => isUserChar_of_isKeyChar) (by decide)) hc hu
  have hpassword : u' < k → (Run isPasswordChar (shown.map Prod.fst) (u' + 1) k ↔
      Run isPasswordChar text (u + 1) b) :=
    h.between_iff (fun a b mark => cutToken_alike (fun c => not_isPasswordChar_of_isSpace)
      (fun c => isPasswordChar_of_isKeyChar) (by decide)) hu hk
  constructor
  · intro hparts
    have := hparts.lt
    have := hparts.userLt
    have := hparts.passwordLt
    exact {
      start := (hclass _ 0 (by omega)).symm.trans hparts.start
      lt := by omega
      scheme := hscheme.mp hparts.scheme
      colon := (hat n (by omega)).symm.trans hparts.colon
      slash := (hat (n + 1) (by omega)).symm.trans hparts.slash
      slash' := (hat (n + 2) (by omega)).symm.trans hparts.slash'
      userLt := by omega
      user := (huser (by omega)).mp hparts.user
      colon' := (h.getElem?_map_fst hu).symm.trans hparts.colon'
      passwordLt := by omega
      password := (hpassword (by omega)).mp hparts.password
      atSign := (h.getElem?_map_fst hk).symm.trans hparts.atSign }
  · intro hparts
    have := hparts.lt
    have := hparts.userLt
    have := hparts.passwordLt
    exact {
      start := (hclass _ 0 (by omega)).trans hparts.start
      lt := by omega
      scheme := hscheme.mpr hparts.scheme
      colon := (hat n (by omega)).trans hparts.colon
      slash := (hat (n + 1) (by omega)).trans hparts.slash
      slash' := (hat (n + 2) (by omega)).trans hparts.slash'
      userLt := by omega
      user := (huser (by omega)).mpr hparts.user
      colon' := (h.getElem?_map_fst hu).trans hparts.colon'
      passwordLt := by omega
      password := (hpassword (by omega)).mpr hparts.password
      atSign := (h.getElem?_map_fst hk).trans hparts.atSign }

end Passwords

section UrlMatches

variable {word : WordTable} {text : PyStr} {shown : List (CodePoint × Option Nat)}
  {i j k l x y : Nat}

/-- The first two patterns write two marks. -/
theorem cutToken_mark {a b : Nat} {mark : PyStr} (h : cutToken word text a b mark) :
    mark = REDACTED ∨ mark = SecretPattern.bearerMark := h.imp And.left And.left

/-- A mark of the first two patterns begins with a `*` or a `B`. -/
theorem cutToken_head {a b : Nat} {mark : PyStr} {d : CodePoint} (h : cutToken word text a b mark)
    (hd : mark.head? = some d) : d ∈ [(0x2a : CodePoint), 0x42] := by
  rcases cutToken_mark h with rfl | rfl
  · exact Option.some.inj hd ▸ List.mem_cons_self
  · exact Option.some.inj hd ▸ List.mem_cons_of_mem _ List.mem_cons_self

/-- A mark of the first two patterns ends with a `*`. -/
theorem cutToken_last {a b : Nat} {mark : PyStr} {d : CodePoint} (h : cutToken word text a b mark)
    (hd : mark.getLast? = some d) : d ∈ [(0x2a : CodePoint)] := by
  rcases cutToken_mark h with rfl | rfl
  · exact Option.some.inj hd ▸ List.mem_cons_self
  · exact Option.some.inj hd ▸ List.mem_cons_self

/-- A sign that neither a key nor a token has is of the input. -/
theorem not_covers_of_sign {c : CodePoint} (hkey : isKeyChar c = false)
    (htoken : bearerBody.classes.all (fun inClass => !inClass c) = true) (hx : text[x]? = some c) :
    ¬List.Covers (cutToken word text) x := by
  rw [covers_cutToken]
  rintro (⟨a, b, hspans, ha, hb⟩ | ⟨a, b, hmade, ha, hb⟩)
  · have hclass := run_groqKey hspans x ha hb
    rw [classAt_of_getElem? hx, hkey] at hclass
    exact Bool.noConfusion hclass
  · obtain ⟨d, hd, inClass, hmem, hclass⟩ :=
      (spans_bearer.mp hmade.isFound.spans).2.mem_classes ha hb
    rw [hx, Option.some.injEq] at hd
    have hnot := List.all_eq_true.mp htoken inClass hmem
    rw [hd, hclass] at hnot
    exact Bool.noConfusion hnot

/-- A URL from `s` is matched at `y`. -/
structure SameUrl (word : WordTable) (text : PyStr) (shown : List (CodePoint × Option Nat))
    (y u' k s c u b : Nat) : Prop where
  find : SecretPattern.url.find word.isWord (shown.map Prod.fst) y = some (u' + 1, k, k + 1)
  url : Url word text s c u b
  start : ∃ d, shown[y]? = some (d, some s)
  colon : shown[u']? = some (0x3a, some u)
  atSign : shown[k]? = some (0x40, some b)

/-- To `url` a boundary is one of the input, where what is in a mark is of no word. -/
theorem boundary_iff (h : List.Laid text (cutToken word text) 0 shown) {s : Nat} {d : CodePoint}
    (hy : shown[y]? = some (d, some s)) :
    atBoundary word.isWord (shown.map Prod.fst) y = true ↔
      (classAt word.isWord text s = true ↔ ¬(0 < s ∧
        ¬(InGroqKey text (s - 1) ∨ InToken word text (s - 1)) ∧
          classAt word.isWord text (s - 1) = true)) := by
  rw [← covers_cutToken]
  refine h.atBoundary_iff (fun a b mark d hcut hlast => ?_) hy
  rw [List.mem_singleton.mp (cutToken_last hcut hlast), word.ascii _ (by decide)]
  decide

/-- A match behind the second pattern is a URL of the input. -/
theorem url_of_find (h : List.Laid text (cutToken word text) 0 shown)
    (hfind : SecretPattern.url.find word.isWord (shown.map Prod.fst) y = some (j, k, l)) :
    ∃ u' s c u b, j = u' + 1 ∧ l = k + 1 ∧ SameUrl word text shown y u' k s c u b := by
  obtain ⟨c', u', rfl, rfl, hboundary, hparts⟩ := parts_of_find hfind
  have hsigns : ∀ c : CodePoint, c ∉ REDACTED → c ∉ SecretPattern.bearerMark →
      ∀ a b mark, cutToken word text a b mark → c ∉ mark := by
    intro c hredacted hbearer a b mark hcut
    rcases cutToken_mark hcut with rfl | rfl
    · exact hredacted
    · exact hbearer
  -- The signs between the parts are none of a mark, so they are characters of the input
  obtain ⟨xc, hc⟩ := h.exists_position hparts.colon (hsigns 0x3a (by decide) (by decide))
  obtain ⟨u, hu⟩ := h.exists_position hparts.colon' (hsigns 0x3a (by decide) (by decide))
  obtain ⟨b, hb⟩ := h.exists_position hparts.atSign (hsigns 0x40 (by decide) (by decide))
  -- From the colon of the scheme the input goes back to its start
  have hlt := hparts.lt
  -- The length of the scheme
  obtain ⟨n, rfl⟩ := Nat.exists_eq_add_of_lt hlt
  obtain ⟨s, hs, hback⟩ := h.back (fun a b mark d => cutToken_last) (y := y) (n := n + 1) hc
    fun i hi => by
      have hclass : ∃ inClass : CodePoint → Bool, inClass 0x2a = false ∧
          classAt inClass (shown.map Prod.fst) (y + i) = true := by
        cases i with
        | zero => exact ⟨_, by decide, hparts.start⟩
        | succ i => exact ⟨_, by decide, hparts.scheme (y + (i + 1)) (by omega) (by omega)⟩
      obtain ⟨inClass, hstar, hclass⟩ := hclass
      obtain ⟨d, hd, hclass⟩ := Regex.classAt_iff.mp hclass
      refine ⟨d, hd, fun hmem => ?_⟩
      rw [List.mem_singleton.mp hmem, hstar] at hclass
      exact Bool.noConfusion hclass
  -- From the same colon the input goes on over the slashes
  have hforward := h.forward (fun a b mark d => cutToken_head) (n := 2) hc fun i hi => by
    obtain rfl | rfl : i = 0 ∨ i = 1 := by omega
    · exact ⟨0x2f, hparts.slash, by decide⟩
    · exact ⟨0x2f, hparts.slash', by decide⟩
  have hrun : ∀ i < n + 1 + 3, ∃ d, shown[y + i]? = some (d, some (s + i)) := by
    intro i hi
    rcases Nat.lt_or_ge i (n + 2) with hbefore | hafter
    · exact hback i (by omega)
    · obtain ⟨m, rfl⟩ := Nat.exists_eq_add_of_le hafter
      obtain ⟨d, hd⟩ := hforward (m + 1) (by omega)
      refine ⟨d, ?_⟩
      rw [show y + (n + 2 + m) = y + n + 1 + (m + 1) by omega, hd]
      congr 3
      omega
  obtain ⟨d, hd⟩ := hrun 0 (by omega)
  refine ⟨u', s, s + (n + 1), u, b, rfl, rfl, hfind,
    ⟨(parts_iff h hrun hu hb).mp hparts, (boundary_iff h hd).mp hboundary, fun x hx hlt => ?_⟩,
    ⟨d, hd⟩, hu, hb⟩
  obtain ⟨m, rfl⟩ := Nat.exists_eq_add_of_le hx
  obtain ⟨e, he⟩ := hrun m (by omega)
  rw [← covers_cutToken]
  exact (h.getElem?_of_kept he).2

/-- A URL of the input is a match behind the second pattern. -/
theorem find_of_url (h : List.Laid text (cutToken word text) 0 shown) {s c u b : Nat}
    (hurl : Url word text s c u b) : ∃ y u' k, SameUrl word text shown y u' k s c u b := by
  have hparts := hurl.parts
  have hlt := hparts.lt
  have huser := hparts.userLt
  have hpassword := hparts.passwordLt
  obtain ⟨n, rfl⟩ := Nat.exists_eq_add_of_lt hlt
  have hfree : ∀ x, s ≤ x → x < s + n + 1 + 3 → ¬List.Covers (cutToken word text) x := by
    intro x hx hlt
    rcases Nat.lt_or_ge x (s + n + 1) with hbefore | hafter
    · exact covers_cutToken.not.mpr (hurl.free x hx hbefore)
    · obtain rfl | rfl | rfl : x = s + n + 1 ∨ x = s + n + 1 + 1 ∨ x = s + n + 1 + 2 := by omega
      · exact not_covers_of_sign (by decide) (by decide) hparts.colon
      · exact not_covers_of_sign (by decide) (by decide) hparts.slash
      · exact not_covers_of_sign (by decide) (by decide) hparts.slash'
  have hlength := (List.getElem?_eq_some_iff.mp hparts.atSign).1
  obtain ⟨d, hd, -⟩ := Regex.classAt_iff.mp hparts.start
  obtain ⟨y, hy⟩ := h.exists_kept (Nat.zero_le s) hd (hfree s le_rfl (by omega))
  obtain ⟨u', hu⟩ := h.exists_kept (Nat.zero_le u) hparts.colon'
    (not_covers_of_sign (by decide) (by decide) hparts.colon')
  obtain ⟨k, hk⟩ := h.exists_kept (Nat.zero_le b) hparts.atSign
    (not_covers_of_sign (by decide) (by decide) hparts.atSign)
  have hrun : ∀ i < n + 1 + 3, ∃ d, shown[y + i]? = some (d, some (s + i)) :=
    fun i hi => h.run (n := n + 1 + 2) hy
      (fun i hi => ⟨by omega, hfree (s + i) (by omega) (by omega)⟩) i (by omega)
  exact ⟨y, u', k, find_of_parts ((parts_iff h hrun hu hk).mpr hparts)
    ((boundary_iff h hy).mpr hurl.boundary), hurl, ⟨d, hy⟩, hu, hk⟩

/-- `url` drops the passwords. -/
theorem drops_url_iff (h : List.Laid text (cutToken word text) 0 shown) {d : CodePoint}
    (hy : shown[y]? = some (d, some x)) :
    SecretPattern.url.Drops word.isWord (shown.map Prod.fst) y ↔ InPassword word text x := by
  constructor
  · rintro ⟨i, j, k, l, hfind, -, hj, hk⟩
    obtain ⟨u', s, c, u, b, rfl, rfl, hsame⟩ := url_of_find h hfind
    exact ⟨s, c, u, b, hsame.url, (h.lt_iff hsame.colon hy).mp hj, (h.lt_iff hy hsame.atSign).mp hk⟩
  · rintro ⟨s, c, u, b, hurl, hu, hb⟩
    obtain ⟨y', u', k, hsame⟩ := find_of_url h hurl
    have hj := (h.lt_iff hsame.colon hy).mpr hu
    have hk := (h.lt_iff hy hsame.atSign).mpr hb
    have hfound : SecretPattern.url.Found word.isWord (shown.map Prod.fst) y' (k + 1) :=
      ⟨u' + 1, k, hsame.find⟩
    rcases Leftmost.or_within hfound with hmade | ⟨i, hlt, l, hmade, hl⟩
    · exact ⟨y', u' + 1, k, k + 1, hsame.find, hmade, hj, hk⟩
    · -- the match that is made has the same password
      obtain ⟨j', k', hfind'⟩ := hmade.isFound
      obtain ⟨u'', s', c', u₁, b₁, rfl, rfl, hsame'⟩ := url_of_find h hfind'
      obtain ⟨e, he⟩ := hsame.start
      obtain ⟨e', he'⟩ := hsame'.start
      have hs := (h.lt_iff he' he).mp hlt
      have hb' := h.lt_iff hsame'.atSign he
      obtain ⟨-, rfl, rfl⟩ := hsame.url.parts.unique hsame'.url.parts hs.le (by omega)
      obtain rfl := h.eq_of_kept hsame.colon hsame'.colon
      obtain rfl := h.eq_of_kept hsame.atSign hsame'.atSign
      exact ⟨i, u' + 1, k, k + 1, hsame'.find, hmade, hj, hk⟩

/-- What the first three patterns cut out. -/
def cutPassword (word : WordTable) (text : PyStr) (a b : Nat) (mark : PyStr) : Prop :=
  cutToken word text a b mark ∨
    mark = REDACTED ∧ ∃ s c u, Url word text s c u b ∧ a = u + 1

/-- What has given way after three patterns is in one of three places. -/
theorem covers_cutPassword : List.Covers (cutPassword word text) x ↔
    InGroqKey text x ∨ InToken word text x ∨ InPassword word text x := by
  rw [← or_assoc, ← covers_cutToken]
  constructor
  · rintro ⟨a, b, mark, hcut | ⟨-, s, c, u, hurl, rfl⟩, ha, hb⟩
    · exact .inl ⟨a, b, mark, hcut, ha, hb⟩
    · exact .inr ⟨s, c, u, b, hurl, ha, hb⟩
  · rintro (⟨a, b, mark, hcut, ha, hb⟩ | ⟨s, c, u, b, hurl, hu, hb⟩)
    · exact ⟨a, b, mark, .inl hcut, ha, hb⟩
    · exact ⟨u + 1, b, REDACTED, .inr ⟨rfl, s, c, u, hurl, rfl⟩, hu, hb⟩

/-- Before its password a URL has no other. -/
theorem Url.not_inPassword {s c u b : Nat} (h : Url word text s c u b) (hs : s ≤ x) (hu : x ≤ u) :
    ¬InPassword word text x := by
  rintro ⟨s', c', u', b', h', hu', hb'⟩
  have := h'.parts.lt
  have := h'.parts.userLt
  have := h.parts.passwordLt
  have hsame : u = u' := by
    rcases Nat.le_total s' s with hle | hle
    · exact (h.parts.unique h'.parts hle (by omega)).2.1
    · exact (h'.parts.unique h.parts hle (by omega)).2.1.symm
  omega

/-- The third pattern leaves the text laid out with the passwords cut out as well. -/
theorem laid_url (h : List.Laid text (cutToken word text) 0 shown) :
    List.Laid text (cutPassword word text) 0 (SecretPattern.url.subTraced word.isWord shown) := by
  -- What is kept of the shown text lies in no token, and here in no password
  have hcovers : ∀ {y x : Nat} {c : CodePoint}, shown[y]? = some (c, some x) →
      ¬InPassword word text x →
      ¬List.Covers (cutPassword word text) x := by
    intro y x c hy hnot
    rw [covers_cutPassword, ← or_assoc, ← covers_cutToken]
    exact not_or.mpr ⟨(h.getElem?_of_kept hy).2, hnot⟩
  refine h.subTraced (by decide) (fun _ _ _ => .inl) ?_ ?_ ?_ ?_
  -- No match begins at a character of a mark
  · intro y c hy
    cases hfind : SecretPattern.url.find word.isWord (shown.map Prod.fst) y with
    | none => rfl
    | some found =>
      obtain ⟨j, k, l⟩ := found
      obtain ⟨u', s, c, u, b, rfl, rfl, hsame⟩ := url_of_find h hfind
      obtain ⟨d, hd⟩ := hsame.start
      rw [hy] at hd
      cases hd
  -- A match is not empty, and its parts stand in order
  · intro i j k l hfind
    obtain ⟨c, u, rfl, rfl, -, hparts⟩ := parts_of_find hfind
    have := hparts.lt
    have := hparts.userLt
    have := hparts.passwordLt
    omega
  -- A character in front of which no match begins is kept
  · intro y c x hy hkept
    exact hcovers hy ((drops_url_iff h hy).not.mp hkept)
  · intro y j k l d s hy hfind hmade
    obtain ⟨u', s', c, u, b, rfl, rfl, hsame⟩ := url_of_find h hfind
    obtain ⟨e, he⟩ := hsame.start
    rw [hy, Option.some.injEq, Prod.mk.injEq, Option.some.injEq] at he
    obtain rfl : s = s' := he.2
    have hparts := hsame.url.parts
    have := hparts.lt
    have := hparts.userLt
    have := hparts.passwordLt
    have hyu := (h.lt_iff hy hsame.colon).mpr (by omega)
    have hsu : s ≤ u := by omega
    refine ⟨u + 1, b, b + 1, .inr ⟨rfl, s, c, u, hsame.url, rfl⟩, by omega,
      (h.behind hsame.atSign).2, fun rest hrest => ?_, fun rest hrest => ?_⟩
    · -- up to the colon nothing more is cut out
      obtain ⟨n, rfl⟩ := Nat.exists_eq_add_of_lt hyu
      have hlaid := h.from_kept hy
      have hcolon : (shown.drop y)[n + 1]? = some (0x3a, some u) := by
        rw [List.getElem?_drop]
        exact hsame.colon
      have hcolonKept := hcovers hsame.colon (hsame.url.not_inPassword hsu le_rfl)
      have hkept : ∀ y' < n + 1, ∀ c' x', (shown.drop y)[y']? = some (c', some x') →
          ¬List.Covers (cutPassword word text) x' := by
        intro y' hlt c' x' hy'
        have hx' := (hlaid.behind hy').1
        have hxu := (hlaid.lt_iff hy' hcolon).mp hlt
        rw [List.getElem?_drop] at hy'
        exact hcovers hy' (hsame.url.not_inPassword hx' hxu.le)
      have htake : (shown.take (y + n + 1 + 1)).drop y =
          (shown.drop y).take (n + 1) ++ [(0x3a, some u)] := by
        rw [List.drop_take, show y + n + 1 + 1 - y = n + 1 + 1 by omega, List.take_add_one, hcolon]
        rfl
      rw [htake, List.append_assoc]
      exact hlaid.splice (fun _ _ _ => .inl) hcolon hkept (.kept hparts.colon' hcolonKept hrest)
    · -- and the sign behind the password is left
      have hslice : (shown.take (k + 1)).drop k = [(0x40, some b)] := by
        rw [List.drop_take, Nat.add_sub_cancel_left]
        obtain ⟨hlt, hget⟩ := List.getElem?_eq_some_iff.mp hsame.atSign
        rw [List.drop_eq_getElem_cons hlt, hget]
        rfl
      have hnot : ¬InPassword word text b := by
        rintro ⟨s', c', u', b', h', hu', hb'⟩
        have hclass := h'.parts.password b hu' hb'
        rw [classAt_of_getElem? hparts.atSign] at hclass
        exact absurd hclass (by decide)
      rw [hslice]
      exact .kept hparts.atSign (hcovers hsame.atSign hnot) hrest

end UrlMatches

/-! ## The fourth pattern -/

/-- A name from `m` to `n`, and behind it an equals sign at `p` between blanks. -/
structure Named (text : PyStr) (m n p v : Nat) : Prop where
  lt : m < n
  name : Run isNameChar text m n
  last : ∃ c, text[n - 1]? = some c ∧ (ignoreCase 0x6e c = true ∨ ignoreCase 0x79 c = true)
  le : n ≤ p
  blank : Run isSpace text n p
  equals : classAt isEquals text p = true
  lt' : p < v
  blank' : Run isSpace text (p + 1) v

section Names

variable {text : PyStr} {i j k l m n p v x y : Nat}

/-- Two runs that meet are one. -/
theorem Run.append {inClass : CodePoint → Bool} {a b c : Nat} (h : Run inClass text a b)
    (h' : Run inClass text b c) : Run inClass text a c := by
  intro x ha hc
  rcases Nat.lt_or_ge x b with hlt | hge
  · exact h x ha hlt
  · exact h' x hge hc

/-- A letter under `(?i)` is a character of a name. -/
theorem isNameChar_of_ignoreCase {d c : CodePoint} (hd : 0x61 ≤ d.val ∧ d.val ≤ 0x7a)
    (h : ignoreCase d c = true) : isNameChar c = true := by
  have hcases := val_of_ignoreCase h
  rw [isNameChar, Bool.or_eq_true, Bool.or_eq_true]
  rcases hcases with heq | hupper | ⟨hfolds, -⟩
  · refine .inl (.inl ?_)
    simp only [SecretPattern.isAlnum, asciiWord, Bool.or_eq_true, Bool.and_eq_true,
      decide_eq_true_eq]
    omega
  · refine .inl (.inl ?_)
    simp only [SecretPattern.isAlnum, asciiWord, Bool.or_eq_true, Bool.and_eq_true,
      decide_eq_true_eq]
    omega
  · exact .inl (.inr hfolds)

/-- A word of letters is part of a name. -/
theorem run_literalIgnoreCase {cut : Nat → Prop} {letters : String}
    (hletters : (PyStr.ofString letters).all (fun d => 0x61 ≤ d.val && d.val ≤ 0x7a) = true)
    (h : Spans cut text (SecretPattern.literalIgnoreCase letters) i j) :
    j = i + (PyStr.ofString letters).length ∧ Run isNameChar text i j ∧
      ∀ n d, (PyStr.ofString letters)[n]? = some d →
        ∃ c, text[i + n]? = some c ∧ ignoreCase d c = true := by
  obtain ⟨rfl, hall⟩ := Regex.spans_foldr_one.mp h
  refine ⟨rfl, fun x hx hlt => ?_, hall⟩
  obtain ⟨n, rfl⟩ := Nat.exists_eq_add_of_le hx
  have hn : n < (PyStr.ofString letters).length := by omega
  obtain ⟨c, hc, hclass⟩ := hall n _ (List.getElem?_eq_getElem hn)
  have hd := List.all_eq_true.mp hletters _ (List.getElem_mem hn)
  rw [Bool.and_eq_true, decide_eq_true_eq, decide_eq_true_eq] at hd
  exact Regex.classAt_iff.mpr ⟨c, hc, isNameChar_of_ignoreCase hd hclass⟩

/-- What `apiKey` keeps is a name and an equals sign between blanks. -/
theorem named_of_spans {cut : Nat → Prop} (h : Spans cut text SecretPattern.apiKey.kept m v) :
    ∃ n p, Named text m n p v := by
  obtain ⟨a, ⟨hma, hfront⟩, n, hkind, p, ⟨hnp, hblank⟩, q, ⟨hequals, rfl⟩, v', ⟨hpv, hblank'⟩,
    hv⟩ := h
  obtain rfl : v' = v := hv
  have hfront : Run isNameChar text m a := fun x hx hlt => Regex.classAt_iff.mpr (hfront x hx hlt)
  obtain ⟨hlt, hname, hlast⟩ : a < n ∧ Run isNameChar text a n ∧ ∃ c, text[n - 1]? = some c ∧
      (ignoreCase 0x6e c = true ∨ ignoreCase 0x79 c = true) := by
    rcases hkind with hauthorization | ⟨b, hapi, c, hsign, d, hkey, hd⟩
    · obtain ⟨rfl, hrun, hall⟩ := run_literalIgnoreCase (by decide) hauthorization
      have hlength : (PyStr.ofString "authorization").length = 13 := rfl
      obtain ⟨c, hc, hn⟩ := hall 12 0x6e rfl
      exact ⟨by omega, hrun, c, hc, .inl hn⟩
    · obtain rfl : d = n := hd
      obtain ⟨rfl, hrun, -⟩ := run_literalIgnoreCase (by decide) hapi
      obtain ⟨rfl, hrun', hall⟩ := run_literalIgnoreCase (by decide) hkey
      have hlength : (PyStr.ofString "api").length = 3 := rfl
      have hlength' : (PyStr.ofString "key").length = 3 := rfl
      obtain ⟨e, he, hy⟩ := hall 2 0x79 rfl
      have hmiddle : a + 3 ≤ c ∧ Run isNameChar text (a + 3) c := by
        rcases hsign with ⟨⟨f, hf, hclass⟩, rfl⟩ | hnone
        · refine ⟨by omega, fun x hx hlt => ?_⟩
          obtain rfl : x = a + 3 := by omega
          refine Regex.classAt_iff.mpr ⟨f, hf, ?_⟩
          rw [isNameChar, hclass, Bool.or_true]
        · have hnone : a + 3 = c := hnone
          exact ⟨by omega, fun x hx hlt => by omega⟩
      exact ⟨by omega, (hrun.append hmiddle.2).append hrun', e, he, .inr hy⟩
  exact ⟨n, p, by omega, hfront.append hname, hlast, hnp,
    fun x hx hlt => Regex.classAt_iff.mpr (hblank x hx hlt), Regex.classAt_iff.mpr hequals, hpv,
    fun x hx hlt => Regex.classAt_iff.mpr (hblank' x hx hlt)⟩

/-- `[:=]` has no white space. -/
theorem isSpace_eq_false_of_isEquals {c : CodePoint} (h : isEquals c = true) :
    isSpace c = false := by
  rw [← Bool.not_eq_true]
  intro hspace
  have hmem : c ∈ PyStr.ofString ":=" := by simpa [isEquals, SecretPattern.isOneOf] using h
  have hsigns : (PyStr.ofString ":=").all (fun c => !isSpace c) = true := by decide
  have hnot := List.all_eq_true.mp hsigns c hmem
  rw [hspace] at hnot
  exact Bool.noConfusion hnot

/-- What is behind a name is not of one. -/
theorem Named.stops (h : Named text m n p v) : classAt isNameChar text n = false := by
  rcases Nat.eq_or_lt_of_le h.le with rfl | hlt
  · refine classAt_disjoint (fun c hc => ?_) h.equals
    rw [← Bool.not_eq_true]
    intro hname
    have hno : isEquals c = false := isOneOf_eq_false (by decide) hname
    rw [hc] at hno
    exact Bool.noConfusion hno
  · exact classAt_disjoint (fun c => eq_false_of_isSpace (by decide)) (h.blank n le_rfl hlt)

/-- Behind a name there is one value. -/
theorem Named.unique {n' p' v' : Nat} (h : Named text m n p v) (h' : Named text m n' p' v')
    (hv : classAt isSpace text v = false) (hv' : classAt isSpace text v' = false) : v = v' := by
  have hpast : ∀ {n p v n' p' v'}, Named text m n p v → Named text m n' p' v' →
      classAt isSpace text v = false → v' ≤ v := by
    intro n p v n' p' v' h h' hv
    have hn : n' ≤ n := by
      by_contra hmore
      have hname := h'.name n h.lt.le (by omega)
      rw [h.stops] at hname
      exact Bool.noConfusion hname
    have hn' : n ≤ n' := by
      by_contra hmore
      have hname := h.name n' h'.lt.le (by omega)
      rw [h'.stops] at hname
      exact Bool.noConfusion hname
    have hp : p' ≤ p := by
      by_contra hmore
      have hblank := h'.blank p (by have := h.le; omega) (by omega)
      rw [classAt_disjoint (fun c => isSpace_eq_false_of_isEquals) h.equals] at hblank
      exact Bool.noConfusion hblank
    by_contra hmore
    have hblank := h'.blank' v (by have := h.lt'; omega) (by omega)
    rw [hv] at hblank
    exact Bool.noConfusion hblank
  exact Nat.le_antisymm (hpast h' h hv') (hpast h h' hv)

/-- What is solid is no white space. -/
theorem classAt_isSolid (h : classAt isSolid text x = true) : classAt isSpace text x = false :=
  classAt_disjoint (fun c hc => by simpa [isSolid] using hc) h

/-- A value goes on up to some position. -/
theorem exists_end (h : classAt isSolid text v = true) :
    ∃ l, v < l ∧ Run isSolid text v l ∧ classAt isSolid text l = false := by
  have hone : Run isSolid text v (v + 1) := by
    intro x hx hlt
    obtain rfl : x = v := by omega
    exact h
  have hmem : v + 1 ∈ Regex.tries isSolid text (.atLeast 1 isSolid) v :=
    Regex.mem_tries_iff.mpr (spans_atLeast.mpr ⟨le_rfl, hone⟩)
  obtain ⟨l, ls, hcons⟩ := List.exists_cons_of_ne_nil (List.ne_nil_of_mem hmem)
  have hhead : (Regex.tries isSolid text (.atLeast 1 isSolid) v).head? = some l := by
    rw [hcons]
    rfl
  obtain ⟨hle, hrun⟩ := spans_atLeast.mp (Regex.mem_tries_iff.mp (List.mem_of_mem_head? hhead))
  exact ⟨l, hle, hrun, Regex.classAt_of_head?_atLeast hhead⟩

end Names

section Values

variable {word : WordTable} {text : PyStr} {shown : List (CodePoint × Option Nat)}
  {i j k l m v x y : Nat}

/-- The first three patterns write two marks. -/
theorem cutPassword_mark {a b : Nat} {mark : PyStr} (h : cutPassword word text a b mark) :
    mark = REDACTED ∨ mark = SecretPattern.bearerMark :=
  h.elim cutToken_mark fun h => .inl h.1

/-- A mark of the first three patterns begins with a `*` or a `B`. -/
theorem cutPassword_head {a b : Nat} {mark : PyStr} {d : CodePoint}
    (h : cutPassword word text a b mark) (hd : mark.head? = some d) :
    d ∈ [(0x2a : CodePoint), 0x42] := by
  rcases h with hcut | ⟨rfl, -⟩
  · exact cutToken_head hcut hd
  · exact Option.some.inj hd ▸ List.mem_cons_self

/-- A mark of the first three patterns ends with a `*`. -/
theorem cutPassword_last {a b : Nat} {mark : PyStr} {d : CodePoint}
    (h : cutPassword word text a b mark) (hd : mark.getLast? = some d) :
    d ∈ [(0x2a : CodePoint)] := by
  rcases h with hcut | ⟨rfl, -⟩
  · exact cutToken_last hcut hd
  · exact Option.some.inj hd ▸ List.mem_cons_self

/-- The characters of a key are solid. -/
theorem isSolid_of_isKeyChar {c : CodePoint} (h : isKeyChar c = true) : isSolid c = true := by
  rw [isSolid, isSpace_eq_false_of_isKeyChar h]
  rfl

/-- The characters of a password are solid. -/
theorem run_isSolid_of_password {a b : Nat} (h : Run isPasswordChar text a b) :
    Run isSolid text a b := by
  intro x ha hb
  obtain ⟨c, hc, hclass⟩ := Regex.classAt_iff.mp (h x ha hb)
  rw [isPasswordChar, Bool.and_eq_true] at hclass
  exact Regex.classAt_iff.mpr ⟨c, hc, hclass.1⟩

/-- White space is in a mark just if it is in what the mark is in place of. -/
theorem cutPassword_alike {a b : Nat} {mark : PyStr} (hcut : cutPassword word text a b mark) :
    (∀ d ∈ mark, isSolid d = true) ↔ ∀ x, a ≤ x → x < b → classAt isSolid text x = true := by
  rcases hcut with hcut | ⟨rfl, s, c, u, hurl, rfl⟩
  · refine cutToken_alike (fun c hc => ?_) (fun c => isSolid_of_isKeyChar) (by decide) hcut
    rw [isSolid, hc]
    rfl
  · have hmark : REDACTED.all isSolid = true := by decide
    exact iff_of_true (List.all_eq_true.mp hmark) (run_isSolid_of_password hurl.parts.password)

/-- What gives way to a mark does not begin with white space. -/
theorem cutPassword_solid {a b : Nat} {mark : PyStr} (hcut : cutPassword word text a b mark)
    (hlt : a < b) : classAt isSolid text a = true := by
  rcases hcut with (⟨rfl, hspans⟩ | ⟨rfl, hmade⟩) | ⟨rfl, s, c, u, hurl, rfl⟩
  · obtain ⟨c, hc, hclass⟩ := Regex.classAt_iff.mp (run_groqKey hspans a le_rfl hlt)
    exact Regex.classAt_iff.mpr ⟨c, hc, isSolid_of_isKeyChar hclass⟩
  · obtain ⟨hletters, -⟩ := spans_bearerBody.mp (spans_bearer.mp hmade.isFound.spans).2
    obtain ⟨c, hc, hfirst⟩ := hletters 0 0x62 rfl
    exact Regex.classAt_iff.mpr ⟨c, hc, isSolid_of_isKeyChar (ignoreCase_b hfirst).1⟩
  · exact run_isSolid_of_password hurl.parts.password _ le_rfl hlt

/-- A name does not end with a letter of a mark. -/
theorem not_mem_marks {c : CodePoint} (h : ignoreCase 0x6e c = true ∨ ignoreCase 0x79 c = true) :
    c ∉ REDACTED ∧ c ∉ SecretPattern.bearerMark := by
  have hval : c.val = 0x6e ∨ c.val = 0x4e ∨ c.val = 0x79 ∨ c.val = 0x59 := by
    have hn : (0x6e : CodePoint).val = 0x6e := rfl
    have hy : (0x79 : CodePoint).val = 0x79 := rfl
    rcases h with h | h
    · have := val_of_ignoreCase h
      omega
    · have := val_of_ignoreCase h
      omega
  have hc : c = 0x6e ∨ c = 0x4e ∨ c = 0x79 ∨ c = 0x59 :=
    hval.imp Fin.ext (Or.imp Fin.ext (Or.imp Fin.ext Fin.ext))
  rcases hc with rfl | rfl | rfl | rfl
  · exact ⟨by decide, by decide⟩
  · exact ⟨by decide, by decide⟩
  · exact ⟨by decide, by decide⟩
  · exact ⟨by decide, by decide⟩

/-- Two values that begin together end together. -/
theorem value_iff (h : List.Laid text (cutPassword word text) 0 shown)
    (hlaid : List.Laid text (cutPassword word text) v (shown.drop j)) (hjk : j < k)
    (hvalue : Run isSolid (shown.map Prod.fst) j k)
    (hends : classAt isSolid (shown.map Prod.fst) k = false) (hvl : v < l)
    (hvalue' : Run isSolid text v l) (hends' : classAt isSolid text l = false) {z : Nat}
    {c : CodePoint} (hz : shown[z]? = some (c, some x)) (hjz : j ≤ z) : z < k ↔ x < l := by
  obtain ⟨n, rfl⟩ := Nat.exists_eq_add_of_le hjz
  have hn : (shown.drop j)[n]? = some (c, some x) := by
    rw [List.getElem?_drop]
    exact hz
  -- Over marks and characters alike the value goes on as that of the input does
  have hrun := hlaid.run_iff (fun a b mark => cutPassword_alike) hn
  have hat : ∀ i, classAt isSolid ((shown.drop j).map Prod.fst) i =
      classAt isSolid (shown.map Prod.fst) (j + i) := by
    intro i
    rw [classAt, classAt, List.map_drop, List.getElem?_drop]
  have hsame : classAt isSolid (shown.map Prod.fst) (j + n) = classAt isSolid text x :=
    h.classAt_eq hz
  have hvx : v ≤ x := (hlaid.mem_iff.mp (List.mem_of_getElem? hn)).1
  constructor
  -- Past its end in the input the shown value would have to hold the character that ends it
  · intro hk
    by_contra hl
    rcases Nat.eq_or_lt_of_le (Nat.le_of_not_lt hl) with rfl | hlt
    · rw [hends', hvalue (j + n) (by omega) hk] at hsame
      exact Bool.noConfusion hsame
    · have hclass := hrun.mp (fun i hi => (hat i).trans (hvalue (j + i) (by omega) (by omega)))
        l hvl.le hlt
      rw [hends'] at hclass
      exact Bool.noConfusion hclass
  · intro hl
    by_contra hk
    rcases Nat.eq_or_lt_of_le (Nat.le_of_not_lt hk) with rfl | hlt
    · rw [hends, hvalue' x hvx hl] at hsame
      exact Bool.noConfusion hsame
    · obtain ⟨m, rfl⟩ := Nat.exists_eq_add_of_le hjk.le
      have hclass := hrun.mpr (fun w hw hlt => hvalue' w hw (by omega)) m (by omega)
      rw [hat, hends] at hclass
      exact Bool.noConfusion hclass

/-- Behind a name is one value. -/
theorem Assignment.unique {v' l' : Nat} (h : Assignment word text m v l)
    (h' : Assignment word text m v' l') : v = v' ∧ l = l' := by
  obtain ⟨n, p, hnamed⟩ := named_of_spans h.name
  obtain ⟨n', p', hnamed'⟩ := named_of_spans h'.name
  obtain rfl := hnamed.unique hnamed' (classAt_isSolid (h.value v le_rfl h.lt))
    (classAt_isSolid (h'.value v' le_rfl h'.lt))
  have hpast : ∀ {l l'}, Assignment word text m v l → Assignment word text m v l' → l' ≤ l := by
    intro l l' h h'
    by_contra hmore
    have hclass := h'.value l h.lt.le (by omega)
    rw [h.ends] at hclass
    exact Bool.noConfusion hclass
  exact ⟨rfl, Nat.le_antisymm (hpast h' h) (hpast h h')⟩

/-- A value whose name begins at `m` is matched at `y`. -/
structure SameAssignment (word : WordTable) (text : PyStr) (shown : List (CodePoint × Option Nat))
    (y j k m v l : Nat) : Prop where
  find : SecretPattern.apiKey.find word.isWord (shown.map Prod.fst) y = some (j, k, k)
  assignment : Assignment word text m v l
  start : ∃ c, shown[y]? = some (c, some m)
  last : ∃ c, shown[j - 1]? = some (c, some (v - 1))
  lt : y < j
  value : ∀ {z x : Nat} {c : CodePoint}, shown[z]? = some (c, some x) → (z < k ↔ x < l)

/-- A match behind the third pattern is a value of the input. -/
theorem assignment_of_find (h : List.Laid text (cutPassword word text) 0 shown)
    (hfind : SecretPattern.apiKey.find word.isWord (shown.map Prod.fst) y = some (j, k, l)) :
    l = k ∧ ∃ m v l, SameAssignment word text shown y j k m v l := by
  obtain ⟨hname, hvalue, rfl⟩ := Regex.Rewrite.spans_of_find hfind
  obtain ⟨hjk, hvalue⟩ := spans_some1.mp hvalue
  obtain ⟨n, p, hnamed⟩ := named_of_spans hname
  have hyn := hnamed.lt
  have hnp := hnamed.le
  have hpj := hnamed.lt'
  refine ⟨rfl, ?_⟩
  -- The last letter of the name is of the input
  obtain ⟨c, hc, hlast⟩ := hnamed.last
  obtain ⟨hredacted, hbearer⟩ := not_mem_marks hlast
  obtain ⟨x, hx⟩ := h.exists_position hc fun a b mark hcut => by
    rcases cutPassword_mark hcut with rfl | rfl
    · exact hredacted
    · exact hbearer
  -- All from the first character on is of the input too
  obtain ⟨q, rfl⟩ := Nat.exists_eq_add_of_lt hyn
  obtain ⟨m, rfl, hback⟩ := h.back (fun a b mark d => cutPassword_last) (y := y) (n := q) hx
    fun i hi => by
      obtain ⟨d, hd, hclass⟩ := Regex.classAt_iff.mp (hnamed.name (y + i) (by omega) (by omega))
      refine ⟨d, hd, fun hmem => ?_⟩
      rw [List.mem_singleton.mp hmem] at hclass
      exact absurd hclass (by decide)
  have hforward := h.forward (fun a b mark d => cutPassword_head) (n := j - (y + q + 1)) hx
    fun i hi => by
      have hclass : ∃ inClass : CodePoint → Bool, inClass 0x2a = false ∧ inClass 0x42 = false ∧
          classAt inClass (shown.map Prod.fst) (y + q + 1 + i) = true := by
        rcases Nat.lt_trichotomy (y + q + 1 + i) p with hbefore | heq | hafter
        · exact ⟨isSpace, by decide, by decide, hnamed.blank _ (by omega) hbefore⟩
        · exact ⟨isEquals, by decide, by decide, heq ▸ hnamed.equals⟩
        · exact ⟨isSpace, by decide, by decide, hnamed.blank' _ hafter (by omega)⟩
      obtain ⟨inClass, hstar, hb, hclass⟩ := hclass
      obtain ⟨d, hd, hclass⟩ := Regex.classAt_iff.mp hclass
      refine ⟨d, hd, fun hmem => ?_⟩
      simp only [List.mem_cons, List.not_mem_nil, or_false] at hmem
      rcases hmem with rfl | rfl
      · rw [hstar] at hclass
        exact Bool.noConfusion hclass
      · rw [hb] at hclass
        exact Bool.noConfusion hclass
  obtain ⟨n, rfl⟩ := Nat.exists_eq_add_of_lt (show y + q < j by omega)
  have hrun : ∀ i < q + n + 1, ∃ d, shown[y + i]? = some (d, some (m + i)) := by
    intro i hi
    rcases Nat.lt_or_ge i q with hbefore | hafter
    · exact hback i hbefore.le
    · obtain ⟨r, rfl⟩ := Nat.exists_eq_add_of_le hafter
      obtain ⟨d, hd⟩ := hforward r (by omega)
      exact ⟨d, by rw [← Nat.add_assoc, ← Nat.add_assoc]; exact hd⟩
  -- So the name and the sign are the same in the input
  have hspans : Spans (fun _ => True) text SecretPattern.apiKey.kept m (m + (q + n + 1)) := by
    have hname : Spans (atBoundary word.isWord (shown.map Prod.fst) · = true)
        (shown.map Prod.fst) SecretPattern.apiKey.kept y (y + (q + n + 1)) := by
      rw [show y + (q + n + 1) = y + q + n + 1 by omega]
      exact hname
    exact (h.spans_iff (by decide) hrun (a := 0) le_rfl).mp hname
  -- The value of the input begins at the same place
  obtain ⟨d, hd⟩ := hrun (q + n) (by omega)
  rw [← Nat.add_assoc] at hd
  have hsolid : classAt isSolid text (m + (q + n) + 1) = true := by
    have hfirst := hvalue (y + q + n + 1) le_rfl hjk
    rcases h.after hd with ⟨hnone, -⟩ | ⟨e, he⟩ | ⟨r, mark, e, hcut, hr, -, -⟩
    · rw [classAt, List.getElem?_map, hnone] at hfirst
      exact Bool.noConfusion hfirst
    · rw [← h.classAt_eq he]
      exact hfirst
    · exact cutPassword_solid hcut hr
  obtain ⟨e, hve, hvalue', hends'⟩ := exists_end hsolid
  -- The match takes the longest value, so it ends where the class does
  have hhead : (Regex.tries word.isWord (shown.map Prod.fst) (.atLeast 1 isSolid)
      (y + q + n + 1)).head? = some k := (Regex.Rewrite.head?_of_find rfl hfind).2
  have hends := Regex.classAt_of_head?_atLeast hhead
  refine ⟨m, m + (q + n) + 1, e, hfind, ⟨hspans, fun x hx hlt => ?_, hve, hvalue', hends'⟩,
    hrun 0 (by omega), ⟨d, hd⟩, by omega, fun {z x c} hz => ?_⟩
  -- Nothing in front of the value is cut out
  · obtain ⟨i, rfl⟩ := Nat.exists_eq_add_of_le hx
    obtain ⟨f, hf⟩ := hrun i (by omega)
    exact covers_cutPassword.not.mp (h.getElem?_of_kept hf).2
  · rcases Nat.lt_or_ge z (y + q + n + 1) with hbefore | hbehind
    · have := h.lt_iff hd hz
      omega
    · exact value_iff h (h.behind hd).2 hjk hvalue hends hve hvalue' hends' hz hbehind

/-- A value of the input is a match behind the third pattern. -/
theorem find_of_assignment (h : List.Laid text (cutPassword word text) 0 shown)
    (hassignment : Assignment word text m v l) :
    ∃ y j k, SameAssignment word text shown y j k m v l := by
  obtain ⟨n, p, hnamed⟩ := named_of_spans hassignment.name
  have hmn := hnamed.lt
  have hnp := hnamed.le
  have hpv := hnamed.lt'
  have hvl := hassignment.lt
  have hlength : v < text.length := by
    obtain ⟨c, hc, -⟩ := Regex.classAt_iff.mp (hassignment.value v le_rfl hvl)
    exact (List.getElem?_eq_some_iff.mp hc).1
  obtain ⟨q, rfl⟩ := Nat.exists_eq_add_of_lt (show m < v by omega)
  -- Nothing in front of the value is in another credential, so it is all shown
  have hkept : ∀ i ≤ q, m + i < text.length ∧ ¬List.Covers (cutPassword word text) (m + i) :=
    fun i hi => ⟨by omega, covers_cutPassword.not.mpr
      (hassignment.free (m + i) (by omega) (by omega))⟩
  obtain ⟨y, hy⟩ := h.exists_kept (Nat.zero_le m)
    (List.getElem?_eq_getElem (show m < text.length by omega)) (hkept 0 (Nat.zero_le q)).2
  have hrun : ∀ i < q + 1, ∃ d, shown[y + i]? = some (d, some (m + i)) :=
    fun i hi => h.run hy hkept i (by omega)
  have hname : Spans (atBoundary word.isWord (shown.map Prod.fst) · = true) (shown.map Prod.fst)
      SecretPattern.apiKey.kept y (y + (q + 1)) :=
    (h.spans_iff (by decide) hrun (a := 0) le_rfl).mpr hassignment.name
  -- A value begins there
  obtain ⟨d, hd⟩ := hrun q (by omega)
  have hsolid : classAt isSolid (shown.map Prod.fst) (y + q + 1) = true := by
    -- The value itself may be shown as a mark, which has no white space either
    rcases h.after hd with ⟨-, hnone⟩ | ⟨e, he⟩ | ⟨r, mark, e, hcut, hr, hhead, he⟩
    · omega
    · rw [h.classAt_eq he]
      exact hassignment.value _ le_rfl hvl
    · rw [classAt, List.getElem?_map, he]
      have hmem := cutPassword_head hcut hhead
      simp only [List.mem_cons, List.not_mem_nil, or_false] at hmem
      rcases hmem with rfl | rfl
      · decide
      · decide
  have hone : Run isSolid (shown.map Prod.fst) (y + q + 1) (y + q + 1 + 1) := by
    intro x hx hlt
    obtain rfl : x = y + q + 1 := by omega
    exact hsolid
  obtain ⟨⟨j, k, l'⟩, hfind⟩ : ∃ found,
      SecretPattern.apiKey.find word.isWord (shown.map Prod.fst) y = some found :=
    Regex.Rewrite.find_isSome hname (spans_some1.mpr ⟨Nat.lt_succ_self _, hone⟩) rfl
  -- The match found there is of this assignment
  obtain ⟨rfl, m', v', l'', hsame⟩ := assignment_of_find h hfind
  obtain ⟨e, he⟩ := hsame.start
  rw [hy, Option.some.injEq, Prod.mk.injEq, Option.some.injEq] at he
  obtain rfl : m = m' := he.2
  obtain ⟨rfl, rfl⟩ := hsame.assignment.unique hassignment
  exact ⟨y, j, l', hsame⟩

/-- The values are the matches of `apiKey`, and are made alike. -/
theorem leftmost_assignment_iff (h : List.Laid text (cutPassword word text) 0 shown)
    (hsame : SameAssignment word text shown y j k m v l) :
    Leftmost (SecretPattern.apiKey.Found word.isWord (shown.map Prod.fst)) y k ↔
      Leftmost (fun m l => ∃ v, Assignment word text m v l) m l := by
  refine Leftmost.transfer
    (fun y k m l => ∃ j v, SameAssignment word text shown y j k m v l) ?_ ?_ ?_ ?_
    y k m l ⟨j, v, hsame⟩
  · rintro y k ⟨j, k', hfind⟩
    obtain ⟨rfl, m, v, l, hsame⟩ := assignment_of_find h hfind
    exact ⟨m, l, j, v, hsame⟩
  · rintro m l ⟨v, hassignment⟩
    obtain ⟨y, j, k, hsame⟩ := find_of_assignment h hassignment
    exact ⟨y, k, j, v, hsame⟩
  · rintro y k m l ⟨j, v, hsame⟩
    exact ⟨⟨j, k, hsame.find⟩, v, hsame.assignment⟩
  · rintro y k m l y' k' m' l' ⟨j, v, hsame⟩ ⟨j', v', hsame'⟩
    obtain ⟨c, hc⟩ := hsame.start
    obtain ⟨c', hc'⟩ := hsame'.start
    have hstart := h.lt_iff hc hc'
    have hend := hsame.value hc'
    omega

/-- `apiKey` drops the values. -/
theorem drops_apiKey_iff (h : List.Laid text (cutPassword word text) 0 shown) {c : CodePoint}
    (hy : shown[y]? = some (c, some x)) :
    SecretPattern.apiKey.Drops word.isWord (shown.map Prod.fst) y ↔ InValue word text x := by
  -- The value begins behind the last character of what is kept
  have hbegin : ∀ {i j k m v l}, SameAssignment word text shown i j k m v l → (j ≤ y ↔ v ≤ x) := by
    intro i j k m v l hsame
    obtain ⟨d, hd⟩ := hsame.last
    have hlast := h.lt_iff hd hy
    have hij := hsame.lt
    have hmv : m < v := by
      obtain ⟨n, p, hnamed⟩ := named_of_spans hsame.assignment.name
      have := hnamed.lt
      have := hnamed.le
      have := hnamed.lt'
      omega
    omega
  constructor
  · rintro ⟨i, j, k, l, hfind, hmade, hj, hk⟩
    obtain ⟨rfl, m, v, e, hsame⟩ := assignment_of_find h hfind
    exact ⟨m, v, e, hsame.assignment, (leftmost_assignment_iff h hsame).mp hmade,
      (hbegin hsame).mp hj, (hsame.value hy).mp hk⟩
  · rintro ⟨m, v, l, hassignment, hmade, hv, hl⟩
    obtain ⟨i, j, k, hsame⟩ := find_of_assignment h hassignment
    exact ⟨i, j, k, k, hsame.find, (leftmost_assignment_iff h hsame).mpr hmade,
      (hbegin hsame).mpr hv, (hsame.value hy).mpr hl⟩

end Values

/-! ## All four -/

section All

variable (word : WordTable) (text : PyStr)

/-- The four patterns leave just the characters that are not `Covered`. -/
theorem left_iff (c : CodePoint) (x : Nat) :
    (c, some x) ∈ SecretPattern.apiKey.subTraced word.isWord
        (SecretPattern.url.subTraced word.isWord (SecretPattern.bearer.subTraced word.isWord
          (SecretPattern.groqKey.subTraced word.isWord (List.trace text)))) ↔
      text[x]? = some c ∧ ¬Covered word text x := by
  have hlaid : List.Laid text (cutPassword word text) 0 (SecretPattern.url.subTraced word.isWord
      (SecretPattern.bearer.subTraced word.isWord
        (SecretPattern.groqKey.subTraced word.isWord (List.trace text)))) :=
    laid_url (laid_bearer (laid_groqKey word.isWord text))
  generalize SecretPattern.url.subTraced word.isWord (SecretPattern.bearer.subTraced word.isWord
    (SecretPattern.groqKey.subTraced word.isWord (List.trace text))) = shown at hlaid ⊢
  -- Every match takes at least one character
  have hprogress : ∀ i j k l, SecretPattern.apiKey.find word.isWord (shown.map Prod.fst) i =
      some (j, k, l) → i < l := by
    intro i j k l hfind
    obtain ⟨hij, hjk, hkl⟩ := Regex.Rewrite.find_le hfind
    obtain ⟨-, m, v, e, hsame⟩ := assignment_of_find hlaid hfind
    have := hsame.lt
    omega
  -- A character lost earlier stays lost; of one still shown the last pattern decides
  by_cases hmem : (c, some x) ∈ shown
  · obtain ⟨y, hy⟩ := List.mem_iff_getElem?.mp hmem
    obtain ⟨hat, hkept⟩ := hlaid.getElem?_of_kept hy
    rw [covers_cutPassword] at hkept
    rw [Regex.Rewrite.mem_subTraced_iff hprogress hy fun y' hy' => hlaid.eq_of_kept hy' hy,
      drops_apiKey_iff hlaid hy, and_iff_right hat]
    refine not_congr ⟨fun hvalue => .inr (.inr (.inr hvalue)), ?_⟩
    rintro (hgroq | htoken | hpassword | hvalue)
    · exact (hkept (.inl hgroq)).elim
    · exact (hkept (.inr (.inl htoken))).elim
    · exact (hkept (.inr (.inr hpassword))).elim
    · exact hvalue
  · refine iff_of_false (fun hleft => hmem (Regex.Rewrite.mem_of_mem_subTraced hleft)) ?_
    rintro ⟨hat, hfree⟩
    refine hmem (hlaid.mem_iff.mpr ⟨Nat.zero_le x, hat, fun hcovers => hfree ?_⟩)
    rcases covers_cutPassword.mp hcovers with hgroq | htoken | hpassword
    · exact .inl hgroq
    · exact .inr (.inl htoken)
    · exact .inr (.inr (.inl hpassword))

end All

end NexaAssist.Spec.CredentialPlaces
