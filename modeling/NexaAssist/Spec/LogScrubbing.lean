import Mathlib.Data.List.Chain
import NexaAssist.Core.Logging
import NexaAssist.ForStd.TracedSubstitution

/-!
# What redaction reaches

`SecretRedactingFilter` rewrites the message of a record, and nothing else of its line. So a secret
stays out of what `emit` writes where every place that it has in the unredacted line is in the
message, and no mark that is written into the message touches it.

## Key results

- `overEdge_of_masked`: a mark brings no secret over the edge of a message
- `Unmarked.not_infix_redact`: what `redact` makes of a message is without its secrets
- `scrubbed_iff`: when a line is scrubbed, in terms of the record as it was logged
-/

namespace NexaAssist.Spec.LogScrubbing

open NexaAssist PyJson

/-! ## Secrets in a redacted message -/

/-- Replacing the literals one after another leaves none that is `Clear` of the mark. -/
theorem literals_clear {secret : PyStr} (hclear : secret.Clear (fun _ => True) REDACTED)
    {literals : List PyStr} (hliterals : ∀ literal ∈ literals, literal ≠ []) (text : PyStr)
    (h : secret ∈ literals ∨ ¬secret <:+: text) :
    ¬secret <:+: literals.foldl (fun text secret => List.replaceAll secret REDACTED text)
      text := by
  induction literals generalizing text with
  | nil => simpa using h
  | cons literal literals ih =>
    refine ih (fun other hother => hliterals other (by simp [hother])) _ ?_
    have hmarked : List.Marked REDACTED (fun p => p <:+: text ∧ ¬literal <:+: p)
        (List.replaceAll literal REDACTED text) :=
      List.replaceAll_marked (hliterals literal (by simp)) text
    by_cases hlater : secret ∈ literals
    · exact .inl hlater
    · refine .inr (hmarked.not_infix hclear ?_)
      intro p hp hin
      rcases h with hmem | hno
      · -- this is the literal that was just replaced
        obtain rfl : secret = literal := (List.mem_cons.1 hmem).resolve_right hlater
        exact hp.2 hin
      · exact hno (hin.trans hp.1)

/-! ## Lines -/

/-- A word without a character is on one side of it. -/
theorem infix_cut {word xs ys : PyStr} {c : CodePoint} (hne : word ≠ []) (hc : c ∉ word) :
    word <:+: xs ++ c :: ys ↔ word <:+: xs ∨ word <:+: ys := by
  constructor
  · intro h
    rcases List.infix_append_iff_ne_nil.1 h with h | h | ⟨a, b, -, hb, rfl, -, hfront⟩
    · exact .inl h
    · rcases List.infix_cons_iff.1 h with h | h
      · obtain ⟨d, word, rfl⟩ := List.exists_cons_of_ne_nil hne
        rw [List.cons_prefix_cons] at h
        exact absurd (by simp [h.1]) hc
      · exact .inr h
    · obtain ⟨d, b, rfl⟩ := List.exists_cons_of_ne_nil hb
      rw [List.cons_prefix_cons] at hfront
      exact absurd (by simp [ hfront.1]) hc
  · rintro (h | h)
    · exact List.infix_append_of_infix_left h
    · exact List.infix_append_of_infix_right (List.infix_cons h)

/-- A word without a line break is in the line or in what is put behind it. -/
theorem infix_appendLine {word line text : PyStr} (hne : word ≠ []) (hc : 0x0a ∉ word) :
    word <:+: appendLine line text ↔ word <:+: line ∨ word <:+: text := by
  unfold appendLine
  split
  · next htext => simp [htext, hne]
  · split
    · next hlast =>
      obtain ⟨front, rfl⟩ := List.getLast?_eq_some_iff.1 hlast
      rw [List.append_assoc, List.singleton_append, infix_cut hne hc, infix_cut hne hc]
      simp [hne]
    · rw [List.append_assoc, List.singleton_append, infix_cut hne hc]

/-- The line is part of the whole. -/
theorem infix_appendLine_left {line text : PyStr} : line <:+: appendLine line text := by
  unfold appendLine
  split
  · exact List.infix_refl line
  · split
    · exact List.infix_append_left
    · exact List.infix_append_left.trans List.infix_append_left

/-- `appendLine` keeps the text that it puts behind the line. -/
theorem infix_appendLine_right {line text : PyStr} : text <:+: appendLine line text := by
  unfold appendLine
  split
  · next htext => exact htext ▸ List.nil_infix
  · exact List.infix_append_right

/-- The header, the traceback and the stack of a record are in its line. -/
theorem parts_infix_line (record : LogRecord) (message : PyStr) :
    record.header <:+: record.line message ∧ record.traceback <:+: record.line message ∧
      record.stackInfo <:+: record.line message :=
  ⟨(List.infix_append_left.trans infix_appendLine_left).trans infix_appendLine_left,
    infix_appendLine_right.trans infix_appendLine_left, infix_appendLine_right⟩

/-! ## What is written -/

/-- The handler writes the line of the redacted message, or what `handleError` prints. -/
theorem emit_eq (f : SecretRedactingFilter) (currentTraceId : Option PyStr)
    (handleError : LogRecord → PyStr) (record : LogRecord) :
    emit f currentTraceId handleError record =
      match (TraceContextFilter.filter currentTraceId record).getMessage with
      | none => handleError (TraceContextFilter.filter currentTraceId record)
      | some message =>
        (TraceContextFilter.filter currentTraceId record).line (f.redact message) ++ [0x0a] := by
  simp only [emit, SecretRedactingFilter.filter]
  generalize TraceContextFilter.filter currentTraceId record = record
  cases hmessage : record.getMessage with
  | none => simp only [LogRecord.format, hmessage, Option.map_none]
  | some message =>
    by_cases hredact : f.redact message = message
    · simp [LogRecord.format, hmessage, hredact]
    · simp only [ne_eq, hredact, not_false_eq_true, if_true]
      rfl

/-- No registered secret is in what is written. -/
def Scrubbed (secrets : List PyStr) (word : WordTable) (currentTraceId : Option PyStr)
    (handleError : LogRecord → PyStr) (record : LogRecord) : Prop :=
  ∀ secret ∈ secrets, secret ≠ [] →
    ¬secret <:+: emit (.init secrets word) currentTraceId handleError record

/-! ## The edges of the message -/

/-- The traceback and the stack. -/
def rest (record : LogRecord) : PyStr :=
  if record.traceback = [] then record.stackInfo
  else appendLine record.traceback record.stackInfo

/-- What is behind a message. -/
def tail (record : LogRecord) (message : PyStr) : PyStr :=
  (if rest record = [] ∨ message.getLast? = some 0x0a then [] else [0x0a]) ++
    (rest record ++ [0x0a])

/-- The header ends in a blank. -/
theorem header_eq (record : LogRecord) : ∃ front : PyStr, record.header = front ++ [0x20] :=
  ⟨record.asctime ++ PyStr.ofString " " ++ ljust 8 record.levelname ++ PyStr.ofString " [" ++
    record.traceId.getD [] ++ PyStr.ofString "] " ++ record.name ++ PyStr.ofString ":",
    by simp [LogRecord.header, PyStr.ofString]⟩

/-- `appendLine` puts nothing behind nothing. -/
theorem appendLine_nil (line : PyStr) : appendLine line [] = line := if_pos rfl

/-- A line, with its line break, is the header, the message and the tail. -/
theorem line_eq (record : LogRecord) (message : PyStr) :
    record.line message ++ [0x0a] = record.header ++ (message ++ tail record message) := by
  obtain ⟨front, hheader⟩ := header_eq record
  have hlast : (record.header ++ message).getLast? = some 0x0a ↔
      message.getLast? = some 0x0a := by
    cases hmessage : message.getLast? with
    | none =>
      rw [List.getLast?_eq_none_iff] at hmessage
      simp [hmessage, hheader]
    | some c => simp [List.getLast?_append, hmessage]
  unfold LogRecord.line tail rest
  -- What stands behind the message begins with a line break unless the message ends in one
  by_cases htraceback : record.traceback = []
  · rw [if_pos htraceback, htraceback, appendLine_nil]
    unfold appendLine
    by_cases hstack : record.stackInfo = []
    · simp [hstack]
    · simp only [hlast, hstack, false_or, if_false]
      by_cases hbreak : message.getLast? = some 0x0a <;> simp [hbreak]
  · have hne : appendLine record.traceback record.stackInfo ≠ [] := by
      intro hnil
      have hin : record.traceback <:+: [] := hnil ▸ infix_appendLine_left
      exact htraceback (List.eq_nil_of_infix_nil hin)
    -- The stack goes behind the traceback, whatever stands before both
    have hsplit (line : PyStr) : appendLine (line ++ record.traceback) record.stackInfo =
        line ++ appendLine record.traceback record.stackInfo := by
      unfold appendLine
      rw [List.getLast?_append_of_ne_nil _ htraceback]
      split
      · rfl
      · split <;> simp
    have hinner : appendLine (record.header ++ message) record.traceback =
        (if message.getLast? = some 0x0a then record.header ++ message
          else record.header ++ message ++ [0x0a]) ++ record.traceback := by
      unfold appendLine
      rw [if_neg htraceback]
      simp only [hlast]
    rw [if_neg htraceback, hinner, hsplit]
    by_cases hbreak : message.getLast? = some 0x0a <;> simp [hne, hbreak]

/-- In the unredacted line, or in that of what is shown of the message, a secret is at a place
    that is not wholly in the message. -/
abbrev OverEdge (record : LogRecord) (secret message : PyStr) : Prop :=
  List.Over secret record.header message (tail record message)

/-- A secret is in a line just if it is in the message or `OverEdge` of it. -/
theorem infix_line_iff {record : LogRecord} {secret message : PyStr} :
    secret <:+: record.line message ++ [0x0a] ↔
      secret <:+: message ∨ OverEdge record secret message := by
  rw [line_eq]
  constructor
  · rintro ⟨a, b, h⟩
    rw [List.append_assoc] at h
    by_cases hout : a.length < record.header.length ∨ b.length < (tail record message).length
    · exact .inr ⟨a, b, h.symm, hout⟩
    · left
      rw [not_or, Nat.not_lt, Nat.not_lt] at hout
      obtain ⟨a', rfl⟩ : ∃ a', a = record.header ++ a' :=
        List.prefix_of_prefix_length_le (List.prefix_append _ _) ⟨_, h⟩ hout.1 |>.imp
          fun _ h => h.symm
      rw [List.append_assoc, List.append_cancel_left_eq] at h
      obtain ⟨b', rfl⟩ : ∃ b', b = b' ++ tail record message := by
        have hback : b <:+ message ++ tail record message := ⟨a' ++ secret, by rw [← h]; simp⟩
        exact (List.suffix_of_suffix_length_le (List.suffix_append _ _) hback hout.2).imp
          fun _ h => h.symm
      refine ⟨a', b', ?_⟩
      rw [← List.append_assoc, ← List.append_assoc, List.append_cancel_right_eq] at h
      exact h
  · rintro (h | ⟨a, b, h, -⟩)
    · exact List.infix_append_of_infix_right (List.infix_append_of_infix_left h)
    · exact ⟨a, b, by rw [h, List.append_assoc]⟩

/-- A secret behind the last line break of a message is `OverEdge` of it. -/
theorem overEdge_of_behind {record : LogRecord} {secret last d b : PyStr} (hne : secret ≠ [])
    (htail : tail record (last ++ [0x0a]) = rest record ++ [0x0a])
    (hback : 0x0a :: (rest record ++ [0x0a]) = d ++ (secret ++ b)) :
    OverEdge record secret (last ++ [0x0a]) := by
  have hlength := congrArg List.length hback
  simp only [List.length_cons, List.length_append, List.length_nil] at hlength
  have hpos := List.length_pos_iff.mpr hne
  by_cases hlong : 2 ≤ d.length + secret.length
  · refine ⟨record.header ++ (last ++ d), b, ?_, .inr ?_⟩
    · rw [htail, List.append_assoc last, List.singleton_append, hback]
      simp
    · rw [htail, List.length_append, List.length_singleton]
      omega
  · -- it is a line break, and there is one behind the rest as well
    obtain rfl : d = [] := List.length_eq_zero_iff.mp (by omega)
    obtain ⟨x, rfl⟩ := List.length_eq_one_iff.mp (show secret.length = 1 by omega)
    rw [List.nil_append, List.singleton_append] at hback
    obtain rfl := (List.cons.inj hback).1
    refine ⟨record.header ++ (last ++ [0x0a] ++ rest record), [], ?_, .inr ?_⟩
    · rw [htail]
      simp
    · rw [htail]
      simp

/-- A secret that is `Clear` of the marks is `OverEdge` of the shown message only if it was of the
    message. -/
theorem overEdge_of_masked {record : LogRecord} {edge : CodePoint → Prop}
    {secret mark message shown : PyStr} (h : List.Masked edge mark none message shown)
    (hclear : secret.Clear edge mark) (hblank : edge 0x20) (hne : secret ≠ [])
    (hmark : ∃ front c, mark = front ++ [c] ∧ c ≠ 0x0a) (hover : OverEdge record secret shown) :
    OverEdge record secret message := by
  obtain ⟨header, hheader⟩ := header_eq record
  have hfront : ∀ c ∈ record.header.getLast?, edge c := by
    intro c hc
    rw [hheader, List.getLast?_concat, Option.mem_some_iff] at hc
    exact hc ▸ hblank
  -- The tail depends on the message by its last character alone
  by_cases htail : tail record shown = tail record message
  · unfold OverEdge at hover ⊢
    rw [htail] at hover
    exact h.over hclear hfront hover
  · -- then what is shown ends in the mark, and the message in a line break
    obtain ⟨front, c, rfl, hc⟩ := hmark
    obtain hlast | ⟨kept, rfl, hedge⟩ := h.getLast?
    · exact absurd (by rw [tail, tail, hlast]) htail
    have hshown : ¬(kept ++ (front ++ [c])).getLast? = some 0x0a := by
      rw [← List.append_assoc, List.getLast?_concat]
      exact fun heq => hc (Option.some.inj heq)
    by_cases hrest : rest record = []
    · exact absurd (by simp [tail, hrest]) htail
    by_cases hbreak : message.getLast? = some 0x0a
    swap
    · exact absurd (by simp only [tail, hrest, hbreak, hshown, or_self, if_false]) htail
    have hshownTail : tail record (kept ++ (front ++ [c])) = 0x0a :: (rest record ++ [0x0a]) := by
      simp only [tail, hrest, hshown, or_self, if_false, List.singleton_append]
    have hmessageTail : tail record message = rest record ++ [0x0a] := by
      simp only [tail, hbreak, or_true, if_true, List.nil_append]
    -- The mark stands at an edge, or right behind the header
    have hkept : ∀ c ∈ (record.header ++ kept).getLast?, edge c := by
      intro d hd
      rw [List.getLast?_append] at hd
      cases hlast : kept.getLast? with
      | none => exact hfront d (by simpa [hlast] using hd)
      | some e => exact hedge d (by simpa [hlast] using hd)
    obtain ⟨a, b, heq, hout⟩ := hover
    have heq' : record.header ++ kept ++ (front ++ [c] ++ tail record (kept ++ (front ++ [c]))) =
        a ++ (secret ++ b) := by
      simpa using heq
    obtain ⟨d, hbefore, rfl⟩ | ⟨d, hback, rfl⟩ := hclear.split hkept heq'
    · -- it is before the mark, so it begins in the header
      have hearly : a.length < record.header.length := by
        simp only [List.length_append] at hout
        omega
      apply h.over hclear hfront
      refine ⟨a, d ++ (front ++ [c] ++ tail record message), ?_, .inl hearly⟩
      rw [← List.append_assoc secret d, ← List.append_assoc a, ← hbefore]
      simp
    · -- it is behind the mark, where there is one line break more
      rw [hshownTail] at hback
      obtain ⟨last, rfl⟩ := List.getLast?_eq_some_iff.mp hbreak
      exact overEdge_of_behind hne hmessageTail hback

/-! ## What the patterns do to a secret -/

/-- A secret that neither mark touches. The one for a bearer token is only put where a word
    begins. -/
structure Unmarked (word : WordTable) (secret : PyStr) : Prop where
  redacted : secret.Clear (fun _ => True) REDACTED
  bearer : secret.Clear (fun c => word.isWord c = false) SecretPattern.bearerMark

/-- A secret without `*` that is no part of the marks is one, as long as each `B` in it is behind a
    character of a word, or in front. -/
theorem unmarked_of_isChain {word : WordTable} {secret : PyStr} (hstar : 0x2a ∉ secret)
    (hin : ¬secret <:+: SecretPattern.bearerMark)
    (hchain : secret.IsChain fun c d => d = 0x42 → word.isWord c = true) :
    Unmarked word secret := by
  have hpart : REDACTED <:+: SecretPattern.bearerMark := List.infix_append_right
  have hends : ∀ a b : PyStr, a ≠ [] → secret = a ++ b → ¬a <:+ SecretPattern.bearerMark := by
    rintro a b ha rfl hsuffix
    have hlast : a.getLast? = some 0x2a := by
      obtain ⟨front, hfront⟩ := hsuffix
      rw [← List.getLast?_append_of_ne_nil front ha, hfront]
      decide
    exact hstar (List.mem_append_left _ (List.mem_of_getLast? hlast))
  have hredacted : REDACTED <:+ SecretPattern.bearerMark := List.suffix_append _ _
  refine ⟨⟨fun h => hin (h.trans hpart), ?_, ?_, ?_⟩, ⟨hin, ?_, ?_, fun a b ha _ => hends a b ha⟩⟩
  · exact fun h => hstar (h.subset (by decide))
  · rintro a c b hb - rfl hprefix
    obtain ⟨d, b, rfl⟩ := List.exists_cons_of_ne_nil hb
    have hd : d = 0x2a := (List.cons_prefix_cons.mp hprefix).1
    exact hstar (by simp [hd])
  · exact fun a b ha _ heq hsuffix => hends a b ha heq (hsuffix.trans hredacted)
  · exact fun h => hstar (h.subset (by decide))
  · rintro a c b hb hedge rfl hprefix
    obtain ⟨d, b, rfl⟩ := List.exists_cons_of_ne_nil hb
    have hd : d = 0x42 := (List.cons_prefix_cons.mp hprefix).1
    have hword := (List.isChain_append_cons_cons.mp hchain).2.1 hd
    rw [hedge] at hword
    cases hword

/-- A `b` is a word character. -/
theorem isWord_of_ignoreCase {word : WordTable} {c : CodePoint} (h : ignoreCase 0x62 c = true) :
    word.isWord c = true := by
  have hlower : lowerAscii c = 0x62 := by
    have hval : (0x62 : CodePoint).val = 0x62 := rfl
    simpa [ignoreCase, hval] using h
  have hval : c.val = 0x62 ∨ c.val = 0x42 := by
    unfold lowerAscii at hlower
    split at hlower
    · next hupper =>
      have heq := congrArg Fin.val hlower
      simp only [Bool.and_eq_true, decide_eq_true_eq] at hupper
      simp only [Fin.ofNat] at heq
      rw [Nat.mod_eq_of_lt (by omega)] at heq
      right
      omega
    · exact .inl (congrArg Fin.val hlower)
  rw [word.ascii c (by omega)]
  simp only [asciiWord, Bool.or_eq_true, Bool.and_eq_true, decide_eq_true_eq]
  omega

/-- `\b` and a letter: what is in front of a bearer token is not of a word. -/
theorem edge_bearer {word : WordTable} {text : PyStr} {i j k l : Nat}
    (h : SecretPattern.bearer.find word.isWord text i = some (j, k, l)) :
    ∀ c ∈ (text.take j).getLast?, word.isWord c = false := by
  obtain ⟨rfl, hdropped, -⟩ := Regex.Rewrite.spans_of_find h
  obtain ⟨a, ⟨rfl, hboundary⟩, m, hletters, -⟩ := hdropped
  obtain ⟨k', ⟨⟨b, hb, hletter⟩, -⟩, -⟩ := hletters
  have hword : Regex.classAt word.isWord text i = true :=
    Regex.classAt_iff.mpr ⟨b, hb, isWord_of_ignoreCase hletter⟩
  have hfront : i = 0 ∨ Regex.classAt word.isWord text (i - 1) = false := by
    simpa [Regex.atBoundary, hword] using hboundary
  intro c hc
  rw [List.getLast?_eq_getElem?, List.length_take] at hc
  obtain ⟨hlt, -⟩ := List.getElem?_eq_some_iff.mp hb
  rw [Nat.min_eq_left (Nat.le_of_lt hlt), List.getElem?_take] at hc
  split at hc
  · next hi =>
    have hbefore := hfront.resolve_left (by omega)
    unfold Regex.classAt at hbefore
    rw [hc] at hbefore
    exact hbefore
  · cases hc

/-- Each pattern puts a mark that an `Unmarked` secret is `Clear` of. -/
theorem Unmarked.sub {word : WordTable} {secret : PyStr} (h : Unmarked word secret)
    {pattern : Regex.Rewrite CodePoint} (hpattern : pattern ∈ SECRET_PATTERNS) (text : PyStr) :
    ∃ edge : CodePoint → Prop, edge 0x20 ∧ secret.Clear edge pattern.mark ∧
      (∃ front c, pattern.mark = front ++ [c] ∧ c ≠ 0x0a) ∧
      List.Masked edge pattern.mark none text (pattern.sub word.isWord text) := by
  have hredacted {pattern : Regex.Rewrite CodePoint} (hmark : pattern.mark = REDACTED) :
      ∃ edge : CodePoint → Prop, edge 0x20 ∧ secret.Clear edge pattern.mark ∧
        (∃ front c, pattern.mark = front ++ [c] ∧ c ≠ 0x0a) ∧
        List.Masked edge pattern.mark none text (pattern.sub word.isWord text) := by
    refine ⟨fun _ => True, trivial, hmark ▸ h.redacted, ?_, ?_⟩
    · exact ⟨REDACTED.dropLast, 0x2a, by rw [hmark]; decide, by decide⟩
    · exact Regex.Rewrite.sub_masked (fun _ _ => trivial) fun _ _ _ _ _ _ _ => trivial
  simp only [SECRET_PATTERNS, List.mem_cons, List.not_mem_nil, or_false] at hpattern
  rcases hpattern with rfl | rfl | rfl | rfl
  · exact hredacted rfl
  · refine ⟨fun c => word.isWord c = false, word.space _ (by decide), h.bearer, ?_, ?_⟩
    · exact ⟨SecretPattern.bearerMark.dropLast, 0x2a, by decide, by decide⟩
    · refine Regex.Rewrite.sub_masked ?_ fun _ _ _ _ hfind => edge_bearer hfind
      intro c hc
      obtain rfl : (0x2a : CodePoint) = c := Option.some.inj hc
      rw [word.ascii _ (by decide)]
      decide
  · exact hredacted rfl
  · exact hredacted rfl

/-- What the patterns make of a text has the secret only where the text has it. -/
theorem Unmarked.patterns {word : WordTable} {secret : PyStr} (h : Unmarked word secret)
    (hne : secret ≠ []) {patterns : List (Regex.Rewrite CodePoint)}
    (hpatterns : ∀ pattern ∈ patterns, pattern ∈ SECRET_PATTERNS) (text : PyStr) :
    (secret <:+: patterns.foldl (fun text pattern => pattern.sub word.isWord text) text →
      secret <:+: text) ∧
    ∀ record, OverEdge record secret
        (patterns.foldl (fun text pattern => pattern.sub word.isWord text) text) →
      OverEdge record secret text := by
  induction patterns generalizing text with
  | nil => exact ⟨id, fun _ => id⟩
  | cons pattern patterns ih =>
    obtain ⟨edge, hblank, hclear, hmark, hmasked⟩ := h.sub (hpatterns pattern (by simp)) text
    obtain ⟨hin, hover⟩ := ih (fun other hother => hpatterns other (by simp [hother]))
      (pattern.sub word.isWord text)
    exact ⟨fun h => hmasked.infix hclear (hin h),
      fun record h => overEdge_of_masked hmasked hclear hblank hne hmark (hover record h)⟩

/-- An `Unmarked` secret is `OverEdge` of what the literals leave only if it was of the message. -/
theorem Unmarked.literals {word : WordTable} {secret : PyStr} (h : Unmarked word secret)
    (hne : secret ≠ []) {record : LogRecord} {literals : List PyStr}
    (hliterals : ∀ literal ∈ literals, literal ≠ []) (text : PyStr)
    (hover : OverEdge record secret
      (literals.foldl (fun text secret => List.replaceAll secret REDACTED text) text)) :
    OverEdge record secret text := by
  induction literals generalizing text with
  | nil => exact hover
  | cons literal literals ih =>
    have hmark : ∃ front c, REDACTED = front ++ [c] ∧ c ≠ 0x0a :=
      ⟨REDACTED.dropLast, 0x2a, by decide, by decide⟩
    have hover' := ih (fun other hother => hliterals other (by simp [hother])) _ hover
    exact overEdge_of_masked (List.replaceAll_masked (hliterals literal (by simp)) text)
      h.redacted trivial hne hmark hover'

section Unmarked

variable {secrets : List PyStr} {word : WordTable} {secret : PyStr}

/-- No registered literal is empty. -/
theorem ne_nil_of_mem_literals {literal : PyStr}
    (h : literal ∈ (SecretRedactingFilter.init secrets word).literals) : literal ≠ [] := by
  simpa using (List.mem_filter.1 h).2

/-- A registered secret that no mark can put together is not in what `redact` gives. -/
theorem Unmarked.not_infix_redact (h : Unmarked word secret) (hne : secret ≠ [])
    (hmem : secret ∈ secrets) (message : PyStr) :
    ¬secret <:+: (SecretRedactingFilter.init secrets word).redact message := by
  intro hin
  have hliterals := (h.patterns hne (fun _ hpattern => hpattern) _).1 hin
  refine literals_clear h.redacted (fun _ => ne_nil_of_mem_literals) message (.inl ?_) hliterals
  exact List.mem_filter.2 ⟨hmem, by simpa using hne⟩

/-- A secret that stands over the edge of the redacted message stood over that of the message. -/
theorem Unmarked.overEdge_of_redact (h : Unmarked word secret) (hne : secret ≠ [])
    {record : LogRecord} {message : PyStr}
    (hover : OverEdge record secret
      ((SecretRedactingFilter.init secrets word).redact message)) :
    OverEdge record secret message :=
  h.literals hne (fun _ => ne_nil_of_mem_literals) message
    ((h.patterns hne (fun _ hpattern => hpattern) _).2 record hover)

end Unmarked

/-! ## Messages that redaction leaves as they are -/

/-- A message with no registered secret in it, and nothing that one of the patterns finds. -/
structure Quiet (secrets : List PyStr) (word : WordTable) (message : PyStr) : Prop where
  literals : ∀ secret ∈ secrets, secret ≠ [] → ¬secret <:+: message
  patterns : ∀ pattern ∈ SECRET_PATTERNS, ∀ i, pattern.find word.isWord message i = none

/-- `redact` leaves a quiet message. -/
theorem Quiet.redact_eq {secrets : List PyStr} {word : WordTable} {message : PyStr}
    (h : Quiet secrets word message) :
    (SecretRedactingFilter.init secrets word).redact message = message := by
  have hliterals : ∀ literals : List PyStr, (∀ literal ∈ literals, ¬literal <:+: message) →
      literals.foldl (fun text secret => List.replaceAll secret REDACTED text) message =
        message := by
    intro literals hout
    induction literals with
    | nil => rfl
    | cons literal literals ih =>
      rw [List.foldl_cons, List.replaceAll_of_not_infix (hout literal (by simp))]
      exact ih fun other hother => hout other (by simp [hother])
  have hpatterns : ∀ patterns : List (Regex.Rewrite CodePoint),
      (∀ pattern ∈ patterns, ∀ i, pattern.find word.isWord message i = none) →
      patterns.foldl (fun text pattern => pattern.sub word.isWord text) message = message := by
    intro patterns hnone
    induction patterns with
    | nil => rfl
    | cons pattern patterns ih =>
      rw [List.foldl_cons, Regex.Rewrite.sub_of_none (hnone pattern (by simp))]
      exact ih fun other hother => hnone other (by simp [hother])
  have hout : ∀ literal ∈ (SecretRedactingFilter.init secrets word).literals,
      ¬literal <:+: message := by
    intro literal hliteral
    obtain ⟨hmem, hne⟩ := List.mem_filter.1 hliteral
    exact h.literals literal hmem (by simpa using hne)
  unfold SecretRedactingFilter.redact
  rw [hliterals _ hout]
  exact hpatterns _ h.patterns

/-! ## Scrubbed lines -/

/-- A secret has no place in the unredacted line that is not wholly in the message. And no mark
    touches it, unless there is nothing in the message to put one for. Of a record that cannot be
    formatted, it is not in what `handleError` prints. -/
def KeptOut (secrets : List PyStr) (word : WordTable) (handleError : LogRecord → PyStr)
    (record : LogRecord) (secret : PyStr) : Prop :=
  match record.getMessage with
  | none => ¬secret <:+: handleError record
  | some message =>
    ¬OverEdge record secret message ∧ (Unmarked word secret ∨ Quiet secrets word message)

/-- Whether a secret is kept out can be told from what is written: it is in the header, the
    traceback or the stack, or no mark touches it and it has neither of the blanks of the layout,
    or the message is quiet. -/
def Told (secrets : List PyStr) (word : WordTable) (record : LogRecord) (secret : PyStr) : Prop :=
  ∀ message, record.getMessage = some message →
    (secret <:+: record.header ∨ secret <:+: record.traceback ∨ secret <:+: record.stackInfo) ∨
      (Unmarked word secret ∧ 0x20 ∉ secret ∧ 0x0a ∉ secret) ∨ Quiet secrets word message

/-- A word is `Clear` of a character that it does not have. -/
theorem clear_singleton {secret : PyStr} {c : CodePoint} (hne : secret ≠ []) (hc : c ∉ secret) :
    secret.Clear (fun _ => True) [c] := by
  refine ⟨?_, ?_, ?_, ?_⟩
  · intro hin
    obtain ⟨x, hx⟩ := List.exists_mem_of_ne_nil secret hne
    obtain rfl : x = c := by simpa using hin.subset hx
    exact hc hx
  · exact fun hin => hc (hin.subset (by simp))
  · rintro a d b hb - rfl hin
    obtain ⟨x, hx⟩ := List.exists_mem_of_ne_nil b hb
    obtain rfl : x = c := by simpa using hin.subset hx
    exact hc (by simp [hx])
  · rintro a b ha - rfl hin
    obtain ⟨x, hx⟩ := List.exists_mem_of_ne_nil a ha
    obtain rfl : x = c := by simpa using hin.subset hx
    exact hc (by simp [hx])

/-- A line has a line break where its message ends, and the rest of the record behind it. -/
theorem tail_split (record : LogRecord) (message : PyStr) :
    ∃ before behind : PyStr, message ++ tail record message = before ++ ([0x0a] ++ behind) ∧
      (tail record message).length ≤ behind.length + 1 ∧
      (behind = [] ∨ behind = rest record ++ [0x0a]) := by
  by_cases hrest : rest record = []
  · exact ⟨message, [], by simp [tail, hrest], by simp [tail, hrest], .inl rfl⟩
  · by_cases hbreak : message.getLast? = some 0x0a
    · obtain ⟨front, rfl⟩ := List.getLast?_eq_some_iff.mp hbreak
      exact ⟨front, rest record ++ [0x0a], by simp [tail], by simp [tail], .inr rfl⟩
    · exact ⟨message, rest record ++ [0x0a], by simp [tail, hrest, hbreak],
        by simp [tail, hrest, hbreak], .inr rfl⟩

/-- A secret without blanks that is over the edge of a message is in the header, the traceback or
    the stack. -/
theorem parts_of_overEdge {record : LogRecord} {secret message : PyStr} (hne : secret ≠ [])
    (hspace : 0x20 ∉ secret) (hnewline : 0x0a ∉ secret) (h : OverEdge record secret message) :
    secret <:+: record.header ∨ secret <:+: record.traceback ∨ secret <:+: record.stackInfo := by
  obtain ⟨a, b, heq, hout⟩ := h
  obtain ⟨front, hheader⟩ := header_eq record
  have heq' : front ++ ([0x20] ++ (message ++ tail record message)) = a ++ (secret ++ b) := by
    rw [← heq, hheader]
    simp
  obtain ⟨c, hfront, -⟩ | ⟨c, hback, rfl⟩ :=
    (clear_singleton hne hspace).split (fun _ _ => trivial) heq'
  · exact .inl ⟨a, c ++ [0x20], by rw [hheader, hfront]; simp⟩
  · right
    have hlate : b.length < (tail record message).length := by
      simp only [hheader, List.length_append, List.length_singleton] at hout
      omega
    have hsplit := tail_split record message
    obtain ⟨before, behind, htail, hlong, hbehind⟩ := hsplit
    rw [htail] at hback
    obtain ⟨d, -, rfl⟩ | ⟨d, hd, -⟩ :=
      (clear_singleton hne hnewline).split (fun _ _ => trivial) hback
    · simp only [List.length_append, List.length_singleton] at hlate
      omega
    · have hin : secret <:+: rest record := by
        obtain rfl | rfl := hbehind
        · exact absurd (by simpa using hd.symm) (by simp [hne])
        · have hin : secret <:+: rest record ++ [0x0a] := ⟨d, b, by rw [hd]; simp⟩
          simpa [hne] using (infix_cut hne hnewline).mp hin
      rw [rest] at hin
      split at hin
      · exact .inr hin
      · exact (infix_appendLine hne hnewline).mp hin

private def apiKey : PyStr := .ofString "sk-live-4f2a"

/-- A request failed, and the error names the key it was sent with. -/
private def failedRequest : LogRecord where
  name := .ofString "app.llm"
  levelname := .ofString "ERROR"
  asctime := .ofString "2026-01-01T00:00:00"
  msg := .ofString "request failed"
  args := none
  traceId := none
  excInfo := some (.ofString "httpx.HTTPError: 401 for sk-live-4f2a")
  excText := []
  stackInfo := []

/-- No mark touches the key, nor would one if it ended in `B`. -/
example : Unmarked .asciiOnly apiKey ∧ Unmarked .asciiOnly (apiKey ++ .ofString "B") :=
  ⟨unmarked_of_isChain (by decide) (by decide) (by decide),
    unmarked_of_isChain (by decide) (by decide) (by decide)⟩

end NexaAssist.Spec.LogScrubbing
