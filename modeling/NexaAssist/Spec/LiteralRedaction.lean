import NexaAssist.Core.Logging
import NexaAssist.ForStd.TracedSubstitution

/-!
# What is left of registered secrets

The secrets are replaced one after another, so of two that share characters the one whose turn
comes first may leave the rest of the other.
-/

namespace NexaAssist.Spec.LiteralRedaction

open NexaAssist PyJson

/-- The first loop of `redact`, traced. -/
def redactLiterals (f : SecretRedactingFilter) (text : PyStr) :
    List (CodePoint × Option Nat) :=
  f.literals.foldl (fun shown secret => List.replaceTraced secret REDACTED shown)
    (List.trace text)

/-- `redact` applies the patterns to what `redactLiterals` leaves. -/
theorem redact_eq (f : SecretRedactingFilter) (text : PyStr) :
    f.redact text = SECRET_PATTERNS.foldl (fun text pattern => pattern.sub f.word.isWord text)
      ((redactLiterals f text).map Prod.fst) := by
  have hfold : ∀ (literals : List PyStr) (shown : List (CodePoint × Option Nat)),
      (literals.foldl (fun shown secret => List.replaceTraced secret REDACTED shown) shown).map
        Prod.fst = literals.foldl (fun text secret => List.replaceAll secret REDACTED text)
          (shown.map Prod.fst) := by
    intro literals
    induction literals with
    | nil => exact fun _ => rfl
    | cons literal literals ih =>
      intro shown
      rw [List.foldl_cons, List.foldl_cons, ih, List.map_fst_replaceTraced]
  rw [redactLiterals, hfold, List.map_fst_trace, SecretRedactingFilter.redact]

/-- Position `i` is in an occurrence of a secret. -/
def Covered (secrets : List PyStr) (text : PyStr) (i : Nat) : Prop :=
  ∃ secret ∈ secrets, ∃ p, secret <+: text.drop p ∧ p ≤ i ∧ i < p + secret.length

/-- No character of an occurrence is left. -/
def Complete (secrets : List PyStr) (word : WordTable) (text : PyStr) : Prop :=
  ∀ i, Covered secrets text i → ∀ c, (c, some i) ∉ redactLiterals (.init secrets word) text

/-- The secrets in their order, as `__init__` keeps them. -/
def literals (secrets : List PyStr) : List PyStr := secrets.filter (· ≠ [])

/-- Every character of an occurrence is in one that is replaced. -/
def Tiled (secrets : List PyStr) (text : PyStr) : Prop :=
  ∀ i, Covered secrets text i →
    List.Within (List.Cut (literals secrets) text (literals secrets).length) i

/-- No secret is found in a mark, or across the edge of one, when its turn comes. -/
def Apart (secrets : List PyStr) (text : PyStr) : Prop :=
  ∀ k secret, (literals secrets)[k]? = some secret →
    ∀ shown, List.Shows text REDACTED (List.Cut (literals secrets) text k) 0 shown →
      List.Apart secret shown

/-- Where the marks are not taken for secrets, nothing is left of the secrets just if every
    character of an occurrence is in one that shares none with a replaced occurrence of an earlier
    secret, nor with one of its own further left. -/
theorem complete_iff_tiled (secrets : List PyStr) (word : WordTable) (text : PyStr)
    (hapart : Apart secrets text) : Complete secrets word text ↔ Tiled secrets text := by
  have hwords : ∀ secret ∈ literals secrets, secret ≠ [] := by
    intro secret hsecret
    simpa using (List.mem_filter.mp hsecret).2
  have hleft : ∀ (c : CodePoint) (i : Nat),
      (c, some i) ∈ redactLiterals (.init secrets word) text ↔ text[i]? = some c ∧
        ¬List.Within (List.Cut (literals secrets) text (literals secrets).length) i :=
    fun c i => List.mem_foldl_replaceTraced (by decide) hwords hapart
  unfold Complete Tiled
  refine forall_congr' fun i => forall_congr' fun hcovered => ?_
  constructor
  · intro hnone
    obtain ⟨secret, -, p, hprefix, hle, hlt⟩ := hcovered
    have hlength := hprefix.length_le
    rw [List.length_drop] at hlength
    have hat : text[i]? = some text[i] := List.getElem?_eq_getElem (by omega)
    by_contra hgone
    exact hnone _ ((hleft _ i).mpr ⟨hat, hgone⟩)
  · intro hgone c hmem
    exact ((hleft c i).mp hmem).2 hgone

private def passwords : List PyStr := [.ofString "hunter2", .ofString "tiger"]

/-- Two passwords that stand apart are removed just if the text is tiled. -/
theorem complete_iff_tiled_apart :
    Complete passwords .asciiOnly (.ofString "tiger hunter2") ↔
      Tiled passwords (.ofString "tiger hunter2") := by
  apply complete_iff_tiled
  intro k secret hsecret shown hshown
  have hmem : secret ∈ passwords := (List.mem_filter.mp (List.mem_of_getElem? hsecret)).1
  have hall : (passwords.all fun secret => secret.all fun c => !REDACTED.contains c) = true := by
    decide
  apply hshown.apart_of_disjoint
  intro c hc
  simpa using List.all_eq_true.mp (List.all_eq_true.mp hall secret hmem) c hc

/-- One key begins another. -/
private def keys : List PyStr := [.ofString "sk-live", .ofString "sk-live-4f2a"]

/-- What the shorter leaves of the longer is logged. -/
theorem longer_key_left :
    ¬Complete keys .asciiOnly (.ofString "key sk-live-4f2a") ∧
      (SecretRedactingFilter.init keys .asciiOnly).redact (.ofString "key sk-live-4f2a") =
        .ofString "key ***REDACTED***-4f2a" := by
  constructor
  · intro h
    refine h 11 ⟨.ofString "sk-live-4f2a", by simp [keys], 4, by decide, by decide, by decide⟩
      0x2d ?_
    decide +kernel
  · decide +kernel

end NexaAssist.Spec.LiteralRedaction
