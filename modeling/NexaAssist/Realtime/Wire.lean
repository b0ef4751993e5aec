import NexaAssist.Frontend.UseRealtime
import NexaAssist.Schemas.Types

/-!
# Frames on the wire

A frame leaves the server as `model_dump_json` writes it, and reaches the client as
`parseServerFrame` reads it. A text with a surrogate in it cannot be written.
-/

namespace NexaAssist

open PyJson

/-- A text on its way from Python to JavaScript. -/
def wireText (text : PyStr) : Option String :=
  if wellFormed text then some (.ofList (text.map fun c => Char.ofNat c.val)) else none

/-- A list on its way, if all of it can go. -/
def wireList {α β : Type} (wire : α → Option β) : List α → Option (List β)
  | [] => some []
  | a :: rest =>
    match wire a, wireList wire rest with
    | some b, some rest => some (b :: rest)
    | _, _ => none

def wireCitation (citation : Citation) : Option Frontend.Citation :=
  match wireText citation.documentId.str, wireText citation.documentTitle,
    wireText citation.excerpt with
  | some documentId, some documentTitle, some excerpt => some {
      documentId, documentTitle
      ordinal := citation.ordinal
      excerpt
      similarity := citation.similarity.val }
  | _, _, _ => none

/-- An id that may be null. -/
def wireId : Option Uuid → Option (Option String)
  | none => some none
  | some id => (wireText id.str).map some

/-- `Connection.send` of a frame, and `parseServerFrame` of what arrives. -/
def wire : ServerMessage → Option Frontend.ServerFrame
  | .delta text => (wireText text).map .delta
  | .complete text _ conversationId grounded citations escalated =>
    match wireText text, wireId conversationId, wireList wireCitation citations with
    | some text, some conversationId, some citations =>
      some (.complete text conversationId (some grounded) (some citations) (some escalated))
    | _, _, _ => none
  | .error code message =>
    match wireText code, wireText message with
    | some code, some message => some (.error code message)
    | _, _ => none

/-! ## What arrives of a list of frames -/

section WireList

variable {α β : Type} {wire : α → Option β}

/-- What gets over the wire for two lists is what does for each. -/
theorem wireList_append {as as' : List α} {bs : List β} (h : wireList wire (as ++ as') = some bs) :
    ∃ front back, bs = front ++ back ∧ wireList wire as = some front ∧
      wireList wire as' = some back := by
  induction as generalizing bs with
  | nil => exact ⟨[], bs, rfl, rfl, h⟩
  | cons a as ih =>
    rw [List.cons_append, wireList] at h
    split at h
    · rename_i b rest ha hrest
      obtain ⟨front, back, rfl, hfront, hback⟩ := ih hrest
      refine ⟨b :: front, back, (Option.some.inj h).symm, ?_, hback⟩
      rw [wireList, ha, hfront]
    · exact nomatch h

/-- What gets over the wire for one item is what does for the item. -/
theorem wireList_singleton {a : α} {bs : List β} (h : wireList wire [a] = some bs) :
    ∃ b, bs = [b] ∧ wire a = some b := by
  rw [wireList] at h
  split at h
  · rename_i b rest ha hrest
    obtain rfl := Option.some.inj hrest
    exact ⟨b, (Option.some.inj h).symm, ha⟩
  · exact nomatch h

/-- Whatever holds of each item that gets over the wire holds of the list. -/
theorem wireList_forall {as : List α} {bs : List β} {P : β → Prop}
    (h : wireList wire as = some bs) (hP : ∀ a ∈ as, ∀ b, wire a = some b → P b) :
    ∀ b ∈ bs, P b := by
  induction as generalizing bs with
  | nil =>
    obtain rfl := Option.some.inj h
    exact fun b hb => nomatch hb
  | cons a as ih =>
    rw [wireList] at h
    split at h
    · rename_i b rest ha hrest
      obtain rfl := Option.some.inj h
      intro c hc
      cases List.mem_cons.mp hc with
      | inl hhead => exact hhead ▸ hP a List.mem_cons_self b ha
      | inr htail => exact ih hrest (fun a' ha' => hP a' (List.mem_cons_of_mem a ha')) c htail
    · exact nomatch h

end WireList

end NexaAssist
