import NexaAssist.Frontend.Frames
import NexaAssist.Frontend.Payloads
import NexaAssist.Realtime.FrameText

/-!
# The wire carries texts

The frames of the two sides were told apart from their texts: what the server sends is what the
client has, and a frame of the client's is a document of so many bytes. Both are so of the texts
that are sent.
-/

namespace NexaAssist

open PyJson

namespace Spec.WireText

open FrameText Frontend JsonText
open RateLimit (write writeItems writeFields floats itemFloats fieldFloats texts itemTexts fieldTexts)
open ApiError (property stringProperty shown)

/-! ## From the server to the client -/

/-- The numbers of a citation are read as what they are. -/
def Exact (print : Rat → PyStr) (citation : Citation) : Prop :=
  Rounding.nearest citation.ordinal = citation.ordinal ∧
    number jsInt (print citation.similarity.val) = some (.float citation.similarity.val)

/-- The client reads a text as `wireText` has it. -/
theorem readText_received (text : PyStr) : readText (received (.str text)) = wireText text := by
  rw [received_str, readText, loadsStr_map_raw]

/-- An object is received field by field. -/
theorem received_obj (fields : List (PyStr × Json)) :
    received (.obj fields) = .object (plainFields jsInt (writeFields fields)) := by
  rw [received, write, plain]

/-- An integer that is a double is received as it is. -/
theorem received_int {i : Int} (h : Rounding.nearest i = i) : received (.int i) = .int i := by
  rw [received, write, plain, jsInt, if_pos h]

/-- `readNat` reads an integer that is a double as it is. -/
theorem readNat_ordinal {n : Nat} (h : Rounding.nearest n = n) :
    readNat (received (.int n)) = some n := by
  rw [received_int (by exact_mod_cast h)]
  simp [readNat, readNumber]

/-- A finite float is received as it is. -/
theorem received_float (x : Rat) : received (.float (.finite x)) = .float x := by
  rw [received, write, plain]

/-- `lit` gives two texts two literals. -/
theorem lit_inj {a b : String} : lit a = lit b ↔ a = b := PyStr.ofString_inj

/-- `readCitation` reads a citation as `wireCitation` has it. -/
theorem readCitation_received {print : Rat → PyStr} {citation : Citation} (h : Exact print citation) :
    readCitation (received citation.json) = wireCitation citation := by
  obtain ⟨hordinal, -⟩ := h
  have hread : readCitation (received citation.json) = (do
      let documentId ← wireText citation.documentId.str
      let documentTitle ← wireText citation.documentTitle
      let ordinal ← some citation.ordinal
      let excerpt ← wireText citation.excerpt
      let similarity ← some citation.similarity.val
      return { documentId, documentTitle, ordinal, excerpt, similarity }) := by
    rw [Citation.json, received_obj, readCitation]
    simp [property_received, lit_inj, readText_received, readNat_ordinal hordinal, received_float,
      readNumber]
  rw [hread, wireCitation]
  cases wireText citation.documentId.str <;> cases wireText citation.documentTitle <;>
    cases wireText citation.excerpt <;> rfl

/-- `readCitations` reads a list of citations as `wireCitation` has each of them. -/
theorem readCitations_received {print : Rat → PyStr} {citations : List Citation}
    (h : ∀ citation ∈ citations, Exact print citation) :
    readCitations (received (.arr (citations.map Citation.json))) =
      wireList wireCitation citations := by
  rw [received, write, plain, readCitations]
  induction citations with
  | nil => rfl
  | cons citation citations ih =>
    have hfirst := readCitation_received (h citation List.mem_cons_self)
    rw [List.map_cons, writeItems, plainItems, wireList, wireList,
      ih fun other hother => h other (List.mem_cons_of_mem citation hother)]
    rw [received] at hfirst
    rw [hfirst]

/-- A truth value is received as it is. -/
theorem received_bool (b : Bool) : received (.bool b) = .bool b := by
  rw [received, write, plain]

/-- A property that may be `null`, where it is there. -/
theorem optionalProperty_of_some {α : Type} {read : JsonDoc → Option α} {name : String}
    {fields : List (List StrItem × JsonDoc)} {doc : JsonDoc} (h : property name fields = some doc)
    (hdoc : doc ≠ .null) : optionalProperty read name fields = (read doc).map some := by
  unfold optionalProperty
  rw [h]
  cases doc with
  | null => exact absurd rfl hdoc
  | _ => rfl

/-- `optionalProperty` reads an id, or that there is none. -/
theorem optionalProperty_id {name : String} {fields : List (List StrItem × JsonDoc)}
    {id : Option Uuid} (h : property name fields = some (received (idJson id))) :
    optionalProperty readText name fields = wireId id := by
  cases id with
  | none =>
    unfold optionalProperty
    rw [h]
    rfl
  | some id =>
    have hstr : received (idJson (some id)) = .str (id.str.map .raw) := received_str _
    rw [optionalProperty_of_some (h.trans (congrArg some hstr)) (by simp), ← hstr]
    exact congrArg _ (readText_received id.str)

/-- The client reads of a message, as it was written, the type and the fields that `wire` has. -/
theorem readFrame_received {print : Rat → PyStr} (message : ServerMessage)
    (h : ∀ text deltas id grounded citations escalated,
      message = .complete text deltas id grounded citations escalated →
      ∀ citation ∈ citations, Exact print citation) :
    ∃ fields type, received message.json = .object fields ∧
      stringProperty "type" fields = some type ∧ readFrame fields type = some (wire message) := by
  cases message with
  | delta text =>
    refine ⟨_, lit "delta", received_obj _, ?_, ?_⟩
    · simp [stringProperty, property_received, lit_inj, received_str, loadsStr_map_raw]
    · simp [readFrame, property_received, lit_inj, readText_received, wire]
      cases wireText text <;> rfl
  -- The one frame with optional fields and a list
  | complete text deltas conversationId grounded citations escalated =>
    refine ⟨_, lit "complete", received_obj _, ?_, ?_⟩
    · simp [stringProperty, property_received, lit_inj, received_str, loadsStr_map_raw]
    · generalize hfields : plainFields jsInt (writeFields _) = fields
      have hproperty (name : String) := property_received name
        [(lit "type", .str (lit "complete")), (lit "text", .str text),
          (lit "deltas", .int deltas), (lit "conversation_id", idJson conversationId),
          (lit "grounded", .bool grounded), (lit "citations", .arr (citations.map Citation.json)),
          (lit "escalated", .bool escalated)]
      rw [hfields] at hproperty
      have htext : (property "text" fields).bind readText = wireText text := by
        simp [hproperty, lit_inj, readText_received]
      have hid : optionalProperty readText "conversation_id" fields = wireId conversationId :=
        optionalProperty_id (by simp [hproperty, lit_inj])
      have hbool (name : String) (b : Bool) (hb : property name fields = some (received (.bool b))) :
          optionalProperty readBool name fields = some (some b) := by
        rw [received_bool] at hb
        exact optionalProperty_of_some hb (by simp)
      have hgrounded := hbool "grounded" grounded (by simp [hproperty, lit_inj])
      have hescalated := hbool "escalated" escalated (by simp [hproperty])
      have hcitations : optionalProperty readCitations "citations" fields =
          (wireList wireCitation citations).map some := by
        have hexact := h _ _ _ _ _ _ rfl
        rw [← readCitations_received hexact]
        refine optionalProperty_of_some (by simp [hproperty, lit_inj]) ?_
        rw [received, write, plain]
        simp
      simp [readFrame, lit_inj, htext, hid, hgrounded, hescalated, hcitations, wire]
      cases wireText text <;> cases wireId conversationId <;>
        cases wireList wireCitation citations <;> rfl
  | error code message =>
    refine ⟨_, lit "error", received_obj _, ?_, ?_⟩
    · simp [stringProperty, property_received, lit_inj, received_str, loadsStr_map_raw]
    · simp [readFrame, property_received, lit_inj, readText_received, wire]
      cases wireText code <;> cases wireText message <;> rfl

/-- A text that gets over the wire can be encoded. -/
theorem wellFormed_of_wireText {text : PyStr} {shown : String} (h : wireText text = some shown) :
    wellFormed text = true := by
  unfold wireText at h
  split at h
  · assumption
  · cases h

/-- The texts of a citation that gets over the wire can be encoded. -/
theorem wellFormed_citation {citation : Citation} {read : Frontend.Citation}
    (h : wireCitation citation = some read) : (texts citation.json).all wellFormed = true := by
  unfold wireCitation at h
  split at h
  · rename_i id title excerpt hid htitle hexcerpt
    have hkeys : [lit "document_id", lit "document_title", lit "ordinal", lit "excerpt",
        lit "similarity"].all wellFormed = true := by decide
    simp only [List.all_cons, List.all_nil, Bool.and_eq_true] at hkeys
    simp [Citation.json, texts, fieldTexts, hkeys, wellFormed_of_wireText hid,
      wellFormed_of_wireText htitle, wellFormed_of_wireText hexcerpt]
  · cases h

/-- The texts of a list of citations that gets over the wire can be encoded. -/
theorem wellFormed_citations {citations : List Citation} {read : List Frontend.Citation}
    (h : wireList wireCitation citations = some read) :
    (texts (.arr (citations.map Citation.json))).all wellFormed = true := by
  rw [texts]
  induction citations generalizing read with
  | nil => rfl
  | cons citation citations ih =>
    unfold wireList at h
    split at h
    · rename_i first rest hfirst hrest
      rw [List.map_cons, itemTexts, List.all_append, wellFormed_citation hfirst, ih hrest]
      rfl
    · cases h

/-- An id that gets over the wire can be encoded. -/
theorem wellFormed_id {id : Option Uuid} {read : Option String} (h : wireId id = some read) :
    (texts (idJson id)).all wellFormed = true := by
  cases id with
  | none => rfl
  | some id =>
    obtain ⟨shown, hshown, -⟩ := Option.map_eq_some_iff.mp h
    simp [idJson, texts, wellFormed_of_wireText hshown]

/-- A message that gets over the wire can be written. -/
theorem wellFormed_of_wire {message : ServerMessage} {frame : ServerFrame}
    (h : wire message = some frame) : (texts message.json).all wellFormed = true := by
  have hkeys : [lit "type", lit "text", lit "delta", lit "deltas", lit "conversation_id",
      lit "grounded", lit "citations", lit "escalated", lit "complete", lit "error", lit "code",
      lit "message", lit "details"].all wellFormed = true := by decide
  simp only [List.all_cons, List.all_nil, Bool.and_eq_true] at hkeys
  cases message with
  | delta text =>
    obtain ⟨shown, hshown, -⟩ := Option.map_eq_some_iff.mp h
    simp [ServerMessage.json, texts, fieldTexts, hkeys, wellFormed_of_wireText hshown]
  | complete text deltas conversationId grounded citations escalated =>
    rw [wire] at h
    split at h
    · rename_i shown id read htext hid hcitations
      have hsources := wellFormed_citations hcitations
      rw [texts] at hsources
      simp only [ServerMessage.json, texts, fieldTexts, List.all_cons, List.all_append,
        List.all_nil, hkeys, wellFormed_of_wireText htext, wellFormed_id hid, hsources,
        Bool.and_self]
    · cases h
  | error code message =>
    rw [wire] at h
    split at h
    · rename_i shown told hcode hmessage
      simp [ServerMessage.json, texts, fieldTexts, hkeys, wellFormed_of_wireText hcode,
        wellFormed_of_wireText hmessage]
    · cases h

/-- The citations of a message. -/
def citationsOf : ServerMessage → List Citation
  | .complete _ _ _ _ citations _ => citations
  | _ => []

/-- The floats of citations are their similarities. -/
theorem finite_citations (citations : List Citation) :
    (itemFloats (citations.map Citation.json)) =
      citations.map fun citation => .finite citation.similarity.val := by
  induction citations with
  | nil => rfl
  | cons citation citations ih =>
    rw [List.map_cons, itemFloats, ih]
    rfl

/-- A message has no other floats. -/
theorem floats_json (message : ServerMessage) :
    floats message.json =
      (citationsOf message).map fun citation => .finite citation.similarity.val := by
  cases message with
  | complete text deltas conversationId grounded citations escalated =>
    rw [citationsOf, ← finite_citations]
    cases conversationId <;>
      simp [ServerMessage.json, floats, fieldFloats, idJson]
  | _ => rfl

/-- `parseServerFrame` reads the text of a message as what `wire` makes of the message. -/
theorem bind_parseServerFrame {print : Rat → PyStr} {message : ServerMessage}
    (h : ∀ citation ∈ citationsOf message, Exact print citation) :
    (frameText print message.json).bind parseServerFrame = wire message := by
  by_cases hwritten : (texts message.json).all wellFormed = true
  · have hfinite : (floats message.json).all RateLimit.isFinite = true := by
      rw [floats_json, List.all_map, List.all_eq_true]
      exact fun _ _ => rfl
    have hprint : Prints print message.json := by
      intro x hx
      rw [floats_json] at hx
      obtain ⟨citation, hmem, hx⟩ := List.mem_map.mp hx
      obtain rfl := PyFloat.finite.inj hx
      exact (h citation hmem).2
    have hexact : ∀ text deltas id grounded citations escalated,
        message = .complete text deltas id grounded citations escalated →
        ∀ citation ∈ citations, Exact print citation := by
      intro text deltas id grounded citations escalated heq
      rw [heq] at h
      exact h
    obtain ⟨fields, type, hfields, htype, hframe⟩ := readFrame_received message hexact
    rw [frameText, if_pos hwritten, Option.bind_some, parseServerFrame,
      parse_write hfinite hprint, hfields]
    simp only [htype, hframe, Option.getD_some]
  · rw [frameText, if_neg hwritten, Option.bind_none]
    cases hwire : wire message with
    | none => rfl
    | some frame => exact absurd (wellFormed_of_wire hwire) hwritten

/-- `parseServerFrame` reads the text of the greeting as `ready`. -/
theorem bind_parseServerFrame_ready (print : Rat → PyStr) (connectionId : PyStr) :
    (frameText print (readyJson connectionId)).bind parseServerFrame =
      (wireText connectionId).map fun id => .ready id PROTOCOL_VERSION := by
  have hprint : Prints print (readyJson connectionId) := by
    intro x hx
    simp [readyJson, floats, fieldFloats] at hx
  have hversion : readNat (received (.int PROTOCOL_VERSION)) = some PROTOCOL_VERSION :=
    readNat_ordinal (by decide +kernel)
  by_cases hid : wellFormed connectionId = true
  · have hwritten : (texts (readyJson connectionId)).all wellFormed = true := by
      have hkeys : [lit "type", lit "ready", lit "connection_id",
          lit "protocol_version"].all wellFormed = true := by decide
      simp only [List.all_cons, List.all_nil, Bool.and_eq_true] at hkeys
      simp [readyJson, texts, fieldTexts, hkeys, hid]
    rw [frameText, if_pos hwritten, Option.bind_some, parseServerFrame, parse_write rfl hprint,
      readyJson, received_obj]
    simp [stringProperty, property_received, lit_inj, received_str, loadsStr_map_raw, readFrame,
      readText, hversion]
    cases wireText connectionId <;> rfl
  · have hwritten : ¬(texts (readyJson connectionId)).all wellFormed = true := by
      simp [readyJson, texts, fieldTexts, hid]
    rw [frameText, if_neg hwritten, wireText, if_neg hid]
    rfl

/-- `parseServerFrame` reads a pong. -/
theorem bind_parseServerFrame_pong (print : Rat → PyStr) :
    (frameText print pongJson).bind parseServerFrame = some .pong := by
  have hprint : Prints print pongJson := by
    intro x hx
    simp [pongJson, floats, fieldFloats] at hx
  have hwritten : (texts pongJson).all wellFormed = true := by decide
  rw [frameText, if_pos hwritten, Option.bind_some, parseServerFrame, parse_write rfl hprint,
    pongJson, received_obj]
  simp [stringProperty, property_received, lit_inj, received_str, loadsStr_map_raw, readFrame]

/-! ## From the client to the server -/

/-- The bytes of two texts are those of both. -/
theorem utf8Length_append (a b : PyStr) : utf8Length (a ++ b) = utf8Length a + utf8Length b := by
  rw [utf8Length, List.map_append, List.sum_append]
  rfl

/-- One character adds its own bytes. -/
theorem utf8Length_cons (c : CodePoint) (text : PyStr) :
    utf8Length (c :: text) = utf8Bytes c + utf8Length text := List.sum_cons

/-- An escaped unit has six bytes. -/
theorem utf8Length_unitText (unit : Nat) : utf8Length (unitText unit) = 6 := by
  have hdigit (n : Nat) : utf8Bytes (hexDigit (n % 16)) = 1 := by
    have hall : ∀ d < 16, utf8Bytes (hexDigit d) = 1 := by decide
    exact hall _ (Nat.mod_lt _ (by decide))
  have hdigits : hexDigits 4 unit = [hexDigit (unit / 16 / 16 / 16 % 16),
    hexDigit (unit / 16 / 16 % 16), hexDigit (unit / 16 % 16), hexDigit (unit % 16)] := rfl
  rw [unitText, hdigits, utf8Length]
  simp only [List.cons_append, List.nil_append, List.map_cons, List.map_nil, List.sum_cons,
    List.sum_nil, hdigit]
  decide

/-- An item has the bytes that `itemBytes` counts. -/
theorem utf8Length_itemText (item : StrItem) : utf8Length (itemText item) = itemBytes item := by
  cases item with
  | esc unit => exact utf8Length_unitText unit.val
  | raw c =>
    rw [itemText, itemBytes]
    split
    · rename_i e he
      have hletters : letters.all (fun e => utf8Bytes e.2 = 1 ∧
          e.1.val ∈ [0x08, 0x09, 0x0A, 0x0C, 0x0D, 0x22, 0x5C]) = true := by decide
      have hc : e.1 = c := by simpa using List.find?_some he
      obtain ⟨hletter, hmem⟩ :=
        of_decide_eq_true (List.all_eq_true.mp hletters e (List.mem_of_find?_eq_some he))
      rw [hc] at hmem
      rw [if_pos hmem, utf8Length_cons, utf8Length_cons, hletter]
      rfl
    · rename_i hnone
      -- A character that `JSON.stringify` escapes by a letter is one of the table's
      have hnot : c.val ∉ [0x08, 0x09, 0x0A, 0x0C, 0x0D, 0x22, 0x5C] := by
        intro hmem
        have htable : [0x08, 0x09, 0x0A, 0x0C, 0x0D, 0x22, 0x5C].all (fun code =>
            letters.any fun e => e.1.val = code) = true := by decide
        obtain ⟨e, he, heq⟩ := List.any_eq_true.mp (List.all_eq_true.mp htable c.val hmem)
        rw [List.find?_eq_none] at hnone
        exact hnone e he (by simpa using Fin.ext (of_decide_eq_true heq))
      rw [if_neg hnot]
      split
      · exact utf8Length_unitText c.val
      · simp [utf8Length]

/-- A string has those that `stringBytes` counts. -/
theorem utf8Length_stringText (items : List StrItem) :
    utf8Length (stringText items) = stringBytes items := by
  have hitems : utf8Length (items.flatMap itemText) = (items.map itemBytes).sum := by
    induction items with
    | nil => rfl
    | cons item items ih =>
      rw [List.flatMap_cons, utf8Length_append, utf8Length_itemText, ih, List.map_cons,
        List.sum_cons]
  rw [stringText, utf8Length_append, utf8Length_append, hitems, stringBytes]
  show 1 + (items.map itemBytes).sum + 1 = (items.map itemBytes).sum + 2
  omega

/-- A value has those that `valueBytes` counts. -/
theorem utf8Length_value (value : Option JsString) :
    utf8Length (docText (fun _ => []) (stringifyValue value)) = valueBytes value := by
  cases value with
  | none => decide
  | some s =>
    rw [stringifyValue, docText, utf8Length_stringText]
    rfl

/-- The fields of an object take the bytes of each of them and of the commas between them. -/
theorem utf8Length_fields (o : JsObject) :
    utf8Length (fieldsText (fun _ => []) (o.map fun field =>
      ((PyStr.ofString field.1).map .raw, stringifyValue field.2))) =
        (o.map fieldBytes).sum + (o.length - 1) := by
  induction o with
  | nil => rfl
  | cons field o ih =>
    have hfirst : utf8Length (stringText ((PyStr.ofString field.1).map .raw)) + 1 +
        utf8Length (docText (fun _ => []) (stringifyValue field.2)) = fieldBytes field := by
      rw [utf8Length_stringText, utf8Length_value]
      rfl
    have hcolon : utf8Bytes 0x3a = 1 := by decide
    have hcomma : utf8Bytes 0x2c = 1 := by decide
    rw [List.map_cons, fieldsText, utf8Length_append, utf8Length_cons, utf8Length_append, hcolon,
      List.map_cons, List.sum_cons, ← hfirst]
    cases o with
    | nil =>
      rw [List.map_nil, List.isEmpty_nil, if_pos rfl]
      show _ + (1 + (_ + 0)) = _ + 0 + 0
      omega
    | cons next o =>
      rw [List.map_cons, List.isEmpty_cons, if_neg Bool.false_ne_true, utf8Length_cons, hcomma,
        ← List.map_cons (f := fun field : String × Option JsString =>
          ((PyStr.ofString field.1).map StrItem.raw, stringifyValue field.2)), ih]
      simp only [List.length_cons]
      omega

/-- The text of a client's frame has as many bytes as `bytes` counts. -/
theorem utf8Length_textOf (o : JsObject) : utf8Length (textOf o) = o.bytes := by
  have hopen : utf8Bytes 0x7b = 1 := by decide
  rw [textOf, JsObject.stringify, docText, utf8Length_cons, utf8Length_append, utf8Length_fields,
    hopen, JsObject.bytes]
  show 1 + (_ + 1) = _ + 2
  omega

/-- What `stringify` writes of a character is plain. -/
theorem plainItem_stringifyChar (c : CodePoint) : plainItem (stringifyChar c) = stringifyChar c := by
  rw [stringifyChar]
  split
  · rename_i hsurrogate
    have hval : Fin.ofNat 0x110000 c.val = c := Fin.ofNat_val_eq_self c
    rw [plainItem, readUnit, hval, if_pos hsurrogate]
  · rfl

/-- What `stringifyChar` writes can be encoded. -/
theorem writable_stringifyChar (c : CodePoint) : writable (stringifyChar c) = true := by
  rw [stringifyChar]
  split
  · rename_i hsurrogate
    simp only [isSurrogate, isHigh, isLow] at hsurrogate
    simp at hsurrogate
    exact decide_eq_true (by omega)
  · rfl

/-- `parse` reads the text of a client's frame as what `stringify` writes. -/
theorem parse_textOf (o : JsObject) : parse JsonDoc.int (textOf o) = some o.stringify := by
  have hvalue (value : Option JsString) : Printable JsonDoc.int (fun _ => []) (stringifyValue value) ∧
      plain JsonDoc.int (stringifyValue value) = stringifyValue value := by
    cases value with
    | none => exact ⟨trivial, rfl⟩
    | some s =>
      rw [stringifyValue, Printable, plain, JsString.stringify, List.all_map, List.map_map]
      refine ⟨List.all_eq_true.mpr fun c _ => writable_stringifyChar c, ?_⟩
      congr 1
      exact List.map_congr_left fun c _ => plainItem_stringifyChar c
  have hprintable : Printable JsonDoc.int (fun _ => []) o.stringify := by
    rw [JsObject.stringify, Printable]
    induction o with
    | nil => trivial
    | cons field o ih =>
      exact ⟨⟨all_writable_raw _, (hvalue field.2).1⟩, ih⟩
  have hplain : plain JsonDoc.int o.stringify = o.stringify := by
    rw [JsObject.stringify, plain]
    congr 1
    clear hprintable
    induction o with
    | nil => rfl
    | cons field o ih =>
      rw [List.map_cons, plainFields, map_plainItem_raw, (hvalue field.2).2, ih]
  rw [textOf, parse_docText hprintable, hplain]

/-- The text of every message of the server's is read by the client as the frame that was told of
    it, or cannot be written where none was; and a text of the client's is received as the frame
    that was told of it. -/
theorem wire_carries_texts {print : Rat → PyStr} {message : ServerMessage}
    (h : ∀ citation ∈ citationsOf message, Exact print citation) :
    (frameText print message.json).bind parseServerFrame = wire message ∧
    (∀ connectionId, (frameText print (readyJson connectionId)).bind parseServerFrame =
      (wireText connectionId).map fun id => .ready id PROTOCOL_VERSION) ∧
    (frameText print pongJson).bind parseServerFrame = some .pong ∧
    ∀ uuid maxMessageBytes (o : JsObject), receiveText uuid maxMessageBytes (textOf o) =
      receive uuid maxMessageBytes { document := some o.stringify, bytes := o.bytes } := by
  refine ⟨bind_parseServerFrame h, bind_parseServerFrame_ready print,
    bind_parseServerFrame_pong print, fun uuid maxMessageBytes o => ?_⟩
  rw [receiveText, parse_textOf, utf8Length_textOf]

/-- A quote from the third span of a document. -/
def quoted : Citation where
  documentId := .repeated 7
  documentTitle := lit "Refunds"
  ordinal := 2
  excerpt := lit "Within 30 days\n\"of delivery\"."
  similarity := .clamp (1 / 2)

/-- A writer of floats, as far as it is needed. -/
def printQuoted (x : Rat) : PyStr := if x = 1 / 2 then lit "0.5" else lit "0.0"

/-- `printQuoted` is exact for the example. -/
theorem exact_quoted : Exact printQuoted quoted := by
  have htext : printQuoted (1 / 2) = lit "0.5" := if_pos rfl
  have hminus : minus (lit "0.5") = (false, lit "0.5") := by decide
  have hform : (!whole ((lit "0.5").takeWhile Numeral.isDigit) ||
      !pointed ((lit "0.5").dropWhile Numeral.isDigit)) = false := by decide
  have hfraction : ((lit "0.5").dropWhile Numeral.isDigit).isEmpty = false := by decide
  have hvalue : Numeral.magnitude (lit "0.5") = some (1 / 2) := by decide +kernel
  have hnear : Rounding.nearest (1 / 2) = 1 / 2 := by decide +kernel
  have hrange : ¬outOfRange (1 / 2) := by decide +kernel
  have hsimilarity : quoted.similarity.val = 1 / 2 := by decide +kernel
  refine ⟨by decide +kernel, ?_⟩
  rw [hsimilarity]
  simp only [number, htext, hminus, hform, hfraction, hvalue, Bool.false_eq_true, if_false,
    Option.map_some, floatOf, if_neg hrange, hnear]

def yes : ServerMessage := .complete (lit "Yes.") 1 none true [quoted] false

/-- A short answer gets over the wire. -/
theorem wire_carries_texts_yes :
    (frameText printQuoted yes.json).bind parseServerFrame = wire yes := by
  have hexact : ∀ citation ∈ citationsOf yes, Exact printQuoted citation := by
    intro citation hcitation
    rw [List.mem_singleton.mp hcitation]
    exact exact_quoted
  exact (wire_carries_texts hexact).1

end Spec.WireText

end NexaAssist
