import NexaAssist.ForStd.PyNumeral
import NexaAssist.Frontend.Transport
import NexaAssist.Realtime.Envelope

/-!
# Questions on the socket and over HTTP

Which texts the socket takes as a question and which the assistant endpoint takes as a
message. The two differ in one bound, so that a question between the bounds is answered over
HTTP and is a protocol error on the socket. The ceiling for frames never comes into it.
-/

namespace NexaAssist.Spec.TransportChoice

open NexaAssist PyJson Frontend

variable {uuid : PyStr → Option Uuid} {text : JsString} {conversationId : Option JsString}

/-- The frame `send` puts on the socket is read as a question. -/
def SocketAccepts (uuid : PyStr → Option Uuid) (text : JsString)
    (conversationId : Option JsString) : Prop :=
  ∃ question id, receive uuid DEFAULT_MAX_MESSAGE_BYTES
    { document := some (sentOnSocket text conversationId).stringify
      bytes := (sentOnSocket text conversationId).bytes } = .handled (.ask question id)

/-- The body `send` posts is valid. -/
def HttpAccepts (uuid : PyStr → Option Uuid) (text : JsString)
    (conversationId : Option JsString) : Prop :=
  ∃ request, AssistantMessageRequest.validate uuid
    (loads (sentOverHttp text conversationId).stringify) = some request

/-- There is no conversation, or its id is a UUID. -/
def Addressed (uuid : PyStr → Option Uuid) (conversationId : Option JsString) : Prop :=
  ∀ id, conversationId = some id → wellFormed id.codePoints = true ∧
    (uuid id.codePoints).isSome = true

/-- The text can be read as text, and has so many characters at most. -/
def Readable (maxLength : Nat) (text : JsString) : Prop :=
  wellFormed text.codePoints = true ∧ text.codePoints.length ≤ maxLength

/-! ## Fields -/

/-- `boundedText` takes a text that is readable. -/
theorem boundedText_isSome {maxLength : Nat} (htext : text ≠ []) :
    (boundedText maxLength (.str text.codePoints)).isSome = true ↔ Readable maxLength text := by
  have hne := JsString.codePoints_ne_nil htext
  simp [boundedText, Readable, hne]

/-- `optionalUuid` takes an id that addresses a conversation, or none. -/
theorem optionalUuid_isSome :
    (optionalUuid uuid (some (conversationId.elim .none fun id => .str id.codePoints))).isSome =
      true ↔ Addressed uuid conversationId := by
  cases conversationId with
  | none => simp [optionalUuid, Addressed]
  | some id =>
    simp only [optionalUuid, Addressed, Option.elim_some, Option.some.injEq, forall_eq']
    split <;> simp [*]

/-! ## What is read -/

/-- The conversation of a body, as a value. -/
def idValue (conversationId : Option JsString) : PyValue :=
  conversationId.elim .none fun id => .str id.codePoints

/-- What `loads` reads of a question on the socket. -/
theorem loads_sentOnSocket : loads (sentOnSocket text conversationId).stringify = .dict [
    (.str (lit "type"), .str (lit "ask")), (.str (lit "question"), .str (trim text).codePoints),
    (.str (lit "conversation_id"), idValue conversationId)] := by
  have hask : (JsString.ofAscii "ask").codePoints = lit "ask" := by decide
  simp [JsObject.loads_stringify, sentOnSocket, askFrame, dictOf, dictInsert, lit, hask, idValue]

/-- What `loads` reads of a question over HTTP. -/
theorem loads_sentOverHttp : loads (sentOverHttp text conversationId).stringify = .dict [
    (.str (lit "message"), .str (trim text).codePoints),
    (.str (lit "conversation_id"), idValue conversationId)] := by
  simp [JsObject.loads_stringify, sentOverHttp, messageBody, dictOf, dictInsert, lit, idValue]

/-- `parseClientMessage` takes its question and its id. -/
theorem parseClientMessage_sentOnSocket :
    parseClientMessage uuid (sentOnSocket text conversationId).stringify =
      (boundedText MAX_QUESTION_LENGTH (.str (trim text).codePoints)).bind fun question =>
        (optionalUuid uuid (some (idValue conversationId))).bind fun id =>
          some (.ask question id) := by
  rw [parseClientMessage, loads_sentOnSocket]
  simp [dictLookup, onlyFields, lit]

/-- `validate` takes the message and the id of a question over HTTP. -/
theorem validate_sentOverHttp :
    AssistantMessageRequest.validate uuid (loads (sentOverHttp text conversationId).stringify) =
      (boundedText MAX_MESSAGE_LENGTH (.str (trim text).codePoints)).bind fun message =>
        (optionalUuid uuid (some (idValue conversationId))).bind fun id =>
          some { message, conversationId := id } := by
  rw [loads_sentOverHttp]
  simp [AssistantMessageRequest.validate, dictLookup, onlyFields, lit]

/-! ## What is accepted -/

/-- The longest spelling of a UUID that pydantic takes is a URN's. -/
def ShortIds (uuid : PyStr → Option Uuid) : Prop :=
  ∀ text, (uuid text).isSome = true → text.length ≤ 45

/-- What the endpoint takes fits into a frame, however its characters are escaped. -/
theorem bytes_sentOnSocket_le (hshort : ShortIds uuid) (hid : Addressed uuid conversationId)
    (hlength : (trim text).codePoints.length ≤ MAX_MESSAGE_LENGTH) :
    (sentOnSocket text conversationId).bytes ≤ DEFAULT_MAX_MESSAGE_BYTES := by
  have hidLength : (conversationId.elim 0 fun s => s.codePoints.length) ≤ 45 := by
    cases conversationId with
    | none => exact Nat.zero_le _
    | some id => exact hshort _ (hid id rfl).2
  have htype := fieldBytes_le "type" (some (.ofAscii "ask"))
  have hquestion := fieldBytes_le "question" (some (trim text))
  have hconversation := fieldBytes_le "conversation_id" conversationId
  have hask : (JsString.ofAscii "ask").codePoints.length = 3 := by decide
  have hkeys : "type".length = 4 ∧ "question".length = 8 ∧ "conversation_id".length = 15 :=
    ⟨by decide, by decide, by decide⟩
  simp only [Option.elim_some, hask] at htype hquestion
  simp only [MAX_MESSAGE_LENGTH] at hlength
  simp only [JsObject.bytes, sentOnSocket, askFrame, DEFAULT_MAX_MESSAGE_BYTES, List.map_cons,
    List.map_nil, List.sum_cons, List.sum_nil, List.length_cons, List.length_nil]
  omega

/-- HTTP accepts a question that is readable and addressed. -/
theorem httpAccepts_iff (htext : trim text ≠ []) : HttpAccepts uuid text conversationId ↔
    Readable MAX_MESSAGE_LENGTH (trim text) ∧ Addressed uuid conversationId := by
  rw [HttpAccepts, ← Option.isSome_iff_exists, validate_sentOverHttp, ← boundedText_isSome htext,
    ← optionalUuid_isSome, idValue]
  cases boundedText MAX_MESSAGE_LENGTH (.str (trim text).codePoints) with
  | none => simp
  | some message => simp [Option.isSome_bind]

/-- The socket accepts a question that is readable, within its own bound, and addressed. -/
theorem socketAccepts_iff (hshort : ShortIds uuid) (htext : trim text ≠ []) :
    SocketAccepts uuid text conversationId ↔
      Readable MAX_QUESTION_LENGTH (trim text) ∧ Addressed uuid conversationId := by
  simp only [SocketAccepts, receive_eq_handled, Option.bind_some, parseClientMessage_sentOnSocket,
    Option.bind_eq_some_iff]
  constructor
  · rintro ⟨question, id, -, question', hquestion, id', hid, -⟩
    rw [← boundedText_isSome htext, ← optionalUuid_isSome]
    exact ⟨Option.isSome_of_eq_some hquestion, Option.isSome_of_eq_some hid⟩
  · rintro ⟨hreadable, haddressed⟩
    obtain ⟨question, hquestion⟩ :=
      Option.isSome_iff_exists.mp ((boundedText_isSome htext).mpr hreadable)
    obtain ⟨id, hid⟩ := Option.isSome_iff_exists.mp (optionalUuid_isSome.mpr haddressed)
    have hbytes := bytes_sentOnSocket_le hshort haddressed
      (hreadable.2.trans (by decide : MAX_QUESTION_LENGTH ≤ MAX_MESSAGE_LENGTH))
    exact ⟨question, id, hbytes, question, hquestion, id, hid, rfl⟩

/-! ## Where the two differ -/

/-- One is accepted if the other is. -/
def Alike (uuid : PyStr → Option Uuid) (text : JsString) (conversationId : Option JsString) :
    Prop :=
  SocketAccepts uuid text conversationId ↔ HttpAccepts uuid text conversationId

/-- A question is lost on the socket that HTTP would answer exactly where it is longer than the
    socket's bound and not longer than the endpoint's, and can be read and has a UUID for its
    conversation's id, if it has a conversation. -/
theorem alike_iff (hshort : ShortIds uuid) (htext : trim text ≠ []) :
    Alike uuid text conversationId ↔
      ((trim text).codePoints.length ≤ MAX_QUESTION_LENGTH ∨
        MAX_MESSAGE_LENGTH < (trim text).codePoints.length ∨
        wellFormed (trim text).codePoints = false ∨ ¬Addressed uuid conversationId) := by
  rw [Alike, socketAccepts_iff hshort htext, httpAccepts_iff htext]
  simp only [Readable, MAX_QUESTION_LENGTH, MAX_MESSAGE_LENGTH]
  by_cases hid : Addressed uuid conversationId
  · cases wellFormed (trim text).codePoints with
    | false => simp
    | true =>
      simp only [hid, true_and, and_true, not_true_eq_false, or_false, Bool.true_eq_false]
      omega
  · simp [hid]

private def conversation : String := "6f9619ff-8b86-d011-b42d-00c04fc964ff"

/-- How one UUID is read. -/
private def readsOne (text : PyStr) : Option Uuid :=
  if text = lit conversation then
    some ⟨[6, 15, 9, 6, 1, 9, 15, 15, 8, 11, 8, 6, 13, 0, 1, 1, 11, 4, 2, 13, 0, 0, 12, 0, 4, 15,
      12, 9, 6, 4, 15, 15], rfl⟩
  else none

/-- The ids of the example are short. -/
private theorem readsOne_short : ShortIds readsOne := by
  intro text h
  unfold readsOne at h
  split at h
  · next heq =>
    rw [heq]
    decide
  · exact nomatch h

/-- The condition for a short question. -/
theorem alike_iff_short : Alike readsOne (.ofAscii " Where is my order?")
    (some (.ofAscii conversation)) :=
  (alike_iff readsOne_short (by decide)).mpr (.inl (by decide))

/-- A question of 4001 letters. -/
private def longQuestion : JsString := List.replicate 4001 0x61

/-- A long question has nothing to trim. -/
private theorem trim_longQuestion : trim longQuestion = longQuestion := by
  have hkept (n : Nat) : (List.replicate n (0x61 : JsUnit)).dropWhile isSpaceUnit =
      List.replicate n 0x61 := by
    cases n with
    | zero => rfl
    | succ n =>
      rw [List.replicate_succ, List.dropWhile_cons_of_neg (by decide)]
  rw [trim, longQuestion, hkept, List.reverse_replicate, hkept, List.reverse_replicate]

/-- A repeated letter can be encoded. -/
private theorem wellFormed_replicate (n : Nat) : wellFormed (List.replicate n 0x61) = true := by
  refine List.all_eq_true.mpr fun c hc => ?_
  rw [List.eq_of_mem_replicate hc]
  decide

/-- The long question has 4001 characters. -/
private theorem codePoints_longQuestion :
    (trim longQuestion).codePoints = List.replicate 4001 0x61 := by
  have hmap : longQuestion.map (Fin.castLE (by decide)) = List.replicate 4001 (0x61 : CodePoint) :=
    List.map_replicate
  have hwell : wellFormed (longQuestion.map (Fin.castLE (by decide))) = true := by
    rw [hmap]
    exact wellFormed_replicate 4001
  rw [trim_longQuestion, JsString.codePoints_of_wellFormed hwell, hmap]

/-- The endpoint would answer it, and the socket refuses it. -/
theorem question_lost : ¬Alike readsOne longQuestion none := by
  have hne : trim longQuestion ≠ [] := by
    rw [trim_longQuestion]
    exact List.cons_ne_nil _ _
  have hlength : (trim longQuestion).codePoints.length = 4001 := by
    rw [codePoints_longQuestion, List.length_replicate]
  intro halike
  have hhttp : HttpAccepts readsOne longQuestion none := by
    refine (httpAccepts_iff hne).mpr ⟨⟨?_, hlength ▸ by decide⟩, nofun⟩
    rw [codePoints_longQuestion]
    exact wellFormed_replicate 4001
  have hsocket := ((socketAccepts_iff readsOne_short hne).mp (halike.mpr hhttp)).1.2
  rw [hlength] at hsocket
  exact absurd hsocket (by decide)

end NexaAssist.Spec.TransportChoice
