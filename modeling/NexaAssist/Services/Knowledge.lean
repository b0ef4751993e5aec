import NexaAssist.Db.Session

/-!
# Retrieval and grounded answers

Searching the documents, and answering a question from what was found and nothing else.
Citations are rebuilt from the chunks, by the numbers the model says it used.
-/

namespace NexaAssist

open PyJson

/-- One search hit, with enough provenance to cite it. -/
structure RetrievedChunk where
  chunkId : Uuid
  documentId : Uuid
  documentTitle : PyStr
  ordinal : Nat
  content : PyStr
  distance : Rat

/-- Cosine similarity. -/
def RetrievedChunk.similarity (chunk : RetrievedChunk) : Share := .clamp (1 - chunk.distance)

namespace DocumentService

/-- The chunks with the titles of their documents. -/
def titled (db : Database) : List (DocumentChunk × PyStr) :=
  db.chunks.filterMap fun chunk =>
    (db.documents.find? fun document => document.id = chunk.documentId).map fun document =>
      (chunk, document.title)

/-- The chunks nearest `query`, nearest first. -/
def search (query : PyStr) (topK : Nat) : App (List RetrievedChunk) :=
  App.select .nothing fun env db =>
    (env.nearest query topK (titled db)).map fun (chunk, title, distance) => {
      chunkId := chunk.id
      documentId := chunk.documentId
      documentTitle := title
      ordinal := chunk.ordinal
      content := chunk.content
      distance }

end DocumentService

namespace AnswerService

def NO_SOURCES_ANSWER : AnswerText :=
  ⟨lit "I do not have any documentation that covers that question.", by decide⟩

/-- One numbered source. -/
def renderSource (index : Nat) (chunk : RetrievedChunk) : PyStr :=
  lit "[" ++ lit (toString index) ++ lit "] " ++ chunk.documentTitle ++ lit "\n" ++ chunk.content

/-- `_render_question`. -/
def renderQuestion (question : PyStr) (chunks : List RetrievedChunk) : PyStr :=
  lit "Sources:\n\n" ++
    PyStr.join (lit "\n\n") (chunks.zipIdx.map fun (chunk, i) => renderSource (i + 1) chunk) ++
    lit "\n\nQuestion: " ++ question

/-- `_to_citation`. -/
def toCitation (chunk : RetrievedChunk) : Citation where
  documentId := chunk.documentId
  documentTitle := chunk.documentTitle
  ordinal := chunk.ordinal
  excerpt := chunk.content.take 300
  similarity := chunk.similarity

/-- `dict.fromkeys`: each number once, where it comes first. -/
def distinct : List Int → List Int
  | [] => []
  | n :: numbers => n :: (distinct numbers).filter (· ≠ n)

/-- The citations of the sources that exist, by their numbers. -/
def citationsOf (chunks : List RetrievedChunk) (cited : List Int) : List Citation :=
  (distinct cited).filterMap fun (number : Int) =>
    if 1 ≤ number ∧ number ≤ chunks.length then
      (chunks[(number - 1).toNat]?).map toCitation
    else none

def answer (question : PyStr) (topK : Nat) : App GroundedAnswer := do
  let chunks ← DocumentService.search question topK
  if chunks.isEmpty then
    -- No retrieval means no grounding, so the model is not asked.
    pure { answered := false, answer := NO_SOURCES_ANSWER, citations := [] }
  else
    let modelAnswer ← App.complete LLMProvider.groundedModelAnswer {
      system := GROUNDED_ANSWER_SYSTEM_PROMPT
      user := renderQuestion question chunks }
    pure {
      answered := modelAnswer.answered
      answer := modelAnswer.answer
      citations := citationsOf chunks modelAnswer.citedSources }

end AnswerService

end NexaAssist
