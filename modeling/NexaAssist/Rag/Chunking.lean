import NexaAssist.ForStd.PyText

/-!
# Splitting documents

Paragraph first, and a paragraph that is too long on white space.
-/

namespace NexaAssist

open PyJson

def DEFAULT_CHUNK_SIZE : Nat := 800

def MIN_CHUNK_SIZE : Nat := 50

/-- The loop of `_split_long`: the parts so far, and the current one. -/
def splitLongStep (chunkSize : Nat) : List PyStr × PyStr → PyStr → List PyStr × PyStr
  | (parts, current), word =>
    let candidate := PyStr.strip (current ++ .ofString " " ++ word)
    if chunkSize < candidate.length && !current.isEmpty then (parts ++ [current], word)
    else (parts, candidate)

/-- `_split_long`. -/
def splitLong (paragraph : PyStr) (chunkSize : Nat) : List PyStr :=
  let (parts, current) := (PyStr.words paragraph).foldl (splitLongStep chunkSize) ([], [])
  if current.isEmpty then parts else parts ++ [current]

/-- `chunk_text`, of a `chunk_size` that is large enough. -/
def chunksOf (text : PyStr) (chunkSize : Nat) : List PyStr :=
  let chunks := ((PyStr.splitOn (.ofString "\n\n") text).map PyStr.strip).flatMap fun paragraph =>
    if paragraph.isEmpty then []
    else if paragraph.length ≤ chunkSize then [paragraph]
    else splitLong paragraph chunkSize
  -- A document of pure whitespace still has to yield something storable.
  if chunks.isEmpty && !(PyStr.strip text).isEmpty then [PyStr.strip text] else chunks

/-- `chunk_text`. With a `chunk_size` that is too small it raises a `ValueError`. -/
def chunkText (text : PyStr) (chunkSize : Nat) : Option (List PyStr) :=
  if chunkSize < MIN_CHUNK_SIZE then none else some (chunksOf text chunkSize)

end NexaAssist
