import Mathlib.Data.List.Dedup
import Mathlib.Data.List.Lex
import Mathlib.Data.List.Sort
import Mathlib.Order.Fin.Basic
import NexaAssist.ForStd.PyDict
import NexaAssist.Schemas.Types

/-!
# What an evaluation case is

An input, and what should be true of the output. A suite is some cases, no two of which share an
id.
-/

namespace NexaAssist

open PyJson

/-- A suite, case, or check is malformed, with what the error's details name. -/
inductive EvaluationDefinitionError
  | duplicateIds (suite : PyStr) (duplicates : List PyStr)
  | noCases (suite : PyStr)
  | noField
  | noAllowed
  | noChecks (target : PyStr)
  | differentSuites (baseline current : PyStr)
  deriving DecidableEq

def EvaluationDefinitionError.message : EvaluationDefinitionError → PyStr
  | .duplicateIds .. => lit "Case ids must be unique within a suite."
  | .noCases _ => lit "A suite must contain at least one case."
  | .noField => lit "A field name is required."
  | .noAllowed => lit "An allowed set may not be empty."
  | .noChecks _ => lit "At least one check is required."
  | .differentSuites .. => lit "Reports from different suites are not comparable."

/-- One input, and what should hold of the result. -/
structure EvalCase where
  id : Text
  inputs : PyDict PyStr PyValue
  expectations : PyDict PyStr PyValue

/-- A named set of cases, evaluated together. -/
structure EvalSuite where
  name : Text
  cases : List EvalCase
  distinct : (cases.map (·.id.val)).Nodup
  nonempty : cases ≠ []

namespace EvalSuite

/-- The ids that were seen before, in their order. -/
def repeated (seen : List PyStr) : List PyStr → List PyStr
  | [] => []
  | id :: ids => if id ∈ seen then id :: repeated seen ids else repeated (id :: seen) ids

/-- `repeated` finds nothing just where the ids are apart and new. -/
theorem repeated_eq_nil {seen ids : List PyStr} (h : repeated seen ids = []) :
    ids.Nodup ∧ ∀ id ∈ ids, id ∉ seen := by
  induction ids generalizing seen with
  | nil => exact ⟨List.nodup_nil, by simp⟩
  | cons id ids ih =>
    rw [repeated] at h
    split at h
    · cases h
    · rename_i hnew
      obtain ⟨hdistinct, hothers⟩ := ih h
      refine ⟨List.nodup_cons.mpr ⟨fun hmem => hothers id hmem List.mem_cons_self, hdistinct⟩, ?_⟩
      intro other hother
      obtain rfl | hmem := List.mem_cons.mp hother
      · exact hnew
      · exact fun hseen => hothers other hmem (List.mem_cons_of_mem id hseen)

/-- `model_post_init`. -/
def build (name : Text) (cases : List EvalCase) : Except EvaluationDefinitionError EvalSuite :=
  if hrepeated : repeated [] (cases.map (·.id.val)) = [] then
    if hcases : cases = [] then .error (.noCases name.val)
    else .ok { name, cases, distinct := (repeated_eq_nil hrepeated).1, nonempty := hcases }
  else .error (.duplicateIds name.val
    ((repeated [] (cases.map (·.id.val))).dedup.insertionSort (· ≤ ·)))

end EvalSuite

end NexaAssist
