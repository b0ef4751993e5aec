import NexaAssist.ForStd.PyStr

/-!
# Application error types

Every error the application raises deliberately is an `AppError`: a status, a
code, a message, and details keyed by field. A class of the source is a function
from what its constructor is given to such a value.
-/

namespace NexaAssist

open PyJson

/-- An error the application raises deliberately. -/
structure AppError where
  statusCode : Nat
  code : String
  message : PyStr
  details : List (String × PyStr)
  deriving DecidableEq

/-- No job is stored under the requested identifier. -/
def jobNotFoundError (details : List (String × PyStr))
    (message : PyStr := .ofString "The requested job was not found.") : AppError where
  statusCode := 404
  code := "job_not_found"
  message := message
  details := details

/-- A payload could not be stored. -/
def jobPayloadError (details : List (String × PyStr))
    (message : PyStr := .ofString "The job payload could not be serialised.") : AppError where
  statusCode := 500
  code := "job_payload_error"
  message := message
  details := details

/-- A job was enqueued with a malformed name or attempt budget. -/
def jobDefinitionError (details : List (String × PyStr)) (message : PyStr) : AppError where
  statusCode := 500
  code := "job_definition_error"
  message := message
  details := details

/-- The queue backend could not be reached. -/
def jobQueueUnavailableError (details : List (String × PyStr)) : AppError where
  statusCode := 503
  code := "job_queue_unavailable"
  message := .ofString "The job queue is currently unavailable."
  details := details

/-- No ticket exists with the requested identifier. -/
def ticketNotFoundError (details : List (String × PyStr)) : AppError where
  statusCode := 404
  code := "ticket_not_found"
  message := .ofString "The requested ticket was not found."
  details := details

/-- No conversation exists with the requested identifier. -/
def conversationNotFoundError (details : List (String × PyStr)) : AppError where
  statusCode := 404
  code := "conversation_not_found"
  message := .ofString "The requested conversation was not found."
  details := details

/-- No review item exists with the requested identifier. -/
def reviewItemNotFoundError (details : List (String × PyStr)) : AppError where
  statusCode := 404
  code := "review_item_not_found"
  message := .ofString "The requested review item was not found."
  details := details

/-- No database is configured. -/
def databaseNotConfiguredError : AppError where
  statusCode := 500
  code := "database_not_configured"
  message := .ofString "No database is configured for this service."
  details := []

end NexaAssist
