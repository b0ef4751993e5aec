import NexaAssist.Auth.Tickets
import NexaAssist.Core.Errors

/-!
# The key authenticator

`ApiKeyAuthenticator`: a presented key is compared with every configured one.
-/

namespace NexaAssist

open PyJson

/-- No credentials were presented at all. -/
def authenticationRequiredError : AppError where
  statusCode := 401
  code := "authentication_required"
  message := .ofString "Authentication is required."
  details := []

/-- Credentials were presented and did not match. -/
def invalidCredentialsError : AppError where
  statusCode := 401
  code := "invalid_credentials"
  message := .ofString "Authentication is required."
  details := []

/-- Why there is no identity. -/
inductive AuthenticationFailure
  | refused (error : AppError)
  /-- `compare_digest` takes no text that is not ASCII. -/
  | typeError
  deriving DecidableEq

/-- One configured key, and the subject it identifies. -/
structure ApiKeyCredential where
  subject : Text
  secret : PyStr

/-- The configured keys. Its constructor raises unless there is one, and each subject is
    there only once. -/
structure ApiKeyAuthenticator where
  credentials : List ApiKeyCredential
  nonempty : credentials ≠ []
  distinct : (credentials.map (·.subject)).Nodup

/-- `secrets.compare_digest`. -/
def compareDigest (a b : PyStr) : Except AuthenticationFailure Bool :=
  if a.all (·.val < 0x80) && b.all (·.val < 0x80) then .ok (a = b) else .error .typeError

namespace ApiKeyAuthenticator

/-- The loop of `_match`: the last key that matches, with no early exit. -/
def matchFrom (presented : PyStr) (found : Option ApiKeyCredential) :
    List ApiKeyCredential → Except AuthenticationFailure (Option ApiKeyCredential)
  | [] => .ok found
  | credential :: credentials =>
    match compareDigest presented credential.secret with
    | .error failure => .error failure
    | .ok true => matchFrom presented (some credential) credentials
    | .ok false => matchFrom presented found credentials

def authenticate (authenticator : ApiKeyAuthenticator) (presented : Option PyStr) :
    Except AuthenticationFailure RequestIdentity :=
  match presented with
  | none => .error (.refused authenticationRequiredError)
  | some presented =>
    if presented.isEmpty then .error (.refused authenticationRequiredError)
    else
      match matchFrom presented none authenticator.credentials with
      | .error failure => .error failure
      | .ok none => .error (.refused invalidCredentialsError)
      | .ok (some credential) => .ok (.apiKey credential.subject)

end ApiKeyAuthenticator

end NexaAssist
