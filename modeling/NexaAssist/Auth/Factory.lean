import NexaAssist.Auth.Providers
import NexaAssist.Core.Config

/-!
# Configured keys

The keys of a deployment, as `AUTH_API_KEYS` has them, and the authenticator that is built of them.
-/

namespace NexaAssist

open PyJson

/-- The configured authenticator cannot be built. -/
def authenticationConfigurationError (message : PyStr) (details : List (String × PyStr)) : AppError where
  statusCode := 500
  code := "authentication_configuration_error"
  message := message
  details := details

def MIN_KEY_LENGTH : Nat := 16

/-- `parse_credentials` of one entry. -/
def parseCredential (entry : PyStr) : Except AppError ApiKeyCredential :=
  let parts := PyStr.partition 0x3a entry
  let subject := PyStr.strip parts.1
  let secret := PyStr.strip parts.2.2
  if hmalformed : parts.2.1 = false ∨ subject = [] ∨ secret = [] then
    .error (authenticationConfigurationError (lit "A key entry must be 'subject:secret'.")
      [("reason", lit "malformed_entry")])
  else if secret.length < MIN_KEY_LENGTH then
    .error (authenticationConfigurationError
      (lit "An API key must be at least 16 characters.") [("subject", subject)])
  else .ok { subject := ⟨subject, fun hempty => hmalformed (.inr (.inl hempty))⟩, secret }

/-- `parse_credentials`. -/
def parseCredentials (entries : List PyStr) : Except AppError (List ApiKeyCredential) :=
  (entries.filter fun entry => PyStr.strip entry ≠ []).mapM parseCredential

/-- `ApiKeyAuthenticator.__init__`. -/
def ApiKeyAuthenticator.build (credentials : List ApiKeyCredential) :
    Except AppError ApiKeyAuthenticator :=
  if hempty : credentials = [] then
    .error (authenticationConfigurationError
      (lit "The api_key authenticator requires at least one key.") [])
  else if hdistinct : (credentials.map (·.subject)).Nodup then
    .ok { credentials, nonempty := hempty, distinct := hdistinct }
  else
    .error (authenticationConfigurationError (lit "Each subject may be configured only once.") [])

/-- `_build_api_key`. -/
def buildApiKey (entries : List PyStr) : Except AppError ApiKeyAuthenticator :=
  match parseCredentials entries with
  | .error e => .error e
  | .ok credentials => ApiKeyAuthenticator.build credentials

end NexaAssist
