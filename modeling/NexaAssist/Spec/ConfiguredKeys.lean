import NexaAssist.Auth.Factory
import NexaAssist.ForStd.List
import NexaAssist.Spec.KeyAuthentication

/-!
# Whom the environment lets in

One line of text holds the keys of a deployment. What is read of it, who is authenticated by what,
and that the keys that can be written are those that can be read.
-/

namespace NexaAssist.Spec.ConfiguredKeys

open NexaAssist PyJson PyStr Config KeyAuthentication ApiKeyAuthenticator

def colon : CodePoint := 0x3a

/-! ## What is promised -/

/-- An entry of the text and the key that it is. -/
structure Reads (entry : PyStr) (credential : ApiKeyCredential) : Prop where
  split : ∃ front back, entry = front ++ colon :: back ∧ colon ∉ front ∧
    strip front = credential.subject.val ∧ strip back = credential.secret
  long : MIN_KEY_LENGTH ≤ credential.secret.length

/-- A key that one entry can hold. -/
structure Writable (credential : ApiKeyCredential) : Prop where
  subject : Stripped credential.subject.val
  secret : Stripped credential.secret
  named : colon ∉ credential.subject.val ∧ comma ∉ credential.subject.val
  whole : comma ∉ credential.secret
  long : MIN_KEY_LENGTH ≤ credential.secret.length

def entryOf (credential : ApiKeyCredential) : PyStr :=
  credential.subject.val ++ colon :: credential.secret

/-- The line that has the keys. -/
def render (credentials : List ApiKeyCredential) : PyStr :=
  List.intercalate [comma] (credentials.map entryOf)

/-- The authenticator of a line. -/
def ofText (text : PyStr) : Except AppError ApiKeyAuthenticator := buildApiKey (splitOrigins text)

/-- An entry is given to a subject, with a key. -/
def Grants (text : PyStr) (subject : Text) (presented : PyStr) : Prop :=
  ∃ entry ∈ entriesOf text, Reads entry { subject, secret := presented }

/-- What can be told of a line that is refused, with the whole of the error: that there is no key,
    that a subject has two, that an entry is malformed, or the subject of an entry whose key is too
    short. -/
def Told (text : PyStr) (error : AppError) : Prop :=
  error = authenticationConfigurationError
      (lit "The api_key authenticator requires at least one key.") [] ∧ entriesOf text = [] ∨
    error = authenticationConfigurationError (lit "Each subject may be configured only once.") [] ∨
    error = authenticationConfigurationError (lit "A key entry must be 'subject:secret'.")
      [("reason", lit "malformed_entry")] ∨
    ∃ entry ∈ entriesOf text, ∃ front back, entry = front ++ colon :: back ∧ colon ∉ front ∧
      (strip back).length < MIN_KEY_LENGTH ∧
      error = authenticationConfigurationError
        (lit "An API key must be at least 16 characters.") [("subject", strip front)]

/-- A line of text and the keys that it is. -/
structure KeysOf (text : PyStr) : Prop where
  /-- Every entry is a key, in the order of the line, and nothing else is. -/
  read : ∀ authenticator, ofText text = .ok authenticator ↔
    List.Forall₂ Reads (entriesOf text) authenticator.credentials
  /-- Where all can be compared and no key is that of two entries, those that the line has are
      authenticated, each by its own key, and nobody else. -/
  admitted : ∀ authenticator, ofText text = .ok authenticator → isAscii text = true →
    (authenticator.credentials.map (·.secret)).Nodup → ∀ presented identity,
      authenticator.authenticate presented = .ok identity ↔
        ∃ subject secret, presented = some secret ∧ identity = .apiKey subject ∧
          Grants text subject secret
  refused : ∀ error, ofText text = .error error → Told text error

/-! ## One entry -/

section Entry

variable {entry : PyStr} {credential : ApiKeyCredential}

/-- `parseCredential` gives the credential that the entry `Reads` as, and an error where there is
    none. -/
theorem parseCredential_eq_ok_iff : parseCredential entry = .ok credential ↔
    Reads entry credential := by
  constructor
  · intro h
    rcases hparts : PyStr.partition colon entry with ⟨front, found, back⟩
    unfold parseCredential at h
    simp only [show (0x3a : CodePoint) = colon from rfl, hparts] at h
    split at h
    · cases h
    -- There is a separator and something on both sides of it
    · rename_i hformed
      rw [not_or, not_or] at hformed
      split at h
      · cases h
      · rename_i hlong
        cases h
        have hfound : found = true := by simpa using hformed.1
        subst hfound
        obtain ⟨hentry, hfront⟩ := append_of_partition hparts
        exact ⟨⟨front, back, hentry, hfront, rfl, rfl⟩, not_lt.mp hlong⟩
  · rintro ⟨⟨front, back, rfl, hfront, hsubject, hsecret⟩, hlong⟩
    have hparts := partition_append hfront back
    have hnamed : strip front ≠ [] := hsubject ▸ credential.subject.property
    -- A secret long enough is not empty
    have hkeyed : strip back ≠ [] := by
      rw [hsecret]
      rintro hempty
      rw [hempty] at hlong
      exact absurd hlong (by decide)
    unfold parseCredential
    simp only [show (0x3a : CodePoint) = colon from rfl, hparts]
    rw [dif_neg (by simp [hnamed, hkeyed]), if_neg (by rw [hsecret]; exact not_lt.mpr hlong)]
    congr 1
    obtain ⟨⟨subject, hne⟩, secret⟩ := credential
    cases hsubject
    cases hsecret
    rfl

/-- An entry `Reads` as at most one credential. -/
theorem reads_unique {other : ApiKeyCredential} (h : Reads entry credential)
    (h' : Reads entry other) : credential = other :=
  Except.ok.inj ((parseCredential_eq_ok_iff.mpr h).symm.trans (parseCredential_eq_ok_iff.mpr h'))

/-- What `parseCredential` raises is one of two errors, and neither has anything of the key. -/
theorem parseCredential_told {error : AppError} (h : parseCredential entry = .error error) :
    error = authenticationConfigurationError (lit "A key entry must be 'subject:secret'.")
        [("reason", lit "malformed_entry")] ∨
      ∃ front back, entry = front ++ colon :: back ∧ colon ∉ front ∧
        (strip back).length < MIN_KEY_LENGTH ∧
        error = authenticationConfigurationError
          (lit "An API key must be at least 16 characters.") [("subject", strip front)] := by
  rcases hparts : PyStr.partition colon entry with ⟨front, found, back⟩
  unfold parseCredential at h
  simp only [show (0x3a : CodePoint) = colon from rfl, hparts] at h
  split at h
  · cases h
    exact .inl rfl
  · rename_i hformed
    rw [not_or, not_or] at hformed
    split at h
    · rename_i hshort
      cases h
      have hfound : found = true := by simpa using hformed.1
      subst hfound
      obtain ⟨hentry, hfront⟩ := append_of_partition hparts
      exact .inr ⟨front, back, hentry, hfront, hshort, rfl⟩
    · cases h

/-- A credential that an entry of a line `Reads` as is `Writable`. -/
theorem writable_of_reads (hentry : IsEntry entry) (h : Reads entry credential) :
    Writable credential := by
  obtain ⟨⟨front, back, rfl, hfront, hsubject, hsecret⟩, hlong⟩ := h
  have hsub : ∀ c, c ∈ strip front → c ∈ front := fun c hc => (infix_strip front).subset hc
  have hback : ∀ c, c ∈ strip back → c ∈ back := fun c hc => (infix_strip back).subset hc
  have hwhole := hentry.whole
  constructor
  · rw [← hsubject]
    exact stripped_strip front
  · rw [← hsecret]
    exact stripped_strip back
  · rw [← hsubject]
    exact ⟨fun hc => hfront (hsub _ hc),
      fun hc => hwhole (List.mem_append_left _ (hsub _ hc))⟩
  · rw [← hsecret]
    exact fun hc => hwhole (List.mem_append_right _ (List.mem_cons_of_mem _ (hback _ hc)))
  · exact hlong

end Entry

/-! ## The line -/

section Line

variable {text : PyStr} {authenticator : ApiKeyAuthenticator}

/-- `parseCredentials` parses every entry of a line. -/
theorem parseCredentials_splitOrigins :
    parseCredentials (splitOrigins text) = (entriesOf text).mapM parseCredential := by
  rw [parseCredentials, splitOrigins, List.filter_eq_self.mpr]
  intro entry hentry
  have h := isEntry_of_mem hentry
  rw [strip_of_stripped h.stripped]
  exact decide_eq_true h.nonempty

/-- `build` gives the authenticator that has just the credentials. -/
theorem build_eq_ok_iff {credentials : List ApiKeyCredential} :
    ApiKeyAuthenticator.build credentials = .ok authenticator ↔
      authenticator.credentials = credentials := by
  constructor
  · intro h
    unfold ApiKeyAuthenticator.build at h
    split at h
    · cases h
    · split at h
      · cases h
        rfl
      · cases h
  · rintro rfl
    rw [ApiKeyAuthenticator.build, dif_neg authenticator.nonempty, dif_pos authenticator.distinct]

/-- `ofText` gives the credentials that its entries read as, one by one. -/
theorem ofText_eq_ok_iff : ofText text = .ok authenticator ↔
    List.Forall₂ Reads (entriesOf text) authenticator.credentials := by
  have hreads : List.Forall₂ Reads (entriesOf text) authenticator.credentials ↔
      parseCredentials (splitOrigins text) = .ok authenticator.credentials := by
    rw [parseCredentials_splitOrigins, List.mapM_eq_ok_iff]
    simp only [parseCredential_eq_ok_iff]
  rw [hreads, ofText, buildApiKey]
  cases parseCredentials (splitOrigins text) with
  | error e =>
    constructor
    · intro h
      cases h
    · intro h
      cases h
  | ok credentials =>
    rw [Except.ok.injEq]
    exact build_eq_ok_iff.trans eq_comm

/-- What `buildApiKey` raises for a line is `Told` of it. -/
theorem ofText_told {error : AppError} (h : ofText text = .error error) : Told text error := by
  rw [ofText, buildApiKey] at h
  cases hparsed : parseCredentials (splitOrigins text) with
  | error e =>
    rw [hparsed] at h
    cases h
    rw [parseCredentials_splitOrigins] at hparsed
    obtain ⟨entry, hentry, hraised⟩ := List.exists_of_mapM_eq_error hparsed
    obtain hmalformed | ⟨front, back, hshape⟩ := parseCredential_told hraised
    · exact .inr (.inr (.inl hmalformed))
    · exact .inr (.inr (.inr ⟨entry, hentry, front, back, hshape⟩))
  | ok credentials =>
    rw [hparsed] at h
    simp only at h
    unfold ApiKeyAuthenticator.build at h
    split at h
    · rename_i hempty
      cases h
      -- Every entry was read, so that there was none
      rw [parseCredentials_splitOrigins, List.mapM_eq_ok_iff, hempty] at hparsed
      exact .inl ⟨rfl, List.forall₂_nil_right_iff.mp hparsed⟩
    · split at h
      · cases h
      · cases h
        exact .inr (.inl rfl)

/-- A line `Grants` just the credentials of its authenticator. -/
theorem grants_iff (h : ofText text = .ok authenticator) {subject : Text} {secret : PyStr} :
    Grants text subject secret ↔ { subject, secret } ∈ authenticator.credentials := by
  have hreads := ofText_eq_ok_iff.mp h
  constructor
  · rintro ⟨entry, hentry, hgrant⟩
    obtain ⟨credential, hcredential, hread⟩ := hreads.exists_of_mem_left hentry
    rw [reads_unique hgrant hread]
    exact hcredential
  · intro hmem
    exact hreads.exists_of_mem_right hmem

/-- `ofText` gives credentials that could be written as entries. -/
theorem writable_of_ofText (h : ofText text = .ok authenticator) :
    ∀ credential ∈ authenticator.credentials, Writable credential := by
  intro credential hcredential
  obtain ⟨entry, hentry, hread⟩ := (ofText_eq_ok_iff.mp h).exists_of_mem_right hcredential
  exact writable_of_reads (isEntry_of_mem hentry) hread

end Line

/-! ## Who is authenticated -/

section Admitted

variable {text : PyStr} {authenticator : ApiKeyAuthenticator} {presented : Option PyStr}

/-- The secrets of an ASCII line are ASCII. -/
theorem isAscii_of_mem (h : ofText text = .ok authenticator) (hascii : isAscii text = true)
    {credential : ApiKeyCredential} (hmem : credential ∈ authenticator.credentials) :
    isAscii credential.secret = true := by
  obtain ⟨entry, hentry, hread⟩ := (ofText_eq_ok_iff.mp h).exists_of_mem_right hmem
  obtain ⟨front, back, rfl, -, -, hsecret⟩ := hread.split
  rw [isAscii, List.all_eq_true] at hascii ⊢
  intro c hc
  rw [← hsecret] at hc
  have hback : c ∈ back := (infix_strip back).subset hc
  exact hascii c (subset_of_mem_entriesOf hentry
    (List.mem_append_right _ (List.mem_cons_of_mem _ hback)))

/-- A writable credential has a secret. -/
theorem secret_ne_nil {credential : ApiKeyCredential} (h : Writable credential) :
    credential.secret ≠ [] := by
  intro hempty
  have hlong := h.long
  rw [hempty] at hlong
  exact absurd hlong (by decide)

/-- An authenticator that is `Exact` for a presented key admits just what the line `Grants`. -/
theorem admitted_of_exact (h : ofText text = .ok authenticator)
    (hexact : Exact authenticator presented) (identity : RequestIdentity) :
    authenticator.authenticate presented = .ok identity ↔
      ∃ subject secret, presented = some secret ∧ identity = .apiKey subject ∧
        Grants text subject secret := by
  constructor
  · intro hidentity
    obtain ⟨subject, rfl⟩ := hexact.known identity hidentity
    obtain ⟨credential, hcredential, rfl, hpresented⟩ := (hexact.own subject).mp hidentity
    exact ⟨credential.subject, credential.secret, hpresented, rfl, (grants_iff h).mpr hcredential⟩
  · rintro ⟨subject, secret, rfl, rfl, hgrants⟩
    exact (hexact.own subject).mpr ⟨_, (grants_iff h).mp hgrants, rfl, rfl⟩

/-- `authenticate` admits the identity of a configured secret, if the secrets are ASCII and
    apart. -/
theorem admitted (h : ofText text = .ok authenticator) (hascii : isAscii text = true)
    (hkeys : (authenticator.credentials.map (·.secret)).Nodup) (identity : RequestIdentity) :
    authenticator.authenticate presented = .ok identity ↔
      ∃ subject secret, presented = some secret ∧ identity = .apiKey subject ∧
        Grants text subject secret := by
  have hsecrets : ∀ credential ∈ authenticator.credentials, isAscii credential.secret = true :=
    fun credential hcredential => isAscii_of_mem h hascii hcredential
  have hwritable := writable_of_ofText h
  cases presented with
  | none =>
    refine admitted_of_exact h ((exact_of_missing authenticate_none).mpr ?_) identity
    intro credential _ hsecret
    cases hsecret
  | some presented =>
    obtain rfl | hne := eq_or_ne presented []
    · refine admitted_of_exact h ((exact_of_missing authenticate_empty).mpr ?_) identity
      intro credential hcredential hsecret
      exact secret_ne_nil (hwritable credential hcredential) (Option.some.inj hsecret).symm
    · by_cases hpresented : isAscii presented = true
      · refine admitted_of_exact h (exact_of_comparable hne ⟨hpresented, hsecrets, ?_⟩) identity
        intro a ha b hb hasecret hbsecret
        exact List.inj_on_of_nodup_map hkeys ha hb (hasecret.trans hbsecret.symm)
      · -- a text past ASCII is no key of the line, and the comparison with one raises
        obtain ⟨first, hfirst⟩ := List.exists_mem_of_ne_nil _ authenticator.nonempty
        have hraises := authenticate_raises hne ⟨first, hfirst, by
          rw [Bool.eq_false_iff.mpr hpresented, Bool.false_and]⟩
        rw [hraises]
        constructor
        · intro hok
          cases hok
        · rintro ⟨subject, secret, hsecret, -, hgrants⟩
          cases hsecret
          exact absurd (hsecrets _ ((grants_iff h).mp hgrants)) hpresented

end Admitted

/-! ## The keys that can be written -/

/-- `entryOf` writes an entry. -/
theorem isEntry_entryOf {credential : ApiKeyCredential} (h : Writable credential) :
    IsEntry (entryOf credential) where
  stripped := by
    constructor
    · intro c hc
      cases hsubject : credential.subject.val with
      | nil => exact absurd hsubject credential.subject.property
      | cons first rest =>
        rw [entryOf, hsubject] at hc
        exact h.subject.1 c (by rw [hsubject]; exact hc)
    · intro c hc
      rw [entryOf, List.getLast?_append_cons, List.getLast?_cons_of_ne_nil (secret_ne_nil h)] at hc
      exact h.secret.2 c hc
  nonempty := by simp [entryOf]
  whole := by
    intro hc
    obtain hc | hc := List.mem_append.mp hc
    · exact h.named.2 hc
    · obtain hc | hc := List.mem_cons.mp hc
      · exact absurd hc (by decide)
      · exact h.whole hc

/-- `entryOf` writes what reads as the credential. -/
theorem reads_entryOf {credential : ApiKeyCredential} (h : Writable credential) :
    Reads (entryOf credential) credential where
  split := ⟨credential.subject.val, credential.secret, rfl, h.named.1,
    strip_of_stripped h.subject, strip_of_stripped h.secret⟩
  long := h.long

/-- `ofText` reads back what `render` writes of writable credentials. -/
theorem ofText_render {authenticator : ApiKeyAuthenticator}
    (h : ∀ credential ∈ authenticator.credentials, Writable credential) :
    ofText (render authenticator.credentials) = .ok authenticator := by
  rw [ofText_eq_ok_iff, render, entriesOf_intercalate]
  · rw [List.forall₂_map_left_iff]
    exact List.forall₂_same.mpr fun credential hcredential =>
      reads_entryOf (h credential hcredential)
  · intro entry hentry
    obtain ⟨credential, hcredential, rfl⟩ := List.mem_map.mp hentry
    exact isEntry_entryOf (h credential hcredential)

/-! ## The promise -/

/-- Every text is read as `KeysOf` says, and the authenticators that some text configures are those
    whose credentials are writable, which `render` writes. -/
theorem keys_of_environment : (∀ text, KeysOf text) ∧
    ∀ authenticator : ApiKeyAuthenticator,
      ((∃ text, ofText text = .ok authenticator) ↔
        ∀ credential ∈ authenticator.credentials, Writable credential) ∧
      ((∀ credential ∈ authenticator.credentials, Writable credential) →
        ofText (render authenticator.credentials) = .ok authenticator) := by
  refine ⟨fun text => ?_, fun authenticator => ⟨⟨?_, ?_⟩, ofText_render⟩⟩
  · exact {
      read := fun authenticator => ofText_eq_ok_iff
      admitted := fun authenticator h hascii hkeys presented identity =>
        admitted h hascii hkeys identity
      refused := fun error h => ofText_told h }
  · rintro ⟨text, h⟩
    exact writable_of_ofText h
  · intro h
    exact ⟨_, ofText_render h⟩

end NexaAssist.Spec.ConfiguredKeys
