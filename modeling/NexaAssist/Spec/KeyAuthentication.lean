import Mathlib.Data.List.Nodup
import NexaAssist.Auth.Providers

/-!
# Who a key authenticates

The loop over the configured keys keeps the last one that matches, and compares texts that are
ASCII only. A subject is authenticated by its own key, and nothing else happens than that or a
refusal, where every text can be compared and no key is that of two subjects.
-/

namespace NexaAssist.Spec.KeyAuthentication

open NexaAssist PyJson ApiKeyAuthenticator

/-! ## What is promised -/

/-- A presented text is the key of a subject and authenticates it, or it is refused. -/
structure Exact (authenticator : ApiKeyAuthenticator) (presented : Option PyStr) : Prop where
  own : ∀ subject, authenticator.authenticate presented = .ok (.apiKey subject) ↔
    ∃ credential ∈ authenticator.credentials,
      credential.subject = subject ∧ presented = some credential.secret
  known : ∀ identity, authenticator.authenticate presented = .ok identity →
    ∃ subject, identity = .apiKey subject
  refused : ∀ failure, authenticator.authenticate presented = .error failure →
    failure = .refused authenticationRequiredError ∨ failure = .refused invalidCredentialsError

def isAscii (text : PyStr) : Bool := text.all (·.val < 0x80)

/-- A text that can be compared with every key, and is that of one subject at most. -/
structure Comparable (credentials : List ApiKeyCredential) (presented : PyStr) : Prop where
  ascii : isAscii presented = true
  secrets : ∀ credential ∈ credentials, isAscii credential.secret = true
  unique : ∀ a ∈ credentials, ∀ b ∈ credentials,
    a.secret = presented → b.secret = presented → a = b

/-- What is presented is nothing, and no key is empty, or can be compared. -/
def Sound (authenticator : ApiKeyAuthenticator) : Option PyStr → Prop
  | none => True
  | some [] => ∀ credential ∈ authenticator.credentials, credential.secret ≠ []
  | some presented => Comparable authenticator.credentials presented

/-! ## The loop -/

section Loop

variable {presented : PyStr} {credentials : List ApiKeyCredential}

/-- The last key that matches is found, where every comparison is one of ASCII texts. -/
theorem matchFrom_ascii (hpresented : isAscii presented = true)
    (hsecrets : ∀ credential ∈ credentials, isAscii credential.secret = true)
    (found : Option ApiKeyCredential) :
    matchFrom presented found credentials =
      .ok ((credentials.filter fun credential => presented = credential.secret).getLast?.or
        found) := by
  induction credentials generalizing found with
  | nil => rfl
  | cons credential rest ih =>
    have hrest := ih fun other hother => hsecrets other (List.mem_cons_of_mem _ hother)
    have hdigest : compareDigest presented credential.secret =
        .ok (decide (presented = credential.secret)) := by
      have hsecret := hsecrets credential List.mem_cons_self
      unfold isAscii at hpresented hsecret
      simp only [compareDigest, hpresented, hsecret, Bool.and_self, if_true]
    rw [matchFrom, hdigest]
    by_cases hmatch : presented = credential.secret
    · simp only [hmatch, decide_true, List.filter_cons_of_pos]
      rw [← hmatch, hrest, List.getLast?_cons]
      cases (rest.filter fun other => presented = other.secret).getLast? <;> rfl
    · simp only [hmatch, decide_false]
      rw [List.filter_cons_of_neg (by simpa using hmatch), hrest]

/-- A text that is not ASCII cannot be compared, and one among the keys with no text. -/
theorem matchFrom_raises (found : Option ApiKeyCredential)
    (h : ∃ credential ∈ credentials, (isAscii presented && isAscii credential.secret) = false) :
    matchFrom presented found credentials = .error .typeError := by
  induction credentials generalizing found with
  | nil => simp at h
  | cons credential rest ih =>
    rw [matchFrom]
    by_cases hhere : (isAscii presented && isAscii credential.secret) = true
    · have hdigest : compareDigest presented credential.secret =
          .ok (decide (presented = credential.secret)) := if_pos hhere
      have hlater : ∃ other ∈ rest, (isAscii presented && isAscii other.secret) = false := by
        obtain ⟨other, hother, hfalse⟩ := h
        cases hother with
        | head => exact absurd hhere (by simp [hfalse])
        | tail _ hother => exact ⟨other, hother, hfalse⟩
      rw [hdigest]
      cases decide (presented = credential.secret) with
      | true => exact ih _ hlater
      | false => exact ih _ hlater
    · have hdigest : compareDigest presented credential.secret = .error .typeError :=
        if_neg hhere
      rw [hdigest]

end Loop

/-! ## The authenticator -/

section Authenticate

variable {authenticator : ApiKeyAuthenticator} {presented : PyStr}

/-- `authenticate` refuses an empty key. -/
theorem authenticate_empty :
    authenticator.authenticate (some []) = .error (.refused authenticationRequiredError) := rfl

/-- `authenticate` refuses a request without a key. -/
theorem authenticate_none :
    authenticator.authenticate none = .error (.refused authenticationRequiredError) := rfl

/-- A subject is configured only once. -/
theorem credential_unique {a b : ApiKeyCredential} (ha : a ∈ authenticator.credentials)
    (hb : b ∈ authenticator.credentials) (h : a.subject = b.subject) : a = b :=
  List.inj_on_of_nodup_map authenticator.distinct ha hb h

/-- `authenticate` raises `TypeError` where the key or a secret is not ASCII. -/
theorem authenticate_raises (hne : presented ≠ [])
    (h : ∃ credential ∈ authenticator.credentials,
      (isAscii presented && isAscii credential.secret) = false) :
    authenticator.authenticate (some presented) = .error .typeError := by
  have hnonempty : presented.isEmpty = false := by simpa using hne
  simp only [authenticate, hnonempty, Bool.false_eq_true, if_false, matchFrom_raises none h]

/-- `authenticate` goes by the last credential with the key, where all are ASCII. -/
theorem authenticate_ascii (hne : presented ≠ []) (hpresented : isAscii presented = true)
    (hsecrets : ∀ credential ∈ authenticator.credentials, isAscii credential.secret = true) :
    authenticator.authenticate (some presented) =
      match (authenticator.credentials.filter fun credential =>
        presented = credential.secret).getLast? with
      | none => .error (.refused invalidCredentialsError)
      | some credential => .ok (.apiKey credential.subject) := by
  have hnonempty : presented.isEmpty = false := by simpa using hne
  simp only [authenticate, hnonempty, Bool.false_eq_true, if_false,
    matchFrom_ascii hpresented hsecrets none, Option.or_none]
  cases (authenticator.credentials.filter fun credential =>
    presented = credential.secret).getLast? <;> rfl

/-- An authenticator that refuses a missing key is `Exact` for it just if no secret is that key. -/
theorem exact_of_missing {missing : Option PyStr}
    (hrefused : authenticator.authenticate missing =
      .error (.refused authenticationRequiredError)) :
    Exact authenticator missing ↔
      ∀ credential ∈ authenticator.credentials, missing ≠ some credential.secret := by
  constructor
  · intro h credential hcredential hmissing
    have hown := (h.own credential.subject).mpr ⟨credential, hcredential, rfl, hmissing⟩
    rw [hrefused] at hown
    exact nomatch hown
  · intro h
    constructor
    · intro subject
      rw [hrefused]
      constructor
      · exact nofun
      · rintro ⟨credential, hcredential, -, hmissing⟩
        exact absurd hmissing (h credential hcredential)
    · rw [hrefused]
      exact nofun
    · rw [hrefused]
      rintro _ ⟨⟩
      exact .inl rfl

/-- `authenticate` is `Exact` for a key that is `Comparable`. -/
theorem exact_of_comparable (hne : presented ≠ [])
    (h : Comparable authenticator.credentials presented) :
    Exact authenticator (some presented) := by
  have heq := authenticate_ascii hne h.ascii h.secrets
  -- No key matches, or the last one does and is the only one.
  match hlast : (authenticator.credentials.filter fun credential =>
      presented = credential.secret).getLast? with
  | none =>
    rw [hlast] at heq
    have hnone : ∀ credential ∈ authenticator.credentials, presented ≠ credential.secret := by
      simpa using List.getLast?_eq_none_iff.mp hlast
    constructor
    · intro subject
      rw [heq]
      constructor
      · exact nofun
      · rintro ⟨credential, hcredential, -, hsecret⟩
        exact absurd (Option.some.inj hsecret) (hnone credential hcredential)
    · rw [heq]
      exact nofun
    · rw [heq]
      rintro _ ⟨⟩
      exact .inr rfl
  -- Its subject is the one returned, since no two credentials share a secret
  | some credential =>
    rw [hlast] at heq
    obtain ⟨hcredential, hsecret⟩ : credential ∈ authenticator.credentials ∧
        presented = credential.secret := by
      simpa using List.mem_of_getLast? hlast
    constructor
    · intro subject
      rw [heq]
      constructor
      · rintro ⟨⟩
        exact ⟨credential, hcredential, rfl, congrArg some hsecret⟩
      · rintro ⟨other, hother, rfl, hpresented⟩
        rw [h.unique credential hcredential other hother hsecret.symm
          (Option.some.inj hpresented).symm]
    · rw [heq]
      rintro _ ⟨⟩
      exact ⟨credential.subject, rfl⟩
    · rw [heq]
      exact nofun

/-- A key for which `authenticate` is `Exact` is `Comparable`. -/
theorem comparable_of_exact (hne : presented ≠ []) (h : Exact authenticator (some presented)) :
    Comparable authenticator.credentials presented := by
  have hascii : ∀ credential ∈ authenticator.credentials,
      (isAscii presented && isAscii credential.secret) = true := by
    intro credential hcredential
    by_contra hfalse
    have hraises : authenticator.authenticate (some presented) = .error .typeError :=
      authenticate_raises hne ⟨credential, hcredential, Bool.eq_false_iff.mpr hfalse⟩
    rcases h.refused _ hraises with hfailure | hfailure <;> exact nomatch hfailure
  obtain ⟨first, hfirst⟩ := List.exists_mem_of_ne_nil _ authenticator.nonempty
  constructor
  · exact (Bool.and_eq_true_iff.mp (hascii first hfirst)).1
  · exact fun credential hcredential =>
      (Bool.and_eq_true_iff.mp (hascii credential hcredential)).2
  · intro a ha b hb hasecret hbsecret
    have hasubject := (h.own a.subject).mpr ⟨a, ha, rfl, congrArg some hasecret.symm⟩
    have hbsubject := (h.own b.subject).mpr ⟨b, hb, rfl, congrArg some hbsecret.symm⟩
    have hidentity := Except.ok.inj (hasubject.symm.trans hbsubject)
    exact credential_unique ha hb (congrArg RequestIdentity.subject hidentity)

end Authenticate

/-- An authenticator is `Exact` for a presented key just if `Sound` holds of the two. -/
theorem exact_iff_sound (authenticator : ApiKeyAuthenticator) (presented : Option PyStr) :
    Exact authenticator presented ↔ Sound authenticator presented := by
  match presented with
  | none =>
    rw [exact_of_missing authenticate_none]
    exact iff_of_true nofun trivial
  | some [] =>
    rw [exact_of_missing authenticate_empty]
    simp only [Sound, ne_eq, Option.some.injEq, eq_comm]
  | some (c :: text) =>
    have hne : c :: text ≠ [] := List.cons_ne_nil c text
    exact ⟨comparable_of_exact hne, exact_of_comparable hne⟩

/-- One key. -/
def oneKey : ApiKeyAuthenticator where
  credentials := [{ subject := ⟨lit "alice", by decide⟩, secret := lit "0123456789abcdef" }]
  nonempty := by simp
  distinct := by simp

/-- A header with a letter past ASCII is not refused: the comparison raises. -/
theorem accented_key_raises : ¬Exact oneKey (some (lit "clé")) := by
  intro h
  have hcomparable := comparable_of_exact (List.cons_ne_nil _ _) h
  exact absurd hcomparable.ascii (by decide)

end NexaAssist.Spec.KeyAuthentication
