import NexaAssist.ForStd.PyNumeral
import NexaAssist.Llm.RateLimit

/-!
# The announced delay

When a client whose request meets the provider's rate limit gets the response it should: a 429
with a delay that is long enough, if with any, and with a body that is JSON.

## Key results

- `answered_iff_readable`: when the response is made, whatever the provider sends
- `infinite_delay_raises`: an endless delay raises instead
-/

namespace NexaAssist.Spec.RetryAfter

open PyJson Rounding RateLimit

/-! ## The response -/

/-- The delay the provider announces, in seconds. -/
def announced (table : DecimalTable) (header : Option PyStr) : Option Rat :=
  header.bind fun text =>
    match Numeral.ofText table text with
    | some (.decimal value) => some value
    | _ => none

/-- A response that tells the client to come back later. -/
structure Served (table : DecimalTable) (header : Option PyStr) (response : Response) : Prop where
  status : response.statusCode = 429
  retryAfter : response.headers = [] ∨
    ∃ n : Nat, response.headers = [(lit "Retry-After", .ofString (toString n))] ∧
      ∀ delay, announced table header = some delay → delay ≤ n
  body : isJson response.body = true

/-- There is such a response, and nothing raises before it. -/
def Answered (table : DecimalTable) (model : PyStr) (header : Option PyStr) : Prop :=
  ∃ response, rateLimitResponse table model header = .ok response ∧ Served table header response

/-! ## When there is one -/

/-- The float nearest to a delay is a whole number below it. -/
def RoundedDown (delay : Rat) : Prop :=
  0 < delay ∧ nearest delay < delay ∧ ∃ n : Int, nearest delay = n

/-- A delay of a finite float, which is not rounded down to a whole number. -/
def Readable : Numeral → Prop
  | .decimal delay => ¬ outOfRange delay ∧ ¬ RoundedDown delay
  | .inf _ => False
  | .nan => False

/-! ## The body -/

section Body

variable {model : PyStr} {retryAfter : Option PyFloat}

/-- The error of the provider's rate limit. -/
def limited (model : PyStr) (retryAfter : Option PyFloat) : LLMRateLimitError :=
  .init [(lit "provider", .str PROVIDER_NAME), (lit "model", .str model)] retryAfter

/-- The details of the error name the provider, the model and, if there is one, the delay. -/
theorem details_limited : (limited model retryAfter).details =
    [(lit "provider", .str PROVIDER_NAME), (lit "model", .str model)] ++
      retryAfter.toList.map fun seconds => (lit "retry_after_seconds", .float seconds) := by
  cases retryAfter with
  | none => rfl
  | some seconds =>
    have hprovider : lit "provider" ≠ lit "retry_after_seconds" := by decide
    have hmodel : lit "model" ≠ lit "retry_after_seconds" := by decide
    simp only [limited, LLMRateLimitError.init, PyDict.set, if_neg hprovider, if_neg hmodel,
      Option.toList_some, List.map_cons, List.map_nil, List.cons_append, List.nil_append]

/-- The only float in the body of the error is the delay. -/
theorem floats_limited :
    floats (limited model retryAfter).toResponse.modelDump = retryAfter.toList := by
  rw [ErrorResponse.modelDump, LLMRateLimitError.toResponse, details_limited]
  cases retryAfter with
  | none => rfl
  | some seconds => rfl

/-- The texts in the body of the error can be encoded just if the name of the model can. -/
theorem texts_limited :
    (texts (limited model retryAfter).toResponse.modelDump).all wellFormed = wellFormed model := by
  have hfixed : ([lit "code", LLMRateLimitError.code, lit "message", LLMRateLimitError.message,
      lit "details", lit "provider", PROVIDER_NAME, lit "model",
      lit "retry_after_seconds"].all wellFormed) = true := by
    decide +kernel
  simp only [List.all_cons, List.all_nil, Bool.and_eq_true] at hfixed
  rw [ErrorResponse.modelDump, LLMRateLimitError.toResponse, details_limited]
  cases retryAfter with
  | none => simp [texts, fieldTexts, hfixed]
  | some seconds => simp [texts, fieldTexts, hfixed]

/-- `renderBody` makes the body of the error just if the delay is finite and the name of the model
    can be encoded. -/
theorem renderBody_limited (model : PyStr) (retryAfter : Option PyFloat) :
    (∃ body, renderBody (limited model retryAfter).toResponse.modelDump = .ok body) ↔
      (∀ seconds, retryAfter = some seconds → RateLimit.isFinite seconds = true) ∧
        wellFormed model = true := by
  unfold renderBody
  rw [floats_limited, texts_limited]
  cases retryAfter with
  | none => cases wellFormed model <;> simp
  | some seconds =>
    cases hfinite : RateLimit.isFinite seconds <;> cases wellFormed model <;> simp [hfinite]

end Body

/-! ## The header -/

section Header

variable {delay : Rat}

/-- The ceiling of the nearest float is no less than the delay just if the delay is not rounded down
    to a whole number. -/
theorem le_ceil_iff : (delay ≤ (max 0 ⌈nearest delay⌉).toNat) ↔ ¬ RoundedDown delay := by
  have hcast : (((max 0 ⌈nearest delay⌉).toNat : Nat) : Rat) = max 0 (⌈nearest delay⌉ : Rat) := by
    have hnonneg : ((max 0 ⌈nearest delay⌉).toNat : Int) = max 0 ⌈nearest delay⌉ :=
      Int.toNat_of_nonneg (le_max_left _ _)
    have h := congrArg (Int.cast (R := Rat)) hnonneg
    push_cast at h
    exact h
  rw [hcast, le_max_iff]
  constructor
  · rintro hle ⟨hpos, hbelow, n, hn⟩
    rcases hle with hle | hle
    · exact absurd hpos (not_lt.mpr hle)
    · rw [hn, Int.ceil_intCast, ← hn] at hle
      exact absurd hbelow (not_lt.mpr hle)
  · intro hno
    by_contra hlt
    rw [not_or, not_le, not_le] at hlt
    obtain ⟨n, hn⟩ := nearest_whole hlt.2
    exact hno ⟨hlt.1, lt_of_le_of_lt (Int.le_ceil _) hlt.2, n, hn⟩

/-- An integer that is not below zero is written as a natural number. -/
theorem toString_max (m : Int) : toString (max 0 m) = toString (max 0 m).toNat := by
  obtain ⟨n, hn⟩ := Int.eq_ofNat_of_zero_le (le_max_left 0 m)
  rw [hn]
  rfl

end Header

/-! ## The whole way -/

section Answer

variable {table : DecimalTable} {model : PyStr} {header : Option PyStr}
  {headers : Option (List (PyStr × PyStr))}

/-- `rateLimited` raises the error with the delay that `retryAfterSeconds` reads. -/
theorem rateLimited_eq : rateLimited table model header =
    limited model (retryAfterSeconds table header) := rfl

/-- The error carries the delay it is given. -/
theorem retryAfterSeconds_init (retryAfter : Option PyFloat) :
    (limited model retryAfter).retryAfterSeconds = retryAfter := rfl

/-- A delay for which `headers` raises is not answered. -/
theorem not_answered {e : PyError} (h : (rateLimited table model header).headers = .error e) :
    ¬ Answered table model header := by
  rintro ⟨response, hresponse, -⟩
  rw [rateLimitResponse, handleAppError, h] at hresponse
  exact nomatch hresponse

/-- Where `headers` returns, the error is answered just if the name of the model can be encoded and
    the header says enough. -/
theorem answered_of_headers (h : (rateLimited table model header).headers = .ok headers)
    (hfinite : ∀ seconds, retryAfterSeconds table header = some seconds →
      RateLimit.isFinite seconds = true) :
    Answered table model header ↔ wellFormed model = true ∧ (headers.getD [] = [] ∨
      ∃ n : Nat, headers.getD [] = [(lit "Retry-After", .ofString (toString n))] ∧
        ∀ delay, announced table header = some delay → delay ≤ n) := by
  have hbody := (renderBody_limited model _).trans (and_iff_right hfinite)
  rw [← rateLimited_eq] at hbody
  constructor
  · rintro ⟨response, hresponse, hserved⟩
    simp only [rateLimitResponse, handleAppError, h, render] at hresponse
    split at hresponse
    · exact nomatch hresponse
    · rename_i body hrender
      have hretry := hserved.retryAfter
      rw [← Except.ok.inj hresponse] at hretry
      exact ⟨hbody.mp ⟨body, hrender⟩, hretry⟩
  · rintro ⟨hmodel, hretry⟩
    obtain ⟨body, hrender⟩ := hbody.mpr hmodel
    refine ⟨{ statusCode := 429, headers := headers.getD [], body }, ?_, rfl, hretry, ?_⟩
    · simp only [rateLimitResponse, handleAppError, h, render, hrender]
      rfl
    · exact isJson_of_renderBody hrender

/-- Where `retryAfterSeconds` reads no delay, the error is answered just if the name of the model
    can be encoded. -/
theorem answered_of_none (h : retryAfterSeconds table header = none) :
    Answered table model header ↔ wellFormed model = true := by
  have hheaders : (rateLimited table model header).headers = .ok none := by
    rw [rateLimited_eq, LLMRateLimitError.headers, retryAfterSeconds_init, h]
  rw [answered_of_headers hheaders (by rw [h]; exact nofun)]
  exact and_iff_left (.inl rfl)

end Answer

/-- A rate limit of the provider is answered, whatever model and header it comes with, just if the
    name of the model can be encoded and the delay that the header gives is readable. -/
theorem answered_iff_readable (table : DecimalTable) (model : PyStr) (header : Option PyStr) :
    Answered table model header ↔
      wellFormed model = true ∧ ∀ text, header = some text →
        ∀ numeral, Numeral.ofText table text = some numeral → Readable numeral := by
  cases header with
  -- No header, and no numeral in it, both leave the delay out
  | none =>
    rw [answered_of_none rfl]
    exact (and_iff_left (by simp)).symm
  | some text =>
    simp only [Option.some.injEq, forall_eq']
    cases hnumeral : Numeral.ofText table text with
    | none =>
      have hnone : retryAfterSeconds table (some text) = none := by
        rw [retryAfterSeconds, Option.bind_some, pyFloat, hnumeral, Option.map_none]
      rw [answered_of_none hnone]
      exact (and_iff_left (by simp)).symm
    | some numeral =>
      have hseconds : retryAfterSeconds table (some text) = some numeral.toFloat := by
        rw [retryAfterSeconds, Option.bind_some, pyFloat, hnumeral, Option.map_some]
      have hheaders : (rateLimited table model (some text)).headers =
          (LLMRateLimitError.ceil numeral.toFloat).map fun whole =>
            some [(lit "Retry-After", .ofString (toString (max 0 whole)))] := by
        rw [rateLimited_eq, LLMRateLimitError.headers, retryAfterSeconds_init, hseconds]
      simp only [Option.some.injEq, forall_eq']
      cases numeral with
      -- What has no ceiling raises while the header is made
      | inf negative => exact iff_of_false (not_answered hheaders) fun h => h.2
      | nan => exact iff_of_false (not_answered hheaders) fun h => h.2
      | decimal delay =>
        by_cases hout : outOfRange delay
        · rw [Numeral.toFloat, if_pos hout] at hheaders
          exact iff_of_false (not_answered hheaders) fun h => h.2.1 hout
        · rw [Numeral.toFloat, if_neg hout] at hheaders hseconds
          -- A finite delay is announced rounded up, and never below zero
          rw [answered_of_headers hheaders (by rw [hseconds]; rintro _ ⟨⟩; rfl)]
          refine and_congr_right fun _ => ?_
          have hannounced : announced table (some text) = some delay := by
            rw [announced, Option.bind_some, hnumeral]
          rw [Readable, and_iff_right hout, ← le_ceil_iff, hannounced]
          simp only [Option.getD_some, toString_max, Option.some.injEq, forall_eq']
          constructor
          · rintro (hnil | ⟨n, hn, hle⟩)
            · cases hnil
            · simp only [List.cons.injEq, Prod.mk.injEq, PyStr.ofString_inj, and_true,
                true_and] at hn
              exact toString_nat_injective hn ▸ hle
          · exact fun hle => .inr ⟨_, rfl, hle⟩

/-- `rateLimitResponse` raises `OverflowError` where the provider sends `inf`. -/
theorem infinite_delay_raises :
    ¬ Answered .asciiOnly (lit "openai/gpt-oss-120b") (some (lit "inf")) ∧
      rateLimitResponse .asciiOnly (lit "openai/gpt-oss-120b") (some (lit "inf")) =
        .error .overflowError := by
  have hraises : rateLimitResponse .asciiOnly (lit "openai/gpt-oss-120b") (some (lit "inf")) =
      .error .overflowError := by
    have hnumeral : Numeral.ofText .asciiOnly (lit "inf") = some (.inf false) := by decide +kernel
    have hseconds : retryAfterSeconds .asciiOnly (some (lit "inf")) = some (.inf false) := by
      rw [retryAfterSeconds, Option.bind_some, pyFloat, hnumeral]
      rfl
    simp only [rateLimitResponse, handleAppError, rateLimited_eq, LLMRateLimitError.headers,
      retryAfterSeconds_init, hseconds]
    rfl
  refine ⟨?_, hraises⟩
  rintro ⟨response, hresponse, -⟩
  rw [hraises] at hresponse
  exact nomatch hresponse

end NexaAssist.Spec.RetryAfter
