import Mathlib

/-!
# SnowflakeConnector.AuthOkta

The part of `lib/authentication/auth_okta.js` that a login comes back to: a new SAML
response is fetched before the login is tried again, as often and for as long as the
login itself may go on.

* `renews_of_reauthenticate`, `reauthenticate_of_renews` -- which answers of the identity
  provider renew it;
* `not_renews_of_unlimited` -- none does when the login is not limited in time.
-/

namespace SnowflakeConnector

/-- What the authenticator reads of its connection config, and the host of the account. -/
structure AuthOkta where
  maxRetryTimeout : Rat
  maxRetryCount : Nat
  disableSamlURLCheck : Bool
  host : String

namespace AuthOkta

/-! ## the SAML response -/

/-- `indexOf`; `none` is `-1`. -/
def indexOf (searchString s : List Char) (position : Nat) : Option Nat :=
  (List.range (s.length + 1)).find? fun i => position ≤ i && searchString.isPrefixOf (s.drop i)

/-- `substring`: the smaller index is the start. -/
def substring (s : List Char) (indexStart indexEnd : Nat) : List Char :=
  (s.drop (min indexStart indexEnd)).take (max indexStart indexEnd - min indexStart indexEnd)

/-- `replace(/.../g, ...)` of a pattern without special characters; `skip` characters belong to
the last match. -/
def replaceAll (pattern : List Char) (c : Char) : Nat → List Char → List Char
  | _, [] => []
  | skip + 1, _ :: s => replaceAll pattern c skip s
  | 0, x :: s =>
      if pattern.isPrefixOf (x :: s) then c :: replaceAll pattern c (pattern.length - 1) s
      else x :: replaceAll pattern c 0 s

/-- Unescape the HTML hex characters in the string. -/
def unescapeHtml (html : List Char) : List Char :=
  replaceAll "&#x2f;".toList '/' 0 (replaceAll "&#x3a;".toList ':' 0 html)

/-- Extract the postback URL from the HTML response. -/
def getPostBackUrlFromHtml (html : List Char) : List Char :=
  let index := (indexOf "<form".toList html 0).getD 0
  let startIndex := indexOf "action=\"".toList html index
  -- without a match the index is `-1`
  let urlIndex := startIndex.elim 7 (· + 8)
  let endIndex := (indexOf ['"'] html urlIndex).getD 0
  unescapeHtml (substring html urlIndex endIndex)

def fullUrl (auth : AuthOkta) : List Char := s!"https://{auth.host}:443".toList

/-- The post back URL has to lead to the account; a response that is not a text (`none`) has
none. -/
def validateSAML (auth : AuthOkta) (responseHtml : Option (List Char)) : Except String Unit :=
  match responseHtml with
  | none => .error "html.search is not a function"
  | some html =>
      let postBackUrl := getPostBackUrlFromHtml html
      if auth.disableSamlURLCheck = false ∧ postBackUrl.take 20 ≠ auth.fullUrl.take 20 then
        .error ("The specified authenticator and destination URL in the SAML assertion do not " ++
          s!"match: expected: {String.ofList auth.fullUrl} postback: {String.ofList postBackUrl}")
      else .ok ()

/-! ## reauthentication -/

/-- One turn of the loop: how many milliseconds the access token and the SAML response took, and
the response (`some none` when it is not a text) unless one of the two requests threw. -/
structure Attempt where
  duration : Nat
  responseHtml : Option (Option (List Char))

/-- `elapsed` are the milliseconds since `startTime`. -/
def shouldRetryOktaAuth (auth : AuthOkta) (remainingTimeout : Rat) (numRetries elapsed : Nat) :
    Bool :=
  (decide (auth.maxRetryTimeout = 0) || decide ((elapsed : Rat) < remainingTimeout)) &&
    decide (numRetries ≤ auth.maxRetryCount)

/-- The loop, with at most `turns` turns; `attempt numRetries` is what the turn with this count
meets.  A request that throws is counted. -/
def fetchSAML (auth : AuthOkta) (attempt : Nat → Attempt) (remainingTimeout : Rat) :
    Nat → Nat → Nat → Option (Option (List Char)) × Nat × Nat
  | 0, numRetries, elapsed => (none, numRetries, elapsed)
  | turns + 1, numRetries, elapsed =>
      if shouldRetryOktaAuth auth remainingTimeout numRetries elapsed then
        let now := elapsed + (attempt numRetries).duration
        match (attempt numRetries).responseHtml with
        | some responseHtml => (some responseHtml, numRetries, now)
        | none => fetchSAML auth attempt remainingTimeout turns (numRetries + 1) now
      else (none, numRetries, elapsed)

/-- The milliseconds that the login has left. -/
def remainingTimeout (auth : AuthOkta) (totalElapsedTime : Rat) : Rat :=
  (auth.maxRetryTimeout - totalElapsedTime) * 1000

/-- `reauthenticate` on `retryOption`: the number of retries and the elapsed time that it leaves
there.  The count leaves the loop at `maxRetryCount + 1` at the latest. -/
def reauthenticate (auth : AuthOkta) (attempt : Nat → Attempt) (numRetries : Nat)
    (totalElapsedTime : Rat) : Except String (Nat × Rat) :=
  let remainingTimeout := auth.remainingTimeout totalElapsedTime
  let (responseHtml, retries, elapsed) :=
    fetchSAML auth attempt remainingTimeout (auth.maxRetryCount + 1 - numRetries) numRetries 0
  if remainingTimeout ≠ 0 ∧ remainingTimeout < elapsed then
    .error "Reached out to the Login Timeout"
  else if auth.maxRetryCount < retries then .error "Reached out to the max retry count"
  else
    (auth.validateSAML responseHtml.join).map fun _ => (retries, totalElapsedTime + elapsed / 1000)

/-- The milliseconds of the turns from `m` on, up to `n`. -/
def elapsed (attempt : Nat → Attempt) (m n : Nat) : Nat :=
  ∑ j ∈ Finset.Ico m n, (attempt j).duration

/-- The identity provider renews the login: there is a turn, within the count, that gets a valid
response after failed ones, that begins within the time left and ends within it. -/
def Renews (auth : AuthOkta) (attempt : Nat → Attempt) (numRetries : Nat)
    (totalElapsedTime : Rat) : Prop :=
  ∃ k, numRetries ≤ k ∧ k ≤ auth.maxRetryCount ∧
    (∀ j, numRetries ≤ j → j < k → (attempt j).responseHtml = none) ∧
    (∃ html, (attempt k).responseHtml = some (some html) ∧
      auth.validateSAML (some html) = .ok ()) ∧
    (elapsed attempt numRetries k : Rat) < auth.remainingTimeout totalElapsedTime ∧
    (elapsed attempt numRetries (k + 1) : Rat) ≤ auth.remainingTimeout totalElapsedTime

variable {auth : AuthOkta} {attempt : Nat → Attempt}

theorem elapsed_succ {m n : Nat} (h : m ≤ n) :
    elapsed attempt m (n + 1) = elapsed attempt m n + (attempt n).duration :=
  Finset.sum_Ico_succ_top h _

theorem elapsed_head {m n : Nat} (h : m < n) :
    elapsed attempt m n = (attempt m).duration + elapsed attempt (m + 1) n :=
  Finset.sum_eq_sum_Ico_succ_bot h _

/-- The loop gets a response in the first turn that does not fail, when that turn still begins in
time. -/
theorem fetchSAML_eq_some {remainingTimeout : Rat} {turns numRetries start k stop : Nat}
    {html : Option (List Char)} :
    fetchSAML auth attempt remainingTimeout turns numRetries start = (some html, k, stop) ↔
      numRetries ≤ k ∧ k < numRetries + turns ∧ k ≤ auth.maxRetryCount ∧
        (∀ j, numRetries ≤ j → j < k → (attempt j).responseHtml = none) ∧
        (attempt k).responseHtml = some html ∧
        (auth.maxRetryTimeout = 0 ∨
          ((start + elapsed attempt numRetries k : Nat) : Rat) < remainingTimeout) ∧
        stop = start + elapsed attempt numRetries (k + 1) := by
  induction turns generalizing numRetries start with
  | zero =>
      simp only [fetchSAML, Prod.mk.injEq, reduceCtorEq, false_and, false_iff]
      omega
  | succ turns ih =>
      have hself : elapsed attempt numRetries numRetries = 0 := by simp [elapsed]
      rw [fetchSAML]
      by_cases hretry : shouldRetryOktaAuth auth remainingTimeout numRetries start = true
      · rw [if_pos hretry]
        simp only [shouldRetryOktaAuth, Bool.and_eq_true, Bool.or_eq_true, decide_eq_true_eq]
          at hretry
        cases hhtml : (attempt numRetries).responseHtml with
        | some responseHtml =>
            -- this turn is the last one
            simp only [Prod.mk.injEq, Option.some.injEq]
            constructor
            · rintro ⟨rfl, rfl, rfl⟩
              refine ⟨le_rfl, by omega, hretry.2, by omega, hhtml, ?_, ?_⟩
              · simpa [hself] using hretry.1
              · simp [elapsed_succ, hself]
            · rintro ⟨hle, -, -, hfailed, hk, -, rfl⟩
              obtain rfl : numRetries = k := by
                by_contra hne
                simp [hfailed numRetries le_rfl (by omega)] at hhtml
              obtain rfl : responseHtml = html := by simpa [hhtml] using hk
              simp [elapsed_succ, hself]
        | none =>
            simp only [ih]
            constructor
            · rintro ⟨hle, hturns, hcount, hfailed, hk, htime, rfl⟩
              refine ⟨by omega, by omega, hcount, fun j hj hlt => ?_, hk, ?_, ?_⟩
              · rcases Nat.eq_or_lt_of_le hj with rfl | hlt'
                · exact hhtml
                · exact hfailed j hlt' hlt
              · rwa [elapsed_head (by omega : numRetries < k), ← Nat.add_assoc]
              · rw [elapsed_head (by omega : numRetries < k + 1), ← Nat.add_assoc]
            · rintro ⟨hle, hturns, hcount, hfailed, hk, htime, rfl⟩
              have hlt : numRetries < k := by
                refine Nat.lt_of_le_of_ne hle fun heq => ?_
                simp [← heq, hhtml] at hk
              refine ⟨hlt, by omega, hcount, fun j hj => hfailed j (by omega), hk, ?_, ?_⟩
              · rwa [elapsed_head hlt, ← Nat.add_assoc] at htime
              · rw [elapsed_head (by omega : numRetries < k + 1), ← Nat.add_assoc]
      · rw [if_neg hretry]
        simp only [Prod.mk.injEq, reduceCtorEq, false_and, false_iff]
        rintro ⟨hle, -, hcount, -, -, htime, -⟩
        refine hretry ?_
        simp only [shouldRetryOktaAuth, Bool.and_eq_true, Bool.or_eq_true, decide_eq_true_eq]
        refine ⟨htime.imp_right fun htime => ?_, by omega⟩
        refine lt_of_le_of_lt ?_ htime
        exact_mod_cast Nat.le_add_right _ _

theorem remainingTimeout_neg {totalElapsedTime : Rat} (hpos : 0 < totalElapsedTime)
    (h : auth.maxRetryTimeout = 0) : auth.remainingTimeout totalElapsedTime < 0 := by
  rw [remainingTimeout, h]
  linarith

/-- What a reauthentication that returns has met, and what it leaves of a login that has slept:
its count stays within the retries, and its time only grows. -/
theorem renews_of_reauthenticate {numRetries : Nat} {totalElapsedTime : Rat}
    {retryOption : Nat × Rat} (hpos : 0 < totalElapsedTime)
    (h : auth.reauthenticate attempt numRetries totalElapsedTime = .ok retryOption) :
    auth.Renews attempt numRetries totalElapsedTime ∧ numRetries ≤ retryOption.1 ∧
      retryOption.1 ≤ auth.maxRetryCount ∧ totalElapsedTime ≤ retryOption.2 := by
  unfold reauthenticate at h
  rcases hloop : fetchSAML auth attempt (auth.remainingTimeout totalElapsedTime)
    (auth.maxRetryCount + 1 - numRetries) numRetries 0 with ⟨responseHtml, retries, stop⟩
  simp only [hloop] at h
  split_ifs at h with htimeout hcount
  cases hvalid : auth.validateSAML responseHtml.join with
  | error message =>
      rw [hvalid] at h
      contradiction
  | ok valid =>
      rw [hvalid] at h
      obtain rfl := Except.ok.inj h
      obtain ⟨html, rfl⟩ : ∃ html, responseHtml = some (some html) := by
        rcases responseHtml with _ | _ | html
        · contradiction
        · contradiction
        · exact ⟨html, rfl⟩
      obtain ⟨hle, -, hmax, hfailed, hk, htime, rfl⟩ := fetchSAML_eq_some.mp hloop
      simp only [Nat.zero_add] at htime htimeout ⊢
      have hspent : (0 : Rat) ≤ elapsed attempt numRetries (retries + 1) := Nat.cast_nonneg _
      -- without a timeout of its own a login is out of time at once
      have hlimited : auth.maxRetryTimeout ≠ 0 := by
        intro hzero
        have hneg := remainingTimeout_neg hpos hzero
        exact htimeout ⟨hneg.ne, by linarith⟩
      have hstart := htime.resolve_left hlimited
      have hpositive : auth.remainingTimeout totalElapsedTime ≠ 0 := by
        have : (0 : Rat) ≤ elapsed attempt numRetries retries := Nat.cast_nonneg _
        exact (lt_of_le_of_lt this hstart).ne'
      have hend : (elapsed attempt numRetries (retries + 1) : Rat) ≤
          auth.remainingTimeout totalElapsedTime :=
        not_lt.mp fun hlate => htimeout ⟨hpositive, hlate⟩
      refine ⟨⟨retries, hle, hmax, hfailed, ⟨html, hk, hvalid⟩, hstart, hend⟩, hle, hmax, ?_⟩
      linarith

theorem reauthenticate_of_renews {numRetries : Nat} {totalElapsedTime : Rat}
    (h : auth.Renews attempt numRetries totalElapsedTime) :
    ∃ retryOption, auth.reauthenticate attempt numRetries totalElapsedTime = .ok retryOption := by
  obtain ⟨k, hle, hmax, hfailed, ⟨html, hk, hvalid⟩, hstart, hend⟩ := h
  have hloop : fetchSAML auth attempt (auth.remainingTimeout totalElapsedTime)
      (auth.maxRetryCount + 1 - numRetries) numRetries 0 =
        (some (some html), k, elapsed attempt numRetries (k + 1)) :=
    fetchSAML_eq_some.mpr ⟨hle, by omega, hmax, hfailed, hk, by simp [hstart], by simp⟩
  refine ⟨(k, totalElapsedTime + elapsed attempt numRetries (k + 1) / 1000), ?_⟩
  simp [reauthenticate, hloop, not_lt.mpr hend, not_lt.mpr hmax, hvalid, Except.map]

/-- A login without a limit that has slept is out of time, whatever the identity provider does. -/
theorem not_renews_of_unlimited {numRetries : Nat} {totalElapsedTime : Rat}
    (hpos : 0 < totalElapsedTime) (h : auth.maxRetryTimeout = 0) :
    ¬ auth.Renews attempt numRetries totalElapsedTime := by
  rintro ⟨k, -, -, -, -, hstart, -⟩
  have hneg := remainingTimeout_neg hpos h
  have : (0 : Rat) ≤ elapsed attempt numRetries k := Nat.cast_nonneg _
  linarith

end AuthOkta

end SnowflakeConnector
