import Mathlib
import SnowflakeConnector.AuthOkta

/-!
# SnowflakeConnector.AuthOkta.PostBack

Where a SAML response goes back to: the url that `validateSAML` of
`lib/authentication/auth_okta.js` cuts out of an answer, and the Snowflake server of the account.

* `origin?`, `formAction?` -- the scheme, host and port of a url, and the url of the first form.
* `getPostBackUrlFromHtml_of_action`, `getPostBackUrlFromHtml_of_noAction`,
  `getPostBackUrlFromHtml_of_unclosed` -- what is cut out, where an answer has such a url and where
  it has none.
* `binds_iff` -- when only responses for the server are accepted.
-/

namespace SnowflakeConnector

namespace AuthOkta

/-! ## the server -/

/-- `constructHostname` of `lib/util.ts`; a region of `none` is missing. -/
def constructHostname (region : Option String) (account : String) : String :=
  match region with
  | none => account ++ ".snowflakecomputing.com"
  | some "us-west-2" => account ++ ".snowflakecomputing.com"
  | some region =>
      let account := match indexOf ['.'] account.toList 0 with
        | none | some 0 => account
        | some index => String.ofList (substring account.toList 0 index)
      if region.startsWith "cn-" || region.startsWith "CN-" then
        account ++ "." ++ region ++ ".snowflakecomputing.cn"
      else account ++ "." ++ region ++ ".snowflakecomputing.com"

/-- The scheme, the host and the port of a url. -/
structure Origin where
  scheme : List Char
  host : List Char
  port : Nat
  deriving DecidableEq, Repr

def lower (s : List Char) : List Char := s.map Char.toLower

/-- What ends the authority of a url. -/
def isTerminator (c : Char) : Bool := c = '/' || c = '\\' || c = '?' || c = '#'

/-- A port in digits; without one it is that of the scheme. -/
def port? (scheme text : List Char) : Option Nat :=
  if text = [] then
    if scheme = "https".toList then some 443 else if scheme = "http".toList then some 80 else none
  else if text.all Char.isDigit then some (text.foldl (fun n c => 10 * n + (c.toNat - 48)) 0)
  else none

/-- The origin of an absolute url: what stands between `://` and the path, after the user's name
and password. -/
def origin? (url : List Char) : Option Origin :=
  let scheme := url.takeWhile (· ≠ ':')
  if (url.drop scheme.length).take 3 ≠ "://".toList then none
  else
    let authority := (url.drop (scheme.length + 3)).takeWhile (!isTerminator ·)
    let hostPort := (authority.reverse.takeWhile (· ≠ '@')).reverse
    let host := hostPort.takeWhile (· ≠ ':')
    (port? (lower scheme) (hostPort.drop (host.length + 1))).map fun port =>
      ⟨lower scheme, lower host, port⟩

/-- The scheme, host and port of the Snowflake server. -/
def SameServer (auth : AuthOkta) (url : List Char) : Prop :=
  ∃ origin, origin? url = some origin ∧ origin? auth.fullUrl = some origin

instance (auth : AuthOkta) (url : List Char) : Decidable (SameServer auth url) :=
  decidable_of_iff ((origin? url).isSome = true ∧ origin? url = origin? auth.fullUrl) <| by
    constructor
    · rintro ⟨hsome, heq⟩
      obtain ⟨origin, horigin⟩ := Option.isSome_iff_exists.mp hsome
      exact ⟨origin, horigin, heq ▸ horigin⟩
    · rintro ⟨origin, hurl, hfull⟩
      exact ⟨by rw [hurl]; rfl, hurl.trans hfull.symm⟩

/-! ## the answer -/

def openForm : List Char := "<form".toList
def openAction : List Char := "action=\"".toList

/-- The url in the `action` of the first form, if the answer has both. -/
def formAction? (html : List Char) : Option (List Char) :=
  (indexOf openForm html 0).bind fun form =>
    (indexOf openAction html form).bind fun start =>
      (indexOf ['"'] html (start + 8)).map fun stop => substring html (start + 8) stop

/-- The response that is kept for the login, after an answer of the identity provider. -/
def samlResponseAfter (auth : AuthOkta) (samlResponse responseHtml : Option (List Char)) :
    Option (List Char) :=
  match auth.validateSAML responseHtml with
  | .ok () => responseHtml
  | .error _ => samlResponse

/-- The answer posts back to the Snowflake server. -/
def LeadsHome (auth : AuthOkta) (html : List Char) : Prop :=
  ∃ action, formAction? html = some action ∧ SameServer auth (unescapeHtml action)

instance (auth : AuthOkta) (html : List Char) : Decidable (LeadsHome auth html) :=
  decidable_of_iff ((formAction? html).any fun action => SameServer auth (unescapeHtml action)) <|
    by simp only [Option.any_eq_true, decide_eq_true_eq, LeadsHome]

/-- Unless the check is disabled, an answer is accepted only if it posts back to the server; any
other one is rejected, and the response that is kept stays the same. -/
def Binds (auth : AuthOkta) (samlResponse : Option (List Char)) (html : List Char) : Prop :=
  auth.disableSamlURLCheck = false →
    (auth.validateSAML (some html) = .ok () → LeadsHome auth html) ∧
      (¬ LeadsHome auth html → (∃ message, auth.validateSAML (some html) = .error message) ∧
        samlResponseAfter auth samlResponse (some html) = samlResponse)

/-- The url has the first characters of that of the server. -/
def Begins (auth : AuthOkta) (url : List Char) : Prop := url.take 20 = auth.fullUrl.take 20

instance (auth : AuthOkta) (url : List Char) : Decidable (Begins auth url) :=
  inferInstanceAs (Decidable (_ = _))

/-- Where the first form has an action, and where the code cuts a text out of an answer without
one: nothing else than the url of the server begins like it. -/
structure Tells (auth : AuthOkta) (html : List Char) : Prop where
  action : ∀ action, formAction? html = some action → Begins auth (unescapeHtml action) →
    SameServer auth (unescapeHtml action)
  /-- Without a form, the first `action` of the text is cut out. -/
  noForm : indexOf openForm html 0 = none → ∀ start stop, indexOf openAction html 0 = some start →
    indexOf ['"'] html (start + 8) = some stop →
      ¬ Begins auth (unescapeHtml (substring html (start + 8) stop))
  /-- Without an action, the text from its eighth character on up to a quote. -/
  noAction : indexOf openAction html ((indexOf openForm html 0).getD 0) = none →
    ∀ stop, indexOf ['"'] html 7 = some stop →
      ¬ Begins auth (unescapeHtml (substring html 7 stop))
  /-- With an action that is not closed, the text from its start on. -/
  unclosed : ∀ start, indexOf openAction html ((indexOf openForm html 0).getD 0) = some start →
    indexOf ['"'] html (start + 8) = none → ¬ Begins auth (unescapeHtml (html.take (start + 8)))

variable {auth : AuthOkta} {html : List Char}

/-! ## what is cut out -/

theorem getPostBackUrlFromHtml_of_action {start stop : Nat}
    (hstart : indexOf openAction html ((indexOf openForm html 0).getD 0) = some start)
    (hstop : indexOf ['"'] html (start + 8) = some stop) :
    getPostBackUrlFromHtml html = unescapeHtml (substring html (start + 8) stop) := by
  unfold openAction openForm at hstart
  simp only [getPostBackUrlFromHtml, hstart, Option.elim_some, hstop, Option.getD_some]

theorem getPostBackUrlFromHtml_of_unclosed {start : Nat}
    (hstart : indexOf openAction html ((indexOf openForm html 0).getD 0) = some start)
    (hstop : indexOf ['"'] html (start + 8) = none) :
    getPostBackUrlFromHtml html = unescapeHtml (html.take (start + 8)) := by
  unfold openAction openForm at hstart
  simp only [getPostBackUrlFromHtml, hstart, Option.elim_some, hstop, Option.getD_none, substring,
    Nat.min_zero, List.drop_zero, Nat.max_zero, Nat.sub_zero]

theorem getPostBackUrlFromHtml_of_noAction
    (hstart : indexOf openAction html ((indexOf openForm html 0).getD 0) = none) :
    getPostBackUrlFromHtml html =
      unescapeHtml (substring html 7 ((indexOf ['"'] html 7).getD 0)) := by
  unfold openAction openForm at hstart
  simp only [getPostBackUrlFromHtml, hstart, Option.elim_none]

theorem formAction?_eq_some {action : List Char} : formAction? html = some action ↔
    ∃ form start stop, indexOf openForm html 0 = some form ∧
      indexOf openAction html form = some start ∧ indexOf ['"'] html (start + 8) = some stop ∧
      substring html (start + 8) stop = action := by
  simp only [formAction?, Option.bind_eq_some_iff, Option.map_eq_some_iff]
  constructor
  · rintro ⟨form, hform, start, hstart, stop, hstop, haction⟩
    exact ⟨form, start, stop, hform, hstart, hstop, haction⟩
  · rintro ⟨form, start, stop, hform, hstart, hstop, haction⟩
    exact ⟨form, hform, start, hstart, stop, hstop, haction⟩

theorem getPostBackUrlFromHtml_of_formAction {action : List Char}
    (h : formAction? html = some action) : getPostBackUrlFromHtml html = unescapeHtml action := by
  obtain ⟨form, start, stop, hform, hstart, hstop, rfl⟩ := formAction?_eq_some.mp h
  exact getPostBackUrlFromHtml_of_action (by rw [hform]; exact hstart) hstop

/-! ## lengths -/

theorem length_replaceAll_le (pattern : List Char) (c : Char) (skip : Nat) (s : List Char) :
    (replaceAll pattern c skip s).length ≤ s.length := by
  induction s generalizing skip with
  | nil => simp [replaceAll]
  | cons x s ih =>
      cases skip with
      | succ skip =>
          rw [replaceAll, List.length_cons]
          exact Nat.le_succ_of_le (ih skip)
      | zero =>
          rw [replaceAll]
          split_ifs
          · exact Nat.succ_le_succ (ih _)
          · exact Nat.succ_le_succ (ih _)

theorem length_unescapeHtml_le (html : List Char) : (unescapeHtml html).length ≤ html.length :=
  (length_replaceAll_le _ _ _ _).trans (length_replaceAll_le _ _ _ _)

theorem length_fullUrl (auth : AuthOkta) : 8 ≤ (auth.fullUrl.take 20).length := by
  have hfull : auth.fullUrl = "https://".toList ++ (auth.host.toList ++ ":443".toList) := by
    rw [fullUrl, ← String.toList_append, ← String.toList_append, ← String.append_assoc]
    rfl
  have hscheme : "https://".toList.length = 8 := rfl
  rw [List.length_take, hfull, List.length_append, hscheme]
  omega

/-- Fewer than eight characters are not the start of a url of the server. -/
theorem not_begins_of_length {url : List Char} (h : url.length ≤ 7) : ¬ Begins auth url := by
  intro hbegins
  have hlength := congrArg List.length hbegins
  have hfull := length_fullUrl auth
  rw [← hlength, List.length_take] at hfull
  omega

/-! ## what is accepted -/

theorem validateSAML_eq_ok : auth.validateSAML (some html) = .ok () ↔
    auth.disableSamlURLCheck = true ∨ Begins auth (getPostBackUrlFromHtml html) := by
  simp only [validateSAML, Begins]
  split_ifs with hreject
  · constructor
    · intro h
      contradiction
    · rintro (hdisabled | hbegins)
      · rw [hdisabled] at hreject
        simp at hreject
      · exact absurd hbegins hreject.2
  · refine ⟨fun _ => ?_, fun _ => rfl⟩
    by_contra hneither
    rw [not_or, Bool.not_eq_true] at hneither
    exact hreject hneither

/-- The condition is that nothing but a url of the server passes for one. -/
theorem tells_iff : Tells auth html ↔
    (Begins auth (getPostBackUrlFromHtml html) → LeadsHome auth html) := by
  constructor
  · intro h hbegins
    cases haction : formAction? html with
    | some action =>
        rw [getPostBackUrlFromHtml_of_formAction haction] at hbegins
        exact ⟨action, haction, h.action action haction hbegins⟩
    | none =>
        exfalso
        cases hstart : indexOf openAction html ((indexOf openForm html 0).getD 0) with
        | none =>
            rw [getPostBackUrlFromHtml_of_noAction hstart] at hbegins
            cases hstop : indexOf ['"'] html 7 with
            | some stop =>
                rw [hstop] at hbegins
                exact h.noAction hstart stop hstop hbegins
            | none =>
                -- at most the first seven characters are cut out
                rw [hstop] at hbegins
                refine not_begins_of_length ((length_unescapeHtml_le _).trans ?_) hbegins
                simp [substring]
        | some start =>
            cases hstop : indexOf ['"'] html (start + 8) with
            | none =>
                rw [getPostBackUrlFromHtml_of_unclosed hstart hstop] at hbegins
                exact h.unclosed start hstart hstop hbegins
            | some stop =>
                rw [getPostBackUrlFromHtml_of_action hstart hstop] at hbegins
                cases hform : indexOf openForm html 0 with
                | none =>
                    rw [hform] at hstart
                    exact h.noForm hform start stop hstart hstop hbegins
                | some form =>
                    rw [hform] at hstart
                    have hsome := formAction?_eq_some.mpr
                      ⟨form, start, stop, hform, hstart, hstop, rfl⟩
                    rw [haction] at hsome
                    contradiction
  · intro h
    have hnone : ∀ {url : List Char}, getPostBackUrlFromHtml html = url → formAction? html = none →
        ¬ Begins auth url := by
      rintro url rfl hnone hbegins
      obtain ⟨action, haction, -⟩ := h hbegins
      rw [hnone] at haction
      contradiction
    refine ⟨fun action haction hbegins => ?_, fun hform start stop hstart hstop => ?_,
      fun hstart stop hstop => ?_, fun start hstart hstop => ?_⟩
    · rw [← getPostBackUrlFromHtml_of_formAction haction] at hbegins
      obtain ⟨action', haction', hsame⟩ := h hbegins
      rw [haction] at haction'
      rwa [Option.some.inj haction']
    · refine hnone (getPostBackUrlFromHtml_of_action ?_ hstop) ?_
      · rwa [hform]
      · simp [formAction?, hform]
    · refine hnone ?_ ?_
      · rw [getPostBackUrlFromHtml_of_noAction hstart, hstop]
        rfl
      · cases hform : indexOf openForm html 0 with
        | none => simp [formAction?, hform]
        | some form =>
            rw [hform] at hstart
            simp [formAction?, hform, show indexOf openAction html form = none from hstart]
    · refine hnone (getPostBackUrlFromHtml_of_unclosed hstart hstop) ?_
      cases hform : indexOf openForm html 0 with
      | none => simp [formAction?, hform]
      | some form =>
          rw [hform] at hstart
          simp [formAction?, hform, show indexOf openAction html form = some start from hstart,
            hstop]

theorem binds_iff_tells {samlResponse : Option (List Char)} :
    Binds auth samlResponse html ↔ auth.disableSamlURLCheck = true ∨ Tells auth html := by
  rw [tells_iff]
  cases hdisabled : auth.disableSamlURLCheck with
  | true => simp [Binds, hdisabled]
  | false =>
      have hvalid : auth.validateSAML (some html) = .ok () ↔
          Begins auth (getPostBackUrlFromHtml html) := by
        simp [validateSAML_eq_ok, hdisabled]
      constructor
      · intro h
        exact .inr fun hbegins => (h hdisabled).1 (hvalid.mpr hbegins)
      · rintro (htrue | htells)
        · contradiction
        · refine fun _ => ⟨fun hok => htells (hvalid.mp hok), fun hnot => ?_⟩
          cases hresult : auth.validateSAML (some html) with
          | ok accepted => exact absurd (htells (hvalid.mp hresult)) hnot
          | error message => exact ⟨⟨message, rfl⟩, by rw [samlResponseAfter, hresult]⟩

/-- Only what posts back to the server of the account is accepted, exactly when nothing else passes
for the url of the server. -/
theorem binds_iff (auth : AuthOkta) (region : Option String) (account : String)
    (samlResponse : Option (List Char)) (html : List Char) :
    Binds { auth with host := constructHostname region account } samlResponse html ↔
      auth.disableSamlURLCheck = true ∨
        Tells { auth with host := constructHostname region account } html :=
  binds_iff_tells

/-- Two accounts whose names begin with the same twelve characters. -/
theorem other_account_accepted :
    ¬ ∀ (auth : AuthOkta) (region : Option String) (account : String)
      (samlResponse : Option (List Char)) (html : List Char),
        Binds { auth with host := constructHostname region account } samlResponse html := by
  intro h
  have haccepted := (h ⟨300, 7, false, ""⟩ none "myorg-account1" none
    ("<form method=\"post\" action=\"https&#x3a;&#x2f;&#x2f;myorg-account2" ++
      ".snowflakecomputing.com&#x2f;fed&#x2f;login\">").toList rfl).1 (by decide +kernel)
  exact absurd haccepted (by decide +kernel)

end AuthOkta

end SnowflakeConnector
