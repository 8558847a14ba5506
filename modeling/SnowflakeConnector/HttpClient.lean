import Mathlib
import SnowflakeConnector.Errors

/-!
# SnowflakeConnector.HttpClient

`HttpClient.prototype.request` of `lib/http/base.js`: the promise chain that hangs
the caller's callback on one `axios.request`.

The callback runs inside the fulfilment handler, and the rejection handler behind
it calls the callback again.  The model keeps the calls in order together with
the way each of them settles, so that what one call raises is what the next
handler receives.
-/

namespace SnowflakeConnector

namespace HttpClient

variable {J : Type*}

/-- The `data` of a response: nothing yet, text, a parsed value, or something
that is not a string (a buffer, a stream). -/
inductive Data (J : Type*)
  | undefined
  | text (s : String)
  | json (value : J)
  | other
  deriving DecidableEq, Repr

/-- A response as axios reports it; `json` keeps the text that `data` was parsed
from. -/
structure Response (J : Type*) where
  status : Nat
  contentType : Option String
  data : Data J
  json : Option String
  deriving DecidableEq, Repr

/-- What a handler can throw, or a promise reject with.  Anything that is not an
object cannot take the properties that `sanitizeAxiosError` assigns; an error may
carry a response. -/
inductive Thrown (J : Type*)
  | primitive
  | error (response : Option (Response J))
  deriving DecidableEq, Repr

/-- What axios does with a request: it resolves with a 2xx answer, or rejects with
an error object. -/
inductive Outcome (J : Type*)
  | resolved (response : Response J)
  | rejected (response : Option (Response J))
  deriving DecidableEq, Repr

/-- The arguments `(err, response, body)` of one call of the callback. -/
structure Call (J : Type*) where
  err : Option (Thrown J)
  response : Option (Response J)
  body : Option (Data J)
  deriving DecidableEq, Repr

/-- How one call of the callback settles. -/
inductive Settled (J : Type*)
  | returned
  | threw (reason : Thrown J)
  | rejected (reason : Thrown J)
  deriving DecidableEq, Repr

/-- What a promise chain that returns the callback's result receives. -/
def Settled.failure : Settled J → Option (Thrown J)
  | .returned => none
  | .threw reason => some reason
  | .rejected reason => some reason

/-- What a handler that drops the callback's result lets through: a rejection of
the returned promise is nobody's. -/
def Settled.thrown : Settled J → Option (Thrown J)
  | .threw reason => some reason
  | _ => none

/-- The behaviour of a callback: how each call settles, by its number and its
arguments. -/
abbrev Callback (J : Type*) := Nat → Call J → Settled J

/-- A finished exchange: the calls of the callback in order, and what
`requestPromise` is rejected with, if anything. -/
structure Exchange (J : Type*) where
  calls : List (Call J)
  rejection : Option (Thrown J)
  deriving DecidableEq, Repr

/-- `response['headers']['content-type']?.toLowerCase().includes('application/json')`. -/
def isJson (response : Response J) : Bool :=
  match response.contentType with
  | some contentType => decide ("application/json".toList <:+: contentType.toLower.toList)
  | none => false

section

variable (convertSmkIdToString : String → String) (parseJson : String → Option J)

/-- `parseIfJSONData`: parses the text of a JSON response, after rewriting the
`smkId` members of a text that has some; `none` when `JSON.parse` throws. -/
def parseIfJSONData (response : Response J) : Option (Response J) :=
  match response.data with
  | .text s =>
      if isJson response then
        let text := if "smkId".toList <:+: s.toList then convertSmkIdToString s else s
        (parseJson text).map fun value => { response with json := some text, data := .json value }
      else some response
  | _ => some response

/-- The arguments with which the callback receives an answer. -/
def answerCall (response : Response J) : Call J := ⟨none, some response, some response.data⟩

/-- The fulfilment handler: parse the answer and return what the callback makes
of it. -/
def onFulfilled (callback : Option (Callback J)) (response : Response J) : Exchange J :=
  match parseIfJSONData convertSmkIdToString parseJson response with
  | none => ⟨[], some (.error none)⟩
  | some parsed =>
      match callback with
      | some cb => ⟨[answerCall parsed], (cb 0 (answerCall parsed)).failure⟩
      | none => ⟨[], none⟩

/-- The arguments with which the callback receives an error: the response of an
answer outside 2xx is unwrapped, unless it has a status but no data yet. -/
def errorCall (response : Option (Response J)) : Call J :=
  match response with
  | some r =>
      match r.data with
      | .undefined => ⟨some (.error response), none, none⟩
      | _ => answerCall r
  | none => ⟨some (.error none), none, none⟩

/-- The rejection handler.  `sanitizeAxiosError` throws on what is not an object;
the result of the callback is dropped. -/
def onRejected (callback : Option (Callback J)) (earlier : List (Call J)) (err : Thrown J) :
    Exchange J :=
  match err with
  | .primitive => ⟨earlier, some (.error none)⟩
  | .error response =>
      match callback with
      | some cb =>
          ⟨earlier ++ [errorCall response], (cb earlier.length (errorCall response)).thrown⟩
      | none => ⟨earlier, some err⟩

/-- `axios.request(requestOptions).then(…).catch(…)`. -/
def request (callback : Option (Callback J)) : Outcome J → Exchange J
  | .resolved response =>
      let exchange := onFulfilled convertSmkIdToString parseJson callback response
      match exchange.rejection with
      | none => exchange
      | some err => onRejected callback exchange.calls err
  | .rejected response => onRejected callback [] (.error response)

/-- The callback fails with an object while it handles the parsed 2xx answer. -/
def FailsOnAnswer (callback : Callback J) (outcome : Outcome J) : Prop :=
  ∃ response parsed carried,
    outcome = .resolved response ∧
    parseIfJSONData convertSmkIdToString parseJson response = some parsed ∧
    (callback 0 (answerCall parsed)).failure = some (.error carried)

/-! ## how often the callback is called -/

/-- Without a usable answer the callback is called once, with the error. -/
theorem calls_rejected (callback : Callback J) (response : Option (Response J)) :
    (request convertSmkIdToString parseJson (some callback) (.rejected response)).calls =
      [errorCall response] := rfl

theorem calls_unparsable (callback : Callback J) {response : Response J}
    (h : parseIfJSONData convertSmkIdToString parseJson response = none) :
    (request convertSmkIdToString parseJson (some callback) (.resolved response)).calls =
      [errorCall none] := by
  simp [request, onFulfilled, h, onRejected]

/-- A parsed answer reaches the callback first; if the callback then fails with an
object, that object reaches it too. -/
theorem calls_parsed (callback : Callback J) {response parsed : Response J}
    (h : parseIfJSONData convertSmkIdToString parseJson response = some parsed) :
    (request convertSmkIdToString parseJson (some callback) (.resolved response)).calls =
      answerCall parsed ::
        (match (callback 0 (answerCall parsed)).failure with
        | some (.error carried) => [errorCall carried]
        | _ => []) := by
  simp only [request, onFulfilled, h]
  cases hf : (callback 0 (answerCall parsed)).failure with
  | none => rfl
  | some err => cases err <;> rfl

/-- **Completion**: the callback is invoked exactly once if and only if it does not
fail with an object while it handles the parsed 2xx answer.  In that one case
the failure is delivered to it again, as a network error or, when the failure
carries a response with data, as a new answer. -/
theorem request_calls_once_iff (callback : Callback J) (outcome : Outcome J) :
    (request convertSmkIdToString parseJson (some callback) outcome).calls.length = 1 ↔
      ¬ FailsOnAnswer convertSmkIdToString parseJson callback outcome := by
  cases outcome with
  | rejected response =>
      rw [calls_rejected]
      refine iff_of_true rfl ?_
      rintro ⟨r, parsed, carried, h, -⟩
      cases h
  | resolved response =>
      cases hp : parseIfJSONData convertSmkIdToString parseJson response with
      | none =>
          rw [calls_unparsable convertSmkIdToString parseJson callback hp]
          refine iff_of_true rfl ?_
          rintro ⟨r, parsed, carried, h, hparsed, -⟩
          cases h
          rw [hp] at hparsed
          cases hparsed
      | some parsed =>
          rw [calls_parsed convertSmkIdToString parseJson callback hp]
          have hfails : FailsOnAnswer convertSmkIdToString parseJson callback (.resolved response) ↔
              ∃ carried, (callback 0 (answerCall parsed)).failure = some (.error carried) := by
            constructor
            · rintro ⟨r, parsed', carried, h, hparsed, hf⟩
              cases h
              obtain rfl := Option.some.inj (hp.symm.trans hparsed)
              exact ⟨carried, hf⟩
            · rintro ⟨carried, hf⟩
              exact ⟨response, parsed, carried, rfl, hp, hf⟩
          rw [hfails]
          cases hf : (callback 0 (answerCall parsed)).failure with
          | none => simp
          | some err => cases err <;> simp

end

/-- A callback that fails with an error of its own on its first call. -/
def failsFirst : Callback String := fun n _ => if n = 0 then .rejected (.error none) else .returned

/-- A 2xx answer on which the callback rejects: the callback is invoked a second
time, with its own failure in place of a network error. -/
theorem request_calls_twice :
    (request id some (some failsFirst)
      (.resolved ⟨200, some "application/json", .text "{}", none⟩)).calls =
      [⟨none, some ⟨200, some "application/json", .json "{}", some "{}"⟩, some (.json "{}")⟩,
        ⟨some (.error none), none, none⟩] ∧
    (request id some (some failsFirst)
      (.resolved ⟨200, some "application/json", .text "{}", none⟩)).calls.length ≠ 1 := by
  decide +kernel

end HttpClient

end SnowflakeConnector
