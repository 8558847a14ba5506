/-!
# SnowflakeConnector.Errors

The errors of `lib/errors.js`, with the fields that the connector's control flow
reads.  An exception of the JavaScript engine is an `Err` too: the handlers that
catch one store it where they store the connector's own errors.
-/

namespace SnowflakeConnector

/-- `errorTypes`, the value of an error's `name`, and the names of the engine's
own exceptions. -/
inductive ErrorType
  | internalAssertError
  | missingParameterError
  | invalidParameterError
  | networkError
  | requestFailedError
  | unexpectedContentError
  | operationFailedError
  | largeResultSetError
  | clientError
  | ocspError
  | crlError
  | typeError
  | syntaxError
  | error
  deriving DecidableEq, Repr

/-- An error code: the connector's own codes (`ErrorCode`) are numbers, those of
the server (`GSErrors`) and of Node are strings, so a comparison between the two
kinds is never true. -/
inductive ErrCode
  | undefined
  | num (n : Nat)
  | str (s : String)
  deriving DecidableEq, Repr

/-- An error: `name`, `code`, the `code` of its `cause` (`undefined` without one),
the `statusCode` of its `response` (`none` when the error carries no response)
and `sqlState`. -/
structure Err where
  name : ErrorType
  code : ErrCode
  causeCode : ErrCode
  statusCode : Option Nat
  sqlState : Option String
  deriving DecidableEq, Repr

namespace Errors

/-- `x.f` or `x[i]` on `undefined`. -/
def typeError : Err := ⟨.typeError, .undefined, .undefined, none, none⟩

/-- `JSON.parse` on a malformed text. -/
def syntaxError : Err := ⟨.syntaxError, .undefined, .undefined, none, none⟩

/-- The SQL-states that belong to an error code. -/
def errCodeToSqlState : ErrCode → Option String
  | .num 405501 => some "08002"
  | .num 405502 => some "08002"
  | .num 405503 => some "08003"
  | .num 407001 => some "08003"
  | .num 407002 => some "08003"
  | _ => none

/-- `createError`: without a SQL-state of its own an error gets that of its code. -/
def createError (name : ErrorType) (code causeCode : ErrCode) (statusCode : Option Nat)
    (sqlState : Option String) : Err :=
  { name, code, causeCode, statusCode,
    sqlState := match sqlState.filter (· ≠ "") with
      | some state => some state
      | none => errCodeToSqlState code }

def createClientError (errorCode : Nat) : Err :=
  createError .clientError (.num errorCode) .undefined none none

/-- `cause` is the code of the error that the request failed with. -/
def createNetworkError (errorCode : Nat) (cause : ErrCode) : Err :=
  createError .networkError (.num errorCode) cause none none

def createRequestFailedError (errorCode : Nat) (statusCode : Option Nat) : Err :=
  createError .requestFailedError (.num errorCode) .undefined statusCode none

def createUnexpectedContentError (errorCode : Nat) : Err :=
  createError .unexpectedContentError (.num errorCode) .undefined none none

def createOperationFailedError (errorCode : ErrCode) (sqlState : Option String) : Err :=
  createError .operationFailedError errorCode .undefined none sqlState

def createLargeResultSetError (errorCode : Nat) (statusCode : Option Nat) : Err :=
  createError .largeResultSetError (.num errorCode) .undefined statusCode none

/-- Determines if a given error is of a specific type. -/
def isErrorOfType (error : Option Err) (type : ErrorType) : Bool :=
  match error with
  | some e => e.name == type
  | none => false

def isNetworkError (error : Option Err) : Bool := isErrorOfType error .networkError

def isRequestFailedError (error : Option Err) : Bool := isErrorOfType error .requestFailedError

def isOperationFailedError (error : Option Err) : Bool :=
  isErrorOfType error .operationFailedError

def isLargeResultSetError (error : Option Err) : Bool := isErrorOfType error .largeResultSetError

/-- The external form of an error copies its fields; nothing stays nothing. -/
def externalize (error : Option Err) : Option Err :=
  error.map fun e => { name := e.name, code := e.code, causeCode := e.causeCode,
                       statusCode := e.statusCode, sqlState := e.sqlState }

@[simp] theorem externalize_eq (error : Option Err) : externalize error = error := by
  cases error <;> rfl

end Errors

end SnowflakeConnector
