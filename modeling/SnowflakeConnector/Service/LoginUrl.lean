import SnowflakeConnector.QueryString

/-!
# SnowflakeConnector.Service.LoginUrl

The url of a login request of `lib/services/sf.js`: `buildLoginUrl` writes the names that the
session begins with into a query string, and `sendHttpRequest` appends to it by hand when the login
has been tried before.

* `login_parameters` -- the server reads what was written, whatever the names are.
-/

namespace SnowflakeConnector

namespace Service

open QueryString

/-! ## the code -/

/-- What the connection config gives for the url; an option that is not set is `none`. -/
structure LoginOptions where
  accessUrl : List Char
  warehouse : Option (List Char)
  database : Option (List Char)
  schema : Option (List Char)
  role : Option (List Char)
  qaMode : Bool

namespace LoginOptions

def queryParams (o : LoginOptions) : List (List Char × Option (List Char)) :=
  [("warehouse".toList, o.warehouse), ("databaseName".toList, o.database),
    ("schemaName".toList, o.schema), ("roleName".toList, o.role)]

/-- The members of `queryStringObject`, in their order. -/
def queryStringObject (o : LoginOptions) (requestId : List Char) :
    List (List Char × List Char) :=
  (if o.qaMode then [] else [("requestId".toList, requestId)]) ++
    o.queryParams.filterMap fun p => (p.2.filter (· ≠ [])).map fun value => (p.1, value)

end LoginOptions

/-- `Url.format` of a path and a query string without `#`. -/
def formatUrl (pathname search : List Char) : List Char :=
  pathname ++ if search = [] then [] else '?' :: search

def loginPath : List Char := "/session/v1/login-request".toList

def buildLoginUrl (o : LoginOptions) (requestId : List Char) : List Char :=
  formatUrl loginPath (stringify (o.queryStringObject requestId))

/-- The time at which the login began; it is told to an `https` server only. -/
def startTime (o : LoginOptions) (now : Nat) : List Char :=
  if "https://".toList.isPrefixOf o.accessUrl then Nat.toDigits 10 now else "FIXEDTIMESTAMP".toList

/-- The url that `sendHttpRequest` hands to the HTTP client, beside its `params`. -/
def requestUrl (accessUrl url startTime : List Char) (retry : Nat) : List Char :=
  let absoluteUrl := accessUrl ++ url
  if retry > 2 then
    absoluteUrl ++ (if url.contains '?' then ['&'] else ['?']) ++ "clientStartTime=".toList ++
      startTime ++ "&".toList ++ "retryCount=".toList ++ Nat.toDigits 10 (retry - 1)
  else absoluteUrl

/-! ## what is read of it -/

/-- What a try tells beside the names. -/
def retryParams (o : LoginOptions) (now retry : Nat) : List (List Char × List Char) :=
  if retry > 2 then
    [("clientStartTime".toList, startTime o now),
      ("retryCount".toList, Nat.toDigits 10 (retry - 1))]
  else []

theorem unreserved_toDigits (n : Nat) : ∀ c ∈ Nat.toDigits 10 n, unreserved c = true := by
  intro c hc
  have hdigit : c.isDigit = true := Nat.isDigit_of_mem_toDigits (by decide) (by decide) hc
  simp [unreserved, Char.isAlphanum, hdigit]

theorem unreserved_startTime (o : LoginOptions) (now : Nat) :
    ∀ c ∈ startTime o now, unreserved c = true := by
  rw [startTime]
  split_ifs
  · exact unreserved_toDigits now
  · simp [unreserved]

/-- What is appended by hand is what `stringify` would have made of it. -/
theorem stringify_retryParams (o : LoginOptions) (now : Nat) {retry : Nat} (h : retry > 2) :
    stringify (retryParams o now retry) = "clientStartTime=".toList ++ startTime o now ++
      "&".toList ++ "retryCount=".toList ++ Nat.toDigits 10 (retry - 1) := by
  rw [retryParams, if_pos h, stringify_pair]
  · simp
  · intro c hc
    simp only [List.mem_append] at hc
    rcases hc with ((hc | hc) | hc) | hc
    · revert c
      simp [unreserved]
    · exact unreserved_startTime o now c hc
    · revert c
      simp [unreserved]
    · exact unreserved_toDigits _ c hc

theorem requestUrl_retry (o : LoginOptions) (url : List Char) (now : Nat) {retry : Nat}
    (h : retry > 2) : requestUrl o.accessUrl url (startTime o now) retry =
      o.accessUrl ++ (url ++ (if url.contains '?' then ['&'] else ['?']) ++
        stringify (retryParams o now retry)) := by
  rw [requestUrl, if_pos h, stringify_retryParams o now h]
  simp only [List.append_assoc]

theorem formatUrl_nil (pathname : List Char) : formatUrl pathname [] = pathname := by
  rw [formatUrl, if_pos rfl, List.append_nil]

theorem formatUrl_of_ne_nil (pathname : List Char) {search : List Char} (h : search ≠ []) :
    formatUrl pathname search = pathname ++ '?' :: search := by
  rw [formatUrl, if_neg h]

/-- The url of a try is that of the parameters of the first and of those that are appended. -/
theorem requestUrl_eq (o : LoginOptions) (requestId : List Char) (now retry : Nat) :
    requestUrl o.accessUrl (buildLoginUrl o requestId) (startTime o now) retry =
      o.accessUrl ++ formatUrl loginPath
        (stringify (o.queryStringObject requestId ++ retryParams o now retry)) := by
  by_cases hretry : retry > 2
  · have hparams : retryParams o now retry ≠ [] := by simp [retryParams, hretry]
    rw [requestUrl_retry o _ now hretry, buildLoginUrl]
    congr 1
    by_cases hobject : o.queryStringObject requestId = []
    · have hpath : loginPath.contains '?' = false := by decide
      have hnil : stringify [] = [] := stringify_eq_nil.mpr rfl
      have hsearch : stringify (retryParams o now retry) ≠ [] :=
        fun h => hparams (stringify_eq_nil.mp h)
      rw [hobject, List.nil_append, hnil, formatUrl_nil, hpath, if_neg Bool.false_ne_true,
        formatUrl_of_ne_nil _ hsearch, List.append_assoc, List.singleton_append]
    · have hfirst : stringify (o.queryStringObject requestId) ≠ [] :=
        fun h => hobject (stringify_eq_nil.mp h)
      have hmark : (loginPath ++ '?' :: stringify (o.queryStringObject requestId)).contains '?' =
          true := List.contains_iff_mem.mpr (List.mem_append_right _ (.head _))
      rw [stringify_append hobject hparams, formatUrl_of_ne_nil _ hfirst, hmark, if_pos rfl,
        formatUrl_of_ne_nil _ (by simp), List.append_assoc, List.append_assoc,
        List.cons_append, List.singleton_append]
  · rw [requestUrl, if_neg hretry, retryParams, if_neg hretry, List.append_nil, buildLoginUrl]

theorem length_params (o : LoginOptions) (requestId : List Char) (now retry : Nat) :
    (o.queryStringObject requestId ++ retryParams o now retry).length ≤ maxKeys := by
  have hrequest : (if o.qaMode then [] else [("requestId".toList, requestId)]).length ≤ 1 := by
    split_ifs <;> simp
  have hnames := List.length_filterMap_le
    (fun p : List Char × Option (List Char) =>
      (p.2.filter (· ≠ [])).map fun value => (p.1, value)) o.queryParams
  have hcount : o.queryParams.length = 4 := rfl
  have hretry : (retryParams o now retry).length ≤ 2 := by
    rw [retryParams]
    split_ifs <;> simp
  rw [List.length_append, LoginOptions.queryStringObject, List.length_append, maxKeys]
  omega

/-- **Login url**: whatever names the session begins with, and however often the login has been
tried, the url is that of the server with a query string of which exactly the request, the names
that are set and, behind them, the start and the count of the tries are read. -/
theorem login_parameters (unescapeBuffer : List Char → List Char) (o : LoginOptions)
    (requestId : List Char) (now retry : Nat) :
    ∃ search, requestUrl o.accessUrl (buildLoginUrl o requestId) (startTime o now) retry =
        o.accessUrl ++ formatUrl loginPath search ∧
      parse unescapeBuffer search = o.queryStringObject requestId ++ retryParams o now retry := by
  refine ⟨_, requestUrl_eq o requestId now retry, ?_⟩
  rw [parse_stringify, List.take_of_length_le (length_params o requestId now retry)]

end Service

end SnowflakeConnector
