import SnowflakeConnector.Ocsp.SocketUtil

/-!
# SnowflakeConnector.Ocsp.CertChain

`validateCertChain` and `validateCert` of `lib/agent/socket_util.js`, `downloadCache` of
`ocsp_response_cache.js` and `check.js`: who calls back, and how often.

A certificate is checked by callbacks that come one after the other: timers, ticks and the events
of requests.  What is pending is a list of tasks, since nothing keeps a certificate from having
two of them; what each of them finds is left open.  An exception that nobody catches ends its
task.

* `decided_of_along` -- the runs in which every certificate gets one verdict, and the callback of
  the chain is called once and behind all of them.
-/

namespace SnowflakeConnector

namespace Ocsp

/-! ## the chain -/

structure ChainCertificate where
  fingerprint : String
  decodes : Bool
  deriving DecidableEq, Repr

/-- A certificate and those it was issued by, up to one that has no issuer or is its own. -/
inductive IssuerChain
  | unissued (cert : ChainCertificate)
  | selfIssued (cert : ChainCertificate)
  | issued (cert : ChainCertificate) (issuerCertificate : IssuerChain)

def IssuerChain.cert : IssuerChain → ChainCertificate
  | .unissued cert => cert
  | .selfIssued cert => cert
  | .issued cert _ => cert

/-- The certificates that are validated. -/
def IssuerChain.certs : IssuerChain → List ChainCertificate
  | .unissued _ => []
  | .selfIssued _ => []
  | .issued cert issuerCertificate =>
      if cert.fingerprint = issuerCertificate.cert.fingerprint then []
      else cert :: issuerCertificate.certs

structure ChainConfig where
  certs : List ChainCertificate
  useCacheServer : Bool
  ocspMode : OcspMode

def ChainConfig.decodes (cfg : ChainConfig) (i : Nat) : Bool := cfg.certs[i]?.any (·.decodes)

def ChainConfig.maxNumRetries (cfg : ChainConfig) : Nat := if cfg.ocspMode = .failClosed then 2 else 1

def isValidOCSPError (err : OcspError) : Bool := err == .revoked || err == .unknown

/-- What the errors of a chain come to: the first one, or unless one of them says nothing about
its certificate, a revocation. -/
def canEarlyExitForOCSP (mode : OcspMode) (errors : List (Option OcspError)) : Option OcspError :=
  if mode = .failClosed then errors.findSome? id
  else if errors.any (·.any fun err => ¬ isValidOCSPError err) = true then none
  else errors.findSome? fun err => err.filter (· == .revoked)

/-! ## tasks -/

/-- How a request to a responder starts: not at all, with an error or none; or it is sent. -/
inductive CheckOutcome
  | done (err : Option OcspError)
  | requested
  | throws (err : OcspError)
  deriving DecidableEq, Repr

/-- What `getOcspResonseAndVerify` finds: a response in the cache, and what is wrong with it; or
none, maybe since the cache is too old, and how the request starts if it comes to that. -/
inductive CacheOutcome
  | found (err : Option OcspError)
  | missing (expired : Bool) (check : CheckOutcome)
  | throws (err : OcspError)
  deriving DecidableEq, Repr

/-- The request to the cache server: before its response, behind it, and when it was aborted. -/
inductive ServerPhase
  | waiting
  | answered
  | aborted
  deriving DecidableEq, Repr

inductive Task
  | report (err : Option OcspError)
  | getOcspCache
  | getOcspResonseAndVerify
  | download (phase : ServerPhase)
  | request (numRetries : Nat)
  | retry (numRetries : Nat)
  deriving DecidableEq, Repr

/-- The validation of a chain: certificates that have not been looked at, what is pending, who has
reported, and what the callback of the chain was called with. -/
structure Checks where
  unstarted : List Nat
  downloadStatus : DownloadStatus
  othersDownload : Bool
  tasks : List (Nat × Task)
  reports : List Nat
  errors : List (Option OcspError)
  callbacks : List (Option OcspError)

/-- The events of a request to the cache server; a response may be read to its end or not, and
what is thrown then makes the callback be called again. -/
inductive CacheServerEvent
  | response (read : Bool) (found again : CacheOutcome)
  | error (found : CacheOutcome)
  | timeout (found : CacheOutcome)
  | responseAborted
  | closed

inductive ResponderEvent
  | answer (err : Option OcspError)
  | failure (err : OcspError)
  | responseAborted
  | throws

inductive CheckEvent
  | validateCert (found : CacheOutcome)
  | report (k : Nat)
  | getOcspCache (k : Nat) (contact : Option OcspError) (found : CacheOutcome)
  | getOcspResonseAndVerify (k : Nat) (found : CacheOutcome)
  | server (k : Nat) (event : CacheServerEvent)
  | responder (k : Nat) (event : ResponderEvent)
  | retry (k : Nat) (check : CheckOutcome)
  | othersDownloaded
  | resetCacheStatus

variable (cfg : ChainConfig)

namespace Checks

def add (s : Checks) (i : Nat) (task : Task) : Checks := { s with tasks := s.tasks ++ [(i, task)] }

def take (s : Checks) (k : Nat) : Checks := { s with tasks := s.tasks.eraseIdx k }

/-- The callback of `validateCert`. -/
def callback (s : Checks) (i : Nat) (err : Option OcspError) : Checks :=
  let errors := s.errors.set i err
  { s with
    reports := i :: s.reports
    errors
    callbacks :=
      if s.reports.length + 1 = cfg.certs.length then
        s.callbacks ++ [canEarlyExitForOCSP cfg.ocspMode errors]
      else s.callbacks }

/-- `getOcspResonseAndVerify`, and what it throws.  A certificate that cannot be decoded is
reported, and goes on. -/
def getOcspResonseAndVerify (s : Checks) (i : Nat) (useCacheServer : Bool) (found : CacheOutcome) :
    Checks × Option OcspError :=
  if useCacheServer = false ∧ s.downloadStatus ≠ .finished then
    (s.add i .getOcspResonseAndVerify, none)
  else
    let s := if cfg.decodes i = true then s else s.add i (.report (some (.thrown "decode")))
    match found with
    | .throws err => (s, some err)
    | .found err =>
        if cfg.decodes i = true then (s.add i (.report err), none)
        else (s, some (.thrown "Cannot read properties of undefined (reading 'issuer')"))
    | .missing expired check =>
        let s := if expired = true then { s with downloadStatus := .notStart } else s
        if useCacheServer = true then (s.add i .getOcspCache, none)
        else if cfg.decodes i = false then
          (s.add i (.report (some (.thrown "Cannot read properties of undefined (reading 'cert')"))),
            none)
        else
          match check with
          | .done err => (s.add i (.report err), none)
          | .requested => (s.add i (.request 1), none)
          | .throws err => (s, some err)

/-- `validateCert` for the next certificate; what is thrown ends `validateCertChain`. -/
def validateCert (s : Checks) (i : Nat) (rest : List Nat) (found : CacheOutcome) : Checks :=
  let s :=
    { s with
      unstarted := rest
      downloadStatus := if cfg.useCacheServer = true then s.downloadStatus else .finished }
  match s.getOcspResonseAndVerify cfg i cfg.useCacheServer found with
  | (s, none) => s
  | (s, some _) => { s with unstarted := [] }

/-- `getOcspCache`: nothing happens while a download is going on. -/
def getOcspCache (s : Checks) (i : Nat) (contact : Option OcspError) (found : CacheOutcome) :
    Option Checks :=
  match s.downloadStatus with
  | .started => none
  | .finished =>
      match s.getOcspResonseAndVerify cfg i false found with
      | (s, none) => some s
      | (s, some err) => some (s.add i (.report (some err)))
  | .notStart =>
      let s := { s with downloadStatus := .started }
      match contact with
      | some err => some (s.add i (.report (some err)))
      | none => some (s.add i (.download .waiting))

/-- `checkOCSPResponse`: the callback is called unless another download has ended before, and
called again when it throws behind a response that was read. -/
def checkOCSPResponse (s : Checks) (i : Nat) (read : Bool) (found again : CacheOutcome) : Checks :=
  if s.downloadStatus = .finished then s
  else
    match { s with downloadStatus := .finished }.getOcspResonseAndVerify cfg i false found with
    | (s, none) => s
    | (s, some _) => if read = true then (s.getOcspResonseAndVerify cfg i false again).1 else s

/-- The events of a request to the cache server.  The callback is forgotten behind an error and a
timeout, but not behind a response; a request that is aborted has an error to come. -/
def server (s : Checks) (i : Nat) : ServerPhase → CacheServerEvent → Option Checks
  | .waiting, .response read found again =>
      some ((s.add i (.download .answered)).checkOCSPResponse cfg i read found again)
  | .waiting, .responseAborted => some s
  | .waiting, .error found | .answered, .error found =>
      some ({ s with downloadStatus := .finished }.getOcspResonseAndVerify cfg i false found).1
  | .waiting, .timeout found | .answered, .timeout found =>
      some ({ s with downloadStatus := .finished }.add i (.download .aborted)
        |>.getOcspResonseAndVerify cfg i false found).1
  | .answered, .closed | .aborted, .closed => some s
  | .aborted, .error _ => some { s with downloadStatus := .finished }
  | _, _ => none

/-- The reply of a responder. -/
def responder (s : Checks) (i numRetries : Nat) : ResponderEvent → Checks
  | .answer err => s.callback cfg i err
  | .failure err =>
      if numRetries < cfg.maxNumRetries ∧ isRetryable err = true then
        s.add i (.retry (numRetries + 1))
      else s.callback cfg i (some err)
  | .responseAborted => s
  | .throws => s

/-- The request is sent again. -/
def retry (s : Checks) (i numRetries : Nat) : CheckOutcome → Checks
  | .done err => s.callback cfg i err
  | .requested => s.add i (.request numRetries)
  | .throws _ => s

/-- One task after all certificates have been looked at. -/
def run (s : Checks) : CheckEvent → Option Checks
  | .validateCert _ => none
  | .report k =>
      match s.tasks[k]? with
      | some (i, .report err) => some ((s.take k).callback cfg i err)
      | _ => none
  | .getOcspCache k contact found =>
      match s.tasks[k]? with
      | some (i, .getOcspCache) => (s.take k).getOcspCache cfg i contact found
      | _ => none
  | .getOcspResonseAndVerify k found =>
      match s.tasks[k]? with
      | some (i, .getOcspResonseAndVerify) =>
          if s.downloadStatus = .finished then
            some ((s.take k).getOcspResonseAndVerify cfg i false found).1
          else none
      | _ => none
  | .server k event =>
      match s.tasks[k]? with
      | some (i, .download phase) => (s.take k).server cfg i phase event
      | _ => none
  | .responder k event =>
      match s.tasks[k]? with
      | some (i, .request numRetries) => some ((s.take k).responder cfg i numRetries event)
      | _ => none
  | .retry k check =>
      match s.tasks[k]? with
      | some (i, .retry numRetries) => some ((s.take k).retry cfg i numRetries check)
      | _ => none
  | .othersDownloaded =>
      if s.othersDownload = true then
        some { s with downloadStatus := .finished, othersDownload := false }
      else none
  | .resetCacheStatus => some { s with downloadStatus := .notStart }

def step (s : Checks) (e : CheckEvent) : Option Checks :=
  match s.unstarted with
  | [] => s.run cfg e
  | i :: rest =>
      match e with
      | .validateCert found => some (s.validateCert cfg i rest found)
      | _ => none

/-- Before the first certificate is looked at; another socket may be downloading the cache. -/
def init (downloadStatus : DownloadStatus) : Checks where
  unstarted := List.range cfg.certs.length
  downloadStatus
  othersDownload := downloadStatus == .started
  tasks := []
  reports := []
  errors := List.replicate cfg.certs.length none
  callbacks := []

end Checks

/-! ## what is claimed of runs -/

def CheckOutcome.isQuiet : CheckOutcome → Bool
  | .throws _ => false
  | _ => true

/-- Nothing is thrown; with the cache server no request is sent. -/
def CacheOutcome.isQuiet (useCacheServer : Bool) : CacheOutcome → Bool
  | .throws _ => false
  | .found _ => true
  | .missing _ check => useCacheServer || check.isQuiet

def CacheOutcome.isExpired : CacheOutcome → Bool
  | .missing expired _ => expired
  | _ => false

/-- The events of a chain itself; others may reset the status of the cache. -/
def CheckEvent.isOwn : CheckEvent → Bool
  | .resetCacheStatus => false
  | _ => true

namespace Checks

/-- No certificate has two verdicts, the callback is called at most once and behind all of them,
and when nothing is pending it has been called. -/
structure Safe (s : Checks) : Prop where
  once : ∀ i, s.reports.count i ≤ 1
  decided : s.callbacks.length ≤ 1 ∧ (s.callbacks ≠ [] → ∀ i < cfg.certs.length, i ∈ s.reports)
  complete : (∀ e : CheckEvent, e.isOwn = true → s.step cfg e = none) →
    s.callbacks.length = 1 ∧ ∀ i < cfg.certs.length, s.reports.count i = 1

end Checks

/-- A response, an error or a timeout whose callback throws nothing, or nothing again; and nothing
more of a request that has been answered. -/
def CacheServerEvent.Harmless (downloadStatus : DownloadStatus) :
    ServerPhase → CacheServerEvent → Prop
  | .waiting, .response read found again =>
      found.isQuiet false = true ∨
        read = true ∧ found.isExpired = false ∧ again.isQuiet false = true
  | .waiting, .error found | .waiting, .timeout found => found.isQuiet false = true
  | .waiting, .responseAborted => False
  | .waiting, .closed => True
  | .answered, .error _ | .answered, .timeout _ => False
  | .aborted, .error _ => downloadStatus ≠ .started
  | .answered, _ | .aborted, _ => True

namespace Checks

/-- The phase of a request to the cache server. -/
def serverPhase (s : Checks) (k : Nat) : Option ServerPhase :=
  match s.tasks[k]? with
  | some (_, .download phase) => some phase
  | _ => none

/-- Nothing is thrown where it is not caught, every request ends, and with one event; and the
status of the cache is not touched by others while it is downloaded. -/
def Harmless (s : Checks) : CheckEvent → Prop
  | .validateCert found =>
      found.isQuiet cfg.useCacheServer = true ∧
        (s.downloadStatus = .started → cfg.useCacheServer = true ∧ found.isExpired = false)
  | .getOcspCache _ contact _ => s.downloadStatus = .notStart → contact = none
  | .getOcspResonseAndVerify _ found => found.isQuiet false = true
  | .server k event =>
      ∀ phase ∈ s.serverPhase k, CacheServerEvent.Harmless s.downloadStatus phase event
  | .responder _ .responseAborted | .responder _ .throws => False
  | .retry _ check => check.isQuiet = true
  | .resetCacheStatus => s.downloadStatus ≠ .started
  | _ => True

end Checks

/-! ## accounts of tasks -/

/-- A task that is owed a report. -/
def Task.isLive : Task → Bool
  | .download .waiting => true
  | .download _ => false
  | _ => true

def Task.isWaiting : Task → Bool
  | .download .waiting => true
  | _ => false

/-- How many steps there may be behind a task. -/
def Task.weight (maxNumRetries : Nat) : Task → Nat
  | .report _ => 1
  | .retry numRetries => 2 * (maxNumRetries - numRetries) + 3
  | .request numRetries => 2 * (maxNumRetries - numRetries) + 2
  | .download .waiting => 2 * maxNumRetries + 6
  | .download .answered => 2
  | .download .aborted => 1
  | .getOcspCache => 2 * maxNumRetries + 7
  | .getOcspResonseAndVerify => 0

def live (i : Nat) (tasks : List (Nat × Task)) : Nat :=
  tasks.countP fun task => decide (task.1 = i) && task.2.isLive

def waiting (tasks : List (Nat × Task)) : Nat := tasks.countP fun task => task.2.isWaiting

def weight (maxNumRetries : Nat) (tasks : List (Nat × Task)) : Nat :=
  (tasks.map fun task => task.2.weight maxNumRetries).sum

theorem perm_take {tasks : List (Nat × Task)} {k : Nat} {task : Nat × Task}
    (h : tasks[k]? = some task) : (task :: tasks.eraseIdx k).Perm tasks := by
  obtain ⟨hlt, rfl⟩ := List.getElem?_eq_some_iff.mp h
  exact List.getElem_cons_eraseIdx_perm hlt

theorem live_take {tasks : List (Nat × Task)} {k i : Nat} {task : Nat × Task}
    (h : tasks[k]? = some task) :
    live i tasks = live i (tasks.eraseIdx k) +
      if task.1 = i ∧ task.2.isLive = true then 1 else 0 := by
  unfold live
  rw [← (perm_take h).countP_eq, List.countP_cons]
  simp only [Bool.and_eq_true, decide_eq_true_eq]

theorem waiting_take {tasks : List (Nat × Task)} {k : Nat} {task : Nat × Task}
    (h : tasks[k]? = some task) :
    waiting tasks = waiting (tasks.eraseIdx k) + if task.2.isWaiting = true then 1 else 0 := by
  unfold waiting
  rw [← (perm_take h).countP_eq, List.countP_cons]

theorem weight_take {tasks : List (Nat × Task)} {k : Nat} {task : Nat × Task} (m : Nat)
    (h : tasks[k]? = some task) :
    weight m tasks = weight m (tasks.eraseIdx k) + task.2.weight m := by
  unfold weight
  rw [← ((perm_take h).map _).sum_eq, List.map_cons, List.sum_cons, Nat.add_comm]

@[simp] theorem live_append (i : Nat) (tasks tasks' : List (Nat × Task)) :
    live i (tasks ++ tasks') = live i tasks + live i tasks' := List.countP_append

@[simp] theorem waiting_append (tasks tasks' : List (Nat × Task)) :
    waiting (tasks ++ tasks') = waiting tasks + waiting tasks' := List.countP_append

@[simp] theorem weight_append (m : Nat) (tasks tasks' : List (Nat × Task)) :
    weight m (tasks ++ tasks') = weight m tasks + weight m tasks' := by
  simp [weight]

@[simp] theorem live_single (i j : Nat) (task : Task) :
    live i [(j, task)] = if j = i ∧ task.isLive = true then 1 else 0 := by
  simp [live, List.countP_cons]

@[simp] theorem waiting_single (j : Nat) (task : Task) :
    waiting [(j, task)] = if task.isWaiting = true then 1 else 0 := by
  simp [waiting, List.countP_cons]

@[simp] theorem weight_single (m j : Nat) (task : Task) :
    weight m [(j, task)] = task.weight m := by
  simp [weight]

namespace Checks

/-- The invariant: every certificate is owed one report or has given it, and the cache is being
downloaded exactly when a download is waited for. -/
structure Inv (s : Checks) : Prop where
  owed : ∀ i, s.unstarted.count i + live i s.tasks + s.reports.count i =
    if i < cfg.certs.length then 1 else 0
  started : waiting s.tasks + s.othersDownload.toNat =
    if s.downloadStatus = .started then 1 else 0
  polls : ∀ task ∈ s.tasks, task.2 ≠ .getOcspResonseAndVerify
  called : s.callbacks.length = if s.reports.length = cfg.certs.length then 1 else 0

/-- While a task is taken: its certificate is owed one more report. -/
structure Owing (s : Checks) (i : Nat) : Prop where
  owed : ∀ j, s.unstarted.count j + live j s.tasks + s.reports.count j + (if i = j then 1 else 0) =
    if j < cfg.certs.length then 1 else 0
  started : waiting s.tasks + s.othersDownload.toNat =
    if s.downloadStatus = .started then 1 else 0
  polls : ∀ task ∈ s.tasks, task.2 ≠ .getOcspResonseAndVerify
  called : s.callbacks.length = if s.reports.length = cfg.certs.length then 1 else 0

/-- How many steps there may be. -/
def measure (s : Checks) : Nat :=
  s.unstarted.length * (2 * cfg.maxNumRetries + 8) + weight cfg.maxNumRetries s.tasks +
    s.othersDownload.toNat

variable {cfg} {s t : Checks} {i k : Nat} {task : Task}

/-! ## taking a task, and giving it back -/

theorem Inv.owed_take (h : s.Inv cfg) (hk : s.tasks[k]? = some (i, task))
    (hlive : task.isLive = true) (j : Nat) :
    s.unstarted.count j + live j (s.take k).tasks + s.reports.count j + (if i = j then 1 else 0) =
      if j < cfg.certs.length then 1 else 0 := by
  have howed := h.owed j
  rw [live_take hk] at howed
  simp only [hlive, and_true] at howed
  simp only [Checks.take]
  omega

theorem Inv.started_take (h : s.Inv cfg) (hk : s.tasks[k]? = some (i, task))
    (hwaiting : task.isWaiting = false) :
    waiting (s.take k).tasks + s.othersDownload.toNat =
      if s.downloadStatus = .started then 1 else 0 := by
  have hstarted := h.started
  rw [waiting_take hk, hwaiting, if_neg Bool.false_ne_true, Nat.add_zero] at hstarted
  exact hstarted

theorem Inv.polls_take (h : s.Inv cfg) :
    ∀ task ∈ (s.take k).tasks, task.2 ≠ .getOcspResonseAndVerify :=
  fun task hmem => h.polls task (List.mem_of_mem_eraseIdx hmem)

theorem Inv.take (h : s.Inv cfg) (hk : s.tasks[k]? = some (i, task)) (hlive : task.isLive = true)
    (hwaiting : task.isWaiting = false) : (s.take k).Owing cfg i :=
  ⟨h.owed_take hk hlive, h.started_take hk hwaiting, h.polls_take, h.called⟩

/-- A download that is waited for is the only one. -/
theorem Inv.status_of_waiting (h : s.Inv cfg) (hk : s.tasks[k]? = some (i, .download .waiting)) :
    s.downloadStatus = .started ∧ s.othersDownload = false ∧ waiting (s.take k).tasks = 0 := by
  have hstarted := h.started
  rw [waiting_take hk] at hstarted
  simp only [Task.isWaiting, if_true] at hstarted
  have hrest : waiting (s.take k).tasks = waiting (s.tasks.eraseIdx k) := rfl
  by_cases hstatus : s.downloadStatus = .started
  · rw [if_pos hstatus] at hstarted
    cases hothers : s.othersDownload with
    | true =>
        rw [hothers, Bool.toNat_true] at hstarted
        omega
    | false => exact ⟨hstatus, rfl, by omega⟩
  · rw [if_neg hstatus] at hstarted
    omega

/-- A download is over. -/
theorem Inv.take_waiting (h : s.Inv cfg) (hk : s.tasks[k]? = some (i, .download .waiting)) :
    Owing cfg { s.take k with downloadStatus := .finished } i := by
  obtain ⟨hstatus, hothers, hwaiting⟩ := h.status_of_waiting hk
  refine ⟨h.owed_take hk rfl, ?_, h.polls_take, h.called⟩
  simp only [Checks.take] at hwaiting ⊢
  simp [hwaiting, hothers]

/-- A task of which nothing is owed is dropped. -/
theorem Inv.drop (h : s.Inv cfg) (hk : s.tasks[k]? = some (i, task)) (hlive : task.isLive = false)
    (hwaiting : task.isWaiting = false) : (s.take k).Inv cfg := by
  refine ⟨fun j => ?_, h.started_take hk hwaiting, h.polls_take, h.called⟩
  have howed := h.owed j
  rw [live_take hk, hlive, if_neg (by simp), Nat.add_zero] at howed
  exact howed

theorem Owing.lt (h : s.Owing cfg i) : i < cfg.certs.length := by
  have howed := h.owed i
  rw [if_pos rfl] at howed
  by_contra hlt
  rw [if_neg hlt] at howed
  omega

/-- The status is another one, and the cache is not being downloaded. -/
theorem Owing.setStatus (h : s.Owing cfg i) (hstatus : s.downloadStatus ≠ .started)
    {status : DownloadStatus} (hstatus' : status ≠ .started) :
    Owing cfg { s with downloadStatus := status } i := by
  refine ⟨h.owed, ?_, h.polls, h.called⟩
  have hstarted := h.started
  rw [if_neg hstatus] at hstarted
  rw [if_neg hstatus']
  exact hstarted

theorem Inv.setStatus (h : s.Inv cfg) (hstatus : s.downloadStatus ≠ .started)
    {status : DownloadStatus} (hstatus' : status ≠ .started) :
    Inv cfg { s with downloadStatus := status } := by
  refine ⟨h.owed, ?_, h.polls, h.called⟩
  have hstarted := h.started
  rw [if_neg hstatus] at hstarted
  rw [if_neg hstatus']
  exact hstarted

theorem Owing.owed_add (h : s.Owing cfg i) (hlive : task.isLive = true) (j : Nat) :
    s.unstarted.count j + live j (s.add i task).tasks + s.reports.count j =
      if j < cfg.certs.length then 1 else 0 := by
  have howed := h.owed j
  simp only [Checks.add, live_append, live_single, hlive, and_true]
  omega

theorem Owing.started_add (h : s.Owing cfg i) (hwaiting : task.isWaiting = false) (j : Nat) :
    waiting (s.add j task).tasks + s.othersDownload.toNat =
      if s.downloadStatus = .started then 1 else 0 := by
  simp only [Checks.add, waiting_append, waiting_single, hwaiting, Bool.false_eq_true, if_false]
  exact h.started

theorem Owing.polls_add (h : s.Owing cfg i) (hpoll : task ≠ .getOcspResonseAndVerify) (j : Nat) :
    ∀ task' ∈ (s.add j task).tasks, task'.2 ≠ .getOcspResonseAndVerify := by
  intro task' hmem
  rcases List.mem_append.mp hmem with hmem | hmem
  · exact h.polls task' hmem
  · obtain rfl := List.mem_singleton.mp hmem
    exact hpoll

/-- The certificate has a task again. -/
theorem Owing.add (h : s.Owing cfg i) (hlive : task.isLive = true)
    (hwaiting : task.isWaiting = false) (hpoll : task ≠ .getOcspResonseAndVerify) :
    (s.add i task).Inv cfg :=
  ⟨h.owed_add hlive, h.started_add hwaiting i, h.polls_add hpoll i, h.called⟩

/-- The certificate waits for a download that it has started. -/
theorem Owing.addWaiting (h : s.Owing cfg i) (hstatus : s.downloadStatus ≠ .started) :
    Inv cfg ({ s with downloadStatus := .started }.add i (.download .waiting)) := by
  refine ⟨h.owed_add rfl, ?_, h.polls_add (by simp) i, h.called⟩
  have hstarted := h.started
  rw [if_neg hstatus] at hstarted
  have hadded : waiting (s.tasks ++ [(i, .download .waiting)]) = waiting s.tasks + 1 := by
    simp [Task.isWaiting]
  change waiting (s.tasks ++ [(i, .download .waiting)]) + s.othersDownload.toNat = 1
  omega

/-- A task of which nothing is owed. -/
theorem Owing.addDead (h : s.Owing cfg i) {j : Nat} (hlive : task.isLive = false)
    (hwaiting : task.isWaiting = false) (hpoll : task ≠ .getOcspResonseAndVerify) :
    (s.add j task).Owing cfg i := by
  refine ⟨fun j' => ?_, h.started_add hwaiting j, h.polls_add hpoll j, h.called⟩
  simp only [Checks.add, live_append, live_single, hlive, Bool.false_eq_true, and_false, if_false]
  exact h.owed j'

/-- Who has reported, each of them once. -/
theorem nodup_of_count {reports : List Nat} (h : ∀ j, reports.count j ≤ 1) : reports.Nodup :=
  List.nodup_iff_count_le_one.mpr h

theorem Owing.length_lt (h : s.Owing cfg i) : s.reports.length < cfg.certs.length := by
  have hcount : ∀ j, (i :: s.reports).count j ≤ if j < cfg.certs.length then 1 else 0 := by
    intro j
    have howed := h.owed j
    rw [List.count_cons]
    simp only [beq_iff_eq]
    omega
  have hnodup : (i :: s.reports).Nodup := by
    refine nodup_of_count fun j => (hcount j).trans ?_
    split_ifs <;> omega
  have hsubset : (i :: s.reports) ⊆ List.range cfg.certs.length := by
    intro j hj
    have hpos := List.count_pos_iff.mpr hj
    have hle := hcount j
    rw [List.mem_range]
    by_contra hlt
    rw [if_neg hlt] at hle
    omega
  have hlength := (List.subperm_of_subset hnodup hsubset).length_le
  simpa using hlength

/-- The certificate reports. -/
theorem Owing.callback (h : s.Owing cfg i) (err : Option OcspError) :
    (s.callback cfg i err).Inv cfg := by
  have hlt := h.length_lt
  refine ⟨fun j => ?_, h.started, h.polls, ?_⟩
  · have howed := h.owed j
    simp only [Checks.callback, List.count_cons, beq_iff_eq]
    omega
  · have hcalled := h.called
    rw [if_neg (by omega)] at hcalled
    simp only [Checks.callback, List.length_cons]
    by_cases hlast : s.reports.length + 1 = cfg.certs.length <;> simp [hlast, hcalled]

/-! ## how many steps there may be -/

theorem measure_take (hk : s.tasks[k]? = some (i, task)) :
    (s.take k).measure cfg + task.weight cfg.maxNumRetries = s.measure cfg := by
  have hweight := weight_take cfg.maxNumRetries hk
  simp only [Checks.measure, Checks.take, hweight]
  ring

@[simp] theorem measure_add (s : Checks) (i : Nat) (task : Task) :
    (s.add i task).measure cfg = s.measure cfg + task.weight cfg.maxNumRetries := by
  simp only [Checks.measure, Checks.add, weight_append, weight_single]
  omega

@[simp] theorem measure_setStatus (s : Checks) (status : DownloadStatus) :
    Checks.measure cfg { s with downloadStatus := status } = s.measure cfg := rfl

@[simp] theorem measure_callback (s : Checks) (i : Nat) (err : Option OcspError) :
    (s.callback cfg i err).measure cfg = s.measure cfg := rfl

theorem one_le_maxNumRetries (cfg : ChainConfig) : 1 ≤ cfg.maxNumRetries := by
  unfold ChainConfig.maxNumRetries
  split_ifs <;> omega

/-! ## `getOcspResonseAndVerify` -/

/-- A call of a certificate that can be decoded leaves one task, or throws and leaves none. -/
theorem call_cases {useCacheServer : Bool} {found : CacheOutcome} (hdecodes : cfg.decodes i = true)
    (hready : useCacheServer = true ∨ s.downloadStatus = .finished) :
    ∃ status, (status = s.downloadStatus ∨ found.isExpired = true ∧ status = .notStart) ∧
      (found.isQuiet useCacheServer = true ∧
          (∃ task, s.getOcspResonseAndVerify cfg i useCacheServer found =
            ({ s with downloadStatus := status }.add i task, none) ∧
          task.isLive = true ∧ task.isWaiting = false ∧ task ≠ .getOcspResonseAndVerify ∧
          task.weight cfg.maxNumRetries ≤
            if useCacheServer = true then 2 * cfg.maxNumRetries + 7
            else 2 * cfg.maxNumRetries) ∨
        found.isQuiet useCacheServer = false ∧
          ∃ err, s.getOcspResonseAndVerify cfg i useCacheServer found =
            ({ s with downloadStatus := status }, some err)) := by
  have hmax := one_le_maxNumRetries cfg
  have hpass : ¬ (useCacheServer = false ∧ s.downloadStatus ≠ .finished) := by
    rcases hready with rfl | hready
    · simp
    · simp [hready]
  unfold Checks.getOcspResonseAndVerify
  simp only [if_neg hpass, hdecodes, if_true]
  cases found with
  | throws err => exact ⟨s.downloadStatus, Or.inl rfl, Or.inr ⟨rfl, err, rfl⟩⟩
  | found err =>
      refine ⟨s.downloadStatus, Or.inl rfl, Or.inl ⟨rfl, .report err, rfl, rfl, rfl, by simp, ?_⟩⟩
      simp only [Task.weight]
      split_ifs <;> omega
  | missing expired check =>
      have hstatus : ∃ status, (status = s.downloadStatus ∨ expired = true ∧ status = .notStart) ∧
          (if expired = true then { s with downloadStatus := .notStart } else s) =
            { s with downloadStatus := status } := by
        cases expired with
        | false => exact ⟨s.downloadStatus, Or.inl rfl, rfl⟩
        | true => exact ⟨.notStart, Or.inr ⟨rfl, rfl⟩, rfl⟩
      obtain ⟨status, hcases, hset⟩ := hstatus
      refine ⟨status, hcases, ?_⟩
      simp only [hset]
      cases useCacheServer with
      | true => exact Or.inl ⟨rfl, .getOcspCache, rfl, rfl, rfl, by simp, by simp [Task.weight]⟩
      | false =>
          cases check with
          | done err =>
              refine Or.inl ⟨rfl, .report err, rfl, rfl, rfl, by simp, ?_⟩
              simp only [Task.weight, Bool.false_eq_true, if_false]
              omega
          | requested =>
              refine Or.inl ⟨rfl, .request 1, rfl, rfl, rfl, by simp, ?_⟩
              simp only [Task.weight, Bool.false_eq_true, if_false]
              omega
          | throws err => exact Or.inr ⟨rfl, err, rfl⟩

/-- A call in which nothing is thrown. -/
theorem Owing.call (h : s.Owing cfg i) {useCacheServer : Bool} {found : CacheOutcome}
    (hdecodes : cfg.decodes i = true)
    (hready : useCacheServer = true ∨ s.downloadStatus = .finished)
    (hquiet : found.isQuiet useCacheServer = true)
    (hstarted : s.downloadStatus = .started → found.isExpired = false) :
    ∃ t, s.getOcspResonseAndVerify cfg i useCacheServer found = (t, none) ∧ t.Inv cfg ∧
      t.measure cfg ≤ s.measure cfg +
        if useCacheServer = true then 2 * cfg.maxNumRetries + 7 else 2 * cfg.maxNumRetries := by
  obtain ⟨status, hstatus, ⟨-, task, hcall, hlive, hwaiting, hpoll, hweight⟩ | ⟨hloud, -⟩⟩ :=
    @call_cases cfg s i useCacheServer found hdecodes hready
  · refine ⟨_, hcall, ?_, ?_⟩
    · rcases hstatus with rfl | ⟨hexpired, rfl⟩
      · exact h.add hlive hwaiting hpoll
      · refine Owing.add (h.setStatus ?_ (by simp)) hlive hwaiting hpoll
        intro hdownloading
        rw [hstarted hdownloading] at hexpired
        contradiction
    · rw [measure_add, measure_setStatus]
      omega
  · rw [hquiet] at hloud
    contradiction

/-! ## steps -/

/-- The cache is asked for, or found downloaded. -/
theorem Owing.getOcspCache (h : s.Owing cfg i) (hdecodes : cfg.decodes i = true)
    {contact : Option OcspError} {found : CacheOutcome}
    (hcontact : s.downloadStatus = .notStart → contact = none)
    (ht : s.getOcspCache cfg i contact found = some t) :
    t.Inv cfg ∧ t.measure cfg ≤ s.measure cfg + (2 * cfg.maxNumRetries + 6) := by
  unfold Checks.getOcspCache at ht
  cases hstatus : s.downloadStatus with
  | started => simp [hstatus] at ht
  | notStart =>
      rw [hstatus, hcontact hstatus] at ht
      obtain rfl := Option.some.inj ht
      exact ⟨h.addWaiting (by simp [hstatus]), by simp [Task.weight]⟩
  | finished =>
      simp only [hstatus] at ht
      obtain ⟨status, hcases, ⟨-, task, hcall, hlive, hwaiting, hpoll, hweight⟩ | ⟨-, err, hcall⟩⟩ :=
        @call_cases cfg s i false found hdecodes (Or.inr hstatus)
      all_goals
        have hidle : status ≠ .started := by
          rcases hcases with rfl | ⟨-, rfl⟩ <;> simp [hstatus]
        have hset := h.setStatus (by simp [hstatus]) hidle
        rw [hcall] at ht
        obtain rfl := Option.some.inj ht
      · refine ⟨hset.add hlive hwaiting hpoll, ?_⟩
        rw [measure_add, measure_setStatus]
        simp only [Bool.false_eq_true, if_false] at hweight
        omega
      · refine ⟨hset.add rfl rfl (by simp), ?_⟩
        rw [measure_add, measure_setStatus, Task.weight]
        omega

/-- The callback of a download, which the cache server or a failure has ended. -/
theorem Owing.downloaded (h : s.Owing cfg i) (hdecodes : cfg.decodes i = true)
    {found : CacheOutcome} (hstatus : s.downloadStatus = .finished)
    (hquiet : found.isQuiet false = true) :
    ∃ t, s.getOcspResonseAndVerify cfg i false found = (t, none) ∧ t.Inv cfg ∧
      t.measure cfg ≤ s.measure cfg + 2 * cfg.maxNumRetries := by
  have hcall := @Owing.call cfg s i h false found hdecodes (Or.inr hstatus) hquiet
    (by simp [hstatus])
  simpa using hcall

/-- The callback of a download that goes well, at the first or the second time. -/
theorem Owing.checkOCSPResponse (h : Owing cfg { s with downloadStatus := .finished } i)
    (hstatus : s.downloadStatus ≠ .finished) (hdecodes : cfg.decodes i = true) {read : Bool}
    {found again : CacheOutcome}
    (hquiet : found.isQuiet false = true ∨
      read = true ∧ found.isExpired = false ∧ again.isQuiet false = true) :
    (s.checkOCSPResponse cfg i read found again).Inv cfg ∧
      (s.checkOCSPResponse cfg i read found again).measure cfg ≤
        s.measure cfg + 2 * cfg.maxNumRetries := by
  unfold Checks.checkOCSPResponse
  rw [if_neg hstatus]
  by_cases hfirst : found.isQuiet false = true
  · obtain ⟨u, hcall, hu, hle⟩ := h.downloaded hdecodes rfl hfirst
    rw [hcall]
    exact ⟨hu, hle⟩
  · obtain ⟨rfl, hfresh, hsecond⟩ := hquiet.resolve_left hfirst
    obtain ⟨u, hcall', hu, hle⟩ := h.downloaded hdecodes rfl hsecond
    obtain ⟨status, hcases, ⟨hcalm, -⟩ | ⟨-, err, hcall⟩⟩ :=
      @call_cases cfg { s with downloadStatus := .finished } i false found hdecodes (Or.inr rfl)
    · exact absurd hcalm hfirst
    · obtain rfl : status = .finished := by
        rcases hcases with rfl | ⟨hexpired, -⟩
        · rfl
        · rw [hfresh] at hexpired
          contradiction
      rw [hcall]
      simp only [if_true]
      rw [hcall']
      exact ⟨hu, hle⟩

/-- An event of a request to the cache server. -/
theorem Inv.server (h : s.Inv cfg) {phase : ServerPhase}
    (hk : s.tasks[k]? = some (i, .download phase))
    (hcerts : ∀ j < cfg.certs.length, cfg.decodes j = true) {event : CacheServerEvent}
    (he : s.Harmless cfg (.server k event))
    (ht : (s.take k).server cfg i phase event = some t) :
    t.Inv cfg ∧ t.measure cfg + 1 ≤ s.measure cfg := by
  have hmeasure : (s.take k).measure cfg + _ = s.measure cfg := measure_take hk
  have hharmless : CacheServerEvent.Harmless s.downloadStatus phase event := by
    exact he phase (by simp [Checks.serverPhase, hk])
  cases phase with
  | waiting =>
      have htaken := h.take_waiting hk
      have hdecodes := hcerts i htaken.lt
      simp only [Task.weight] at hmeasure
      have hfailed : ∀ found, found.isQuiet false = true →
          ∃ u, Checks.getOcspResonseAndVerify cfg { s.take k with downloadStatus := .finished } i
              false found = (u, none) ∧ u.Inv cfg ∧ u.measure cfg + 6 ≤ s.measure cfg := by
        intro found hquiet
        obtain ⟨u, hcall, hu, hle⟩ := htaken.downloaded hdecodes rfl hquiet
        have hle' : u.measure cfg ≤ (s.take k).measure cfg + 2 * cfg.maxNumRetries := hle
        exact ⟨u, hcall, hu, by omega⟩
      cases event with
      | response read found again =>
          obtain rfl := Option.some.inj ht
          have hstatus : ((s.take k).add i (.download .answered)).downloadStatus ≠ .finished := by
            have hstarted := (h.status_of_waiting hk).1
            simp [Checks.add, Checks.take, hstarted]
          have hadded : Owing cfg
              { (s.take k).add i (.download .answered) with downloadStatus := .finished } i :=
            htaken.addDead rfl rfl (by simp)
          obtain ⟨hinv, hle⟩ := hadded.checkOCSPResponse hstatus hdecodes hharmless
          refine ⟨hinv, ?_⟩
          rw [measure_add, Task.weight] at hle
          omega
      | error found =>
          obtain ⟨u, hcall, hu, hle⟩ := hfailed found hharmless
          obtain rfl := Option.some.inj ht
          rw [hcall]
          refine ⟨hu, ?_⟩
          dsimp only
          omega
      | timeout found =>
          obtain rfl := Option.some.inj ht
          have hadded : ({ s.take k with downloadStatus := .finished }.add i
              (.download .aborted)).Owing cfg i :=
            htaken.addDead rfl rfl (by simp)
          obtain ⟨u, hcall, hu, hle⟩ := hadded.downloaded hdecodes rfl hharmless
          rw [hcall]
          refine ⟨hu, ?_⟩
          rw [measure_add, Task.weight] at hle
          have hle' : u.measure cfg ≤ (s.take k).measure cfg + 1 + 2 * cfg.maxNumRetries := hle
          dsimp only
          omega
      | responseAborted => exact absurd hharmless id
      | closed => contradiction
  | answered =>
      simp only [Task.weight] at hmeasure
      cases event with
      | closed =>
          obtain rfl := Option.some.inj ht
          exact ⟨h.drop hk rfl rfl, by omega⟩
      | error found => exact absurd hharmless id
      | timeout found => exact absurd hharmless id
      | _ => contradiction
  | aborted =>
      simp only [Task.weight] at hmeasure
      cases event with
      | closed =>
          obtain rfl := Option.some.inj ht
          exact ⟨h.drop hk rfl rfl, by omega⟩
      | error found =>
          obtain rfl := Option.some.inj ht
          refine ⟨(h.drop hk rfl rfl).setStatus hharmless (by simp), ?_⟩
          rw [measure_setStatus]
          omega
      | _ => contradiction

/-- A reply of a responder. -/
theorem Inv.responder (h : s.Inv cfg) {numRetries : Nat}
    (hk : s.tasks[k]? = some (i, .request numRetries)) {event : ResponderEvent}
    (he : s.Harmless cfg (.responder k event)) :
    ((s.take k).responder cfg i numRetries event).Inv cfg ∧
      ((s.take k).responder cfg i numRetries event).measure cfg + 1 ≤ s.measure cfg := by
  have hmeasure : (s.take k).measure cfg + _ = s.measure cfg := measure_take hk
  have htaken := h.take hk rfl rfl
  simp only [Task.weight] at hmeasure
  cases event with
  | answer err =>
      refine ⟨htaken.callback err, ?_⟩
      simp only [Checks.responder, measure_callback]
      omega
  | failure err =>
      simp only [Checks.responder]
      split_ifs with hretry
      · refine ⟨htaken.add rfl rfl (by simp), ?_⟩
        rw [measure_add, Task.weight]
        omega
      · refine ⟨htaken.callback _, ?_⟩
        rw [measure_callback]
        omega
  | responseAborted => exact absurd he id
  | throws => exact absurd he id

/-- A request that is sent again. -/
theorem Inv.retry (h : s.Inv cfg) {numRetries : Nat}
    (hk : s.tasks[k]? = some (i, .retry numRetries)) {check : CheckOutcome}
    (he : s.Harmless cfg (.retry k check)) :
    ((s.take k).retry cfg i numRetries check).Inv cfg ∧
      ((s.take k).retry cfg i numRetries check).measure cfg + 1 ≤ s.measure cfg := by
  have hmeasure : (s.take k).measure cfg + _ = s.measure cfg := measure_take hk
  have htaken := h.take hk rfl rfl
  simp only [Task.weight] at hmeasure
  cases check with
  | done err =>
      refine ⟨htaken.callback err, ?_⟩
      simp only [Checks.retry, measure_callback]
      omega
  | requested =>
      refine ⟨htaken.add rfl rfl (by simp), ?_⟩
      simp only [Checks.retry, measure_add, Task.weight]
      omega
  | throws err => contradiction

/-- The next certificate is looked at. -/
theorem Inv.validateCert (h : s.Inv cfg) {rest : List Nat} (hunstarted : s.unstarted = i :: rest)
    (hdecodes : cfg.decodes i = true) {found : CacheOutcome}
    (he : s.Harmless cfg (.validateCert found)) :
    (s.validateCert cfg i rest found).Inv cfg ∧
      (s.validateCert cfg i rest found).measure cfg + 1 ≤ s.measure cfg := by
  obtain ⟨hquiet, hstatus⟩ := he
  have howing : Owing cfg { s with unstarted := rest } i := by
    refine ⟨fun j => ?_, h.started, h.polls, h.called⟩
    have howed := h.owed j
    rw [hunstarted, List.count_cons] at howed
    simp only [beq_iff_eq] at howed
    dsimp only
    omega
  set s' : Checks :=
    { s with
      unstarted := rest
      downloadStatus := if cfg.useCacheServer = true then s.downloadStatus else .finished } with hs'
  have howing' : s'.Owing cfg i := by
    by_cases hserver : cfg.useCacheServer = true
    · rw [hs']
      simp only [hserver, if_true]
      exact howing
    · rw [hs']
      simp only [hserver]
      exact howing.setStatus (fun hstarted => hserver (hstatus hstarted).1) (by simp)
  have hmeasure : s'.measure cfg + (2 * cfg.maxNumRetries + 8) = s.measure cfg := by
    simp only [Checks.measure, hs', hunstarted, List.length_cons]
    ring
  have hready : cfg.useCacheServer = true ∨ s'.downloadStatus = .finished := by
    by_cases hserver : cfg.useCacheServer = true
    · exact Or.inl hserver
    · exact Or.inr (by simp [hs', hserver])
  obtain ⟨t, hcall, ht, hle⟩ := howing'.call hdecodes hready hquiet fun hstarted => by
    by_cases hserver : cfg.useCacheServer = true
    · simp only [hs', hserver, if_true] at hstarted
      exact (hstatus hstarted).2
    · simp [hs', hserver] at hstarted
  have heq : s.validateCert cfg i rest found = t := by
    unfold Checks.validateCert
    simp only [← hs', hcall]
  rw [heq]
  refine ⟨ht, ?_⟩
  split_ifs at hle <;> omega

theorem decodes_of_lt (hcerts : ∀ cert ∈ cfg.certs, cert.decodes = true) :
    ∀ j < cfg.certs.length, cfg.decodes j = true := by
  intro j hj
  rw [ChainConfig.decodes, List.getElem?_eq_getElem hj, Option.any_some]
  exact hcerts _ (List.getElem_mem hj)

/-- A task that is run, after all certificates have been looked at. -/
theorem Inv.run (hcerts : ∀ j < cfg.certs.length, cfg.decodes j = true) (h : s.Inv cfg)
    {e : CheckEvent} (he : s.Harmless cfg e) (hrun : s.run cfg e = some t) :
    t.Inv cfg ∧ t.measure cfg + (if e.isOwn = true then 1 else 0) ≤ s.measure cfg := by
  cases e with
  | validateCert found => contradiction
  | report k =>
      cases hk : s.tasks[k]? with
      | none => simp [Checks.run, hk] at hrun
      | some task =>
          obtain ⟨i, task⟩ := task
          cases task with
          | report err =>
              simp only [Checks.run, hk] at hrun
              obtain rfl := Option.some.inj hrun
              have hmeasure : (s.take k).measure cfg + _ = s.measure cfg := measure_take hk
              refine ⟨(h.take hk rfl rfl).callback err, ?_⟩
              rw [measure_callback]
              simpa [CheckEvent.isOwn, Task.weight] using hmeasure.le
          | _ => simp [Checks.run, hk] at hrun
  | getOcspCache k contact found =>
      cases hk : s.tasks[k]? with
      | none => simp [Checks.run, hk] at hrun
      | some task =>
          obtain ⟨i, task⟩ := task
          cases task with
          | getOcspCache =>
              simp only [Checks.run, hk] at hrun
              have hmeasure : (s.take k).measure cfg + _ = s.measure cfg := measure_take hk
              have htaken := h.take hk rfl rfl
              obtain ⟨hinv, hle⟩ := htaken.getOcspCache (hcerts i htaken.lt) he hrun
              rw [Task.weight] at hmeasure
              simp only [CheckEvent.isOwn, if_true]
              exact ⟨hinv, by omega⟩
          | _ => simp [Checks.run, hk] at hrun
  | getOcspResonseAndVerify k found =>
      cases hk : s.tasks[k]? with
      | none => simp [Checks.run, hk] at hrun
      | some task =>
          obtain ⟨i, task⟩ := task
          cases task with
          | getOcspResonseAndVerify => exact absurd rfl (h.polls _ (List.mem_of_getElem? hk))
          | _ => simp [Checks.run, hk] at hrun
  | server k event =>
      cases hk : s.tasks[k]? with
      | none => simp [Checks.run, hk] at hrun
      | some task =>
          obtain ⟨i, task⟩ := task
          cases task with
          | download phase =>
              simp only [Checks.run, hk] at hrun
              simpa [CheckEvent.isOwn] using h.server hk hcerts he hrun
          | _ => simp [Checks.run, hk] at hrun
  | responder k event =>
      cases hk : s.tasks[k]? with
      | none => simp [Checks.run, hk] at hrun
      | some task =>
          obtain ⟨i, task⟩ := task
          cases task with
          | request numRetries =>
              simp only [Checks.run, hk] at hrun
              obtain rfl := Option.some.inj hrun
              simpa [CheckEvent.isOwn] using h.responder hk he
          | _ => simp [Checks.run, hk] at hrun
  | retry k check =>
      cases hk : s.tasks[k]? with
      | none => simp [Checks.run, hk] at hrun
      | some task =>
          obtain ⟨i, task⟩ := task
          cases task with
          | retry numRetries =>
              simp only [Checks.run, hk] at hrun
              obtain rfl := Option.some.inj hrun
              simpa [CheckEvent.isOwn] using h.retry hk he
          | _ => simp [Checks.run, hk] at hrun
  | othersDownloaded =>
      simp only [Checks.run] at hrun
      split_ifs at hrun with hothers
      obtain rfl := Option.some.inj hrun
      have hstarted := h.started
      rw [hothers, Bool.toNat_true] at hstarted
      have hwaiting : waiting s.tasks = 0 := by
        split_ifs at hstarted
        omega
      refine ⟨⟨h.owed, by simp [hwaiting], h.polls, h.called⟩, ?_⟩
      simp [Checks.measure, hothers, CheckEvent.isOwn]
  | resetCacheStatus =>
      obtain rfl := Option.some.inj hrun
      exact ⟨h.setStatus he (by simp), le_rfl⟩

/-- What one step keeps, and that it brings the end nearer. -/
theorem Inv.step (hcerts : ∀ j < cfg.certs.length, cfg.decodes j = true) (h : s.Inv cfg)
    {e : CheckEvent} (he : s.Harmless cfg e) (hstep : s.step cfg e = some t) :
    t.Inv cfg ∧ t.measure cfg + (if e.isOwn = true then 1 else 0) ≤ s.measure cfg := by
  cases hunstarted : s.unstarted with
  | nil =>
      simp only [Checks.step, hunstarted] at hstep
      exact h.run hcerts he hstep
  | cons i rest =>
      simp only [Checks.step, hunstarted] at hstep
      cases e with
      | validateCert found =>
          obtain rfl := Option.some.inj hstep
          have hlt : i < cfg.certs.length := by
            have howed := h.owed i
            rw [hunstarted, List.count_cons_self] at howed
            by_contra hge
            rw [if_neg hge] at howed
            omega
          simpa [CheckEvent.isOwn] using h.validateCert hunstarted (hcerts i hlt) he
      | _ => contradiction

theorem Inv.count_le (h : s.Inv cfg) (i : Nat) :
    s.reports.count i ≤ if i < cfg.certs.length then 1 else 0 := by
  have howed := h.owed i
  omega

/-- When as many have reported as there are certificates, all of them have. -/
theorem Inv.perm_range (h : s.Inv cfg) (hlength : s.reports.length = cfg.certs.length) :
    s.reports.Perm (List.range cfg.certs.length) := by
  have hnodup : s.reports.Nodup := by
    refine nodup_of_count fun i => (h.count_le i).trans ?_
    split_ifs <;> omega
  have hsubset : s.reports ⊆ List.range cfg.certs.length := by
    intro i hi
    have hpos := List.count_pos_iff.mpr hi
    have hle := h.count_le i
    rw [List.mem_range]
    by_contra hlt
    rw [if_neg hlt] at hle
    omega
  refine (List.subperm_of_subset hnodup hsubset).perm_of_length_le ?_
  rw [hlength, List.length_range]

/-- As long as there is a task, one of them can be run, or somebody else's download ends. -/
theorem Inv.tasks_eq_nil (h : s.Inv cfg) (hunstarted : s.unstarted = [])
    (hstuck : ∀ e : CheckEvent, e.isOwn = true → s.step cfg e = none) : s.tasks = [] := by
  have hrun : ∀ e : CheckEvent, e.isOwn = true → s.run cfg e = none := by
    intro e he
    have hstep := hstuck e he
    simpa only [Checks.step, hunstarted] using hstep
  have hnone : ∀ (k i : Nat) (task : Task), s.tasks[k]? = some (i, task) →
      task = .getOcspCache ∧ s.downloadStatus = .started := by
    intro k i task hk
    cases task with
    | report err =>
        have hreport := hrun (.report k) rfl
        simp [Checks.run, hk] at hreport
    | getOcspCache =>
        refine ⟨rfl, ?_⟩
        have hcache := hrun (.getOcspCache k none (.found none)) rfl
        simp only [Checks.run, hk, Checks.getOcspCache, Checks.take] at hcache
        cases hstatus : s.downloadStatus with
        | started => rfl
        | notStart => simp [hstatus] at hcache
        | finished =>
            rw [hstatus] at hcache
            dsimp only at hcache
            split at hcache <;> contradiction
    | getOcspResonseAndVerify => exact absurd rfl (h.polls _ (List.mem_of_getElem? hk))
    | download phase =>
        cases phase with
        | waiting =>
            have hserver := hrun (.server k .responseAborted) rfl
            simp [Checks.run, hk, Checks.server] at hserver
        | answered =>
            have hserver := hrun (.server k .closed) rfl
            simp [Checks.run, hk, Checks.server] at hserver
        | aborted =>
            have hserver := hrun (.server k .closed) rfl
            simp [Checks.run, hk, Checks.server] at hserver
    | request numRetries =>
        have hreply := hrun (.responder k .throws) rfl
        simp [Checks.run, hk] at hreply
    | retry numRetries =>
        have hretry := hrun (.retry k .requested) rfl
        simp [Checks.run, hk] at hretry
  by_contra htasks
  -- what is left waits for a download, and nobody has one
  obtain ⟨⟨i, task⟩, rest, hcons⟩ := List.exists_cons_of_ne_nil htasks
  obtain ⟨-, hstatus⟩ := hnone 0 i task (by rw [hcons]; rfl)
  have hwaiting : waiting s.tasks = 0 := by
    refine List.countP_eq_zero.mpr fun task' hmem => ?_
    obtain ⟨k, hk⟩ := List.mem_iff_getElem?.mp hmem
    rw [(hnone k task'.1 task'.2 hk).1]
    simp [Task.isWaiting]
  have hothers : s.othersDownload = false := by
    have hdownloaded := hrun .othersDownloaded rfl
    simpa [Checks.run] using hdownloaded
  have hstarted := h.started
  rw [hwaiting, hothers, if_pos hstatus] at hstarted
  contradiction

/-- Without any task every certificate has reported. -/
theorem Inv.safe (h : s.Inv cfg) : s.Safe cfg := by
  refine ⟨fun i => (h.count_le i).trans (by split_ifs <;> omega), ⟨?_, fun hcalled i hi => ?_⟩,
    fun hstuck => ?_⟩
  · rw [h.called]
    split_ifs <;> omega
  · have hlength : s.reports.length = cfg.certs.length := by
      by_contra hne
      have hlength := h.called
      rw [if_neg hne] at hlength
      exact hcalled (List.length_eq_zero_iff.mp hlength)
    rw [(h.perm_range hlength).mem_iff, List.mem_range]
    exact hi
  · have hunstarted : s.unstarted = [] := by
      cases hunstarted : s.unstarted with
      | nil => rfl
      | cons i rest =>
          have hstep := hstuck (.validateCert (.found none)) rfl
          simp [Checks.step, hunstarted] at hstep
    have htasks := h.tasks_eq_nil hunstarted hstuck
    have hcount : ∀ i, s.reports.count i = if i < cfg.certs.length then 1 else 0 := by
      intro i
      have howed := h.owed i
      rw [hunstarted, htasks] at howed
      simpa [live] using howed
    have hperm : s.reports.Perm (List.range cfg.certs.length) := by
      rw [List.perm_iff_count]
      intro i
      rw [hcount, List.count_range]
    have hlength := hperm.length_eq
    rw [List.length_range] at hlength
    refine ⟨by rw [h.called, if_pos hlength], fun i hi => ?_⟩
    rw [hcount, if_pos hi]

theorem inv_init (hcerts : cfg.certs ≠ []) (downloadStatus : DownloadStatus) :
    (init cfg downloadStatus).Inv cfg := by
  refine ⟨fun i => ?_, ?_, by simp [init], ?_⟩
  · simp [init, live, List.count_range]
  · cases downloadStatus <;> rfl
  · have hpos := List.length_pos_iff.mpr hcerts
    rw [if_neg (by simp only [init, List.length_nil]; omega)]
    rfl

theorem measure_init_le (cfg : ChainConfig) (downloadStatus : DownloadStatus) :
    (init cfg downloadStatus).measure cfg ≤
      cfg.certs.length * (2 * cfg.maxNumRetries + 8) + 1 := by
  have hothers := (downloadStatus == .started).toNat_le
  simpa [Checks.measure, init, weight] using hothers

end Checks

/-- **Runs**: for a chain that has certificates to validate, all of which can be decoded, as long
as nothing is thrown outside of every catch, every request ends with one event, and the cache is
not touched by others while it is downloaded, every certificate gets one verdict, and the callback
of the chain is called once, behind all of them; and that is the case after so many steps. -/
theorem decided_of_along (chain : IssuerChain) (useCacheServer : Bool) (ocspMode : OcspMode)
    (downloadStatus : DownloadStatus) (events : List CheckEvent) (s : Checks)
    (hcerts : chain.certs ≠ []) (hdecodes : ∀ cert ∈ chain.certs, cert.decodes = true)
    (hharmless : Lts.Along (Checks.step ⟨chain.certs, useCacheServer, ocspMode⟩)
      (Checks.Harmless ⟨chain.certs, useCacheServer, ocspMode⟩)
      (Checks.init ⟨chain.certs, useCacheServer, ocspMode⟩ downloadStatus) events)
    (h : Lts.exec (Checks.step ⟨chain.certs, useCacheServer, ocspMode⟩)
      (Checks.init ⟨chain.certs, useCacheServer, ocspMode⟩ downloadStatus) events = some s) :
    Lts.Always (Checks.step ⟨chain.certs, useCacheServer, ocspMode⟩)
        (Checks.Safe ⟨chain.certs, useCacheServer, ocspMode⟩)
        (Checks.init ⟨chain.certs, useCacheServer, ocspMode⟩ downloadStatus) events ∧
      (events.filter CheckEvent.isOwn).length ≤ chain.certs.length * 12 + 1 := by
  set cfg : ChainConfig := ⟨chain.certs, useCacheServer, ocspMode⟩ with hcfg
  have hinit : (Checks.init cfg downloadStatus).Inv cfg := Checks.inv_init hcerts downloadStatus
  have hstep : ∀ s e t, Checks.Inv cfg s → s.Harmless cfg e → s.step cfg e = some t →
      t.Inv cfg ∧ t.measure cfg + (if e.isOwn = true then 1 else 0) ≤ s.measure cfg :=
    fun s e t hinv he ht => hinv.step (Checks.decodes_of_lt hdecodes) he ht
  constructor
  · exact Lts.always_of_along (fun s hinv => hinv.safe)
      (fun s e t hinv he ht => (hstep s e t hinv he ht).1) hinit hharmless
  · have hlength := Lts.length_filter_le hstep hinit hharmless h
    have hmeasure := Checks.measure_init_le cfg downloadStatus
    have hmax : cfg.maxNumRetries ≤ 2 := by
      unfold ChainConfig.maxNumRetries
      split_ifs <;> omega
    have hcount : cfg.certs.length * (2 * cfg.maxNumRetries + 8) ≤ chain.certs.length * 12 :=
      Nat.mul_le_mul_left _ (by omega)
    omega

/-! ## chains that are decided early, or never -/

/-- A certificate, whether it can be decoded, and the one that it was issued by, under a root. -/
def shortChain (decodes : Bool) : IssuerChain :=
  .issued ⟨"leaf", decodes⟩ (.issued ⟨"intermediate", true⟩ (.selfIssued ⟨"root", true⟩))

/-- Nothing is in the cache, and the responders say that the certificates are good. -/
def goodChain : List CheckEvent :=
  [ .validateCert (.missing false .requested), .validateCert (.missing false .requested),
    .getOcspCache 0 none (.found none), .server 1 (.response true (.missing false .requested) (.found none)),
    .getOcspCache 0 none (.missing false .requested), .server 0 .closed, .responder 1 (.answer none),
    .responder 0 (.answer none) ]

instance decidableServerHarmless (downloadStatus : DownloadStatus) :
    ∀ phase event, Decidable (CacheServerEvent.Harmless downloadStatus phase event)
  | .waiting, .response .. => inferInstanceAs (Decidable (_ ∨ _ ∧ _ ∧ _))
  | .waiting, .error found | .waiting, .timeout found =>
      inferInstanceAs (Decidable (found.isQuiet false = true))
  | .waiting, .responseAborted => inferInstanceAs (Decidable False)
  | .waiting, .closed => inferInstanceAs (Decidable True)
  | .answered, .error _ | .answered, .timeout _ => inferInstanceAs (Decidable False)
  | .aborted, .error _ => inferInstanceAs (Decidable (downloadStatus ≠ .started))
  | .answered, .response .. | .answered, .responseAborted | .answered, .closed
  | .aborted, .response .. | .aborted, .timeout _ | .aborted, .responseAborted
  | .aborted, .closed => inferInstanceAs (Decidable True)

instance decidableHarmless (cfg : ChainConfig) (s : Checks) :
    ∀ e, Decidable (s.Harmless cfg e)
  | .validateCert _ => inferInstanceAs (Decidable (_ ∧ (_ → _ ∧ _)))
  | .getOcspCache _ contact _ =>
      inferInstanceAs (Decidable (s.downloadStatus = .notStart → contact = none))
  | .getOcspResonseAndVerify _ found => inferInstanceAs (Decidable (found.isQuiet false = true))
  | .server k event =>
      inferInstanceAs (Decidable (∀ phase ∈ s.serverPhase k,
        CacheServerEvent.Harmless s.downloadStatus phase event))
  | .responder _ .responseAborted | .responder _ .throws => inferInstanceAs (Decidable False)
  | .retry _ check => inferInstanceAs (Decidable (check.isQuiet = true))
  | .resetCacheStatus => inferInstanceAs (Decidable (s.downloadStatus ≠ .started))
  | .responder _ (.answer _) | .responder _ (.failure _) | .report _ | .othersDownloaded =>
      inferInstanceAs (Decidable True)

theorem decided_of_along_good :
    ∃ s, Lts.exec (Checks.step ⟨(shortChain true).certs, true, .failClosed⟩)
        (Checks.init ⟨(shortChain true).certs, true, .failClosed⟩ .notStart) goodChain = some s ∧
      s.callbacks = [none] ∧
      Lts.Always (Checks.step ⟨(shortChain true).certs, true, .failClosed⟩)
        (Checks.Safe ⟨(shortChain true).certs, true, .failClosed⟩)
        (Checks.init ⟨(shortChain true).certs, true, .failClosed⟩ .notStart) goodChain := by
  refine ⟨_, rfl, rfl, ?_⟩
  exact (decided_of_along (shortChain true) true .failClosed .notStart goodChain _ (by decide)
    (by decide) (by decide) rfl).1

/-- The first certificate cannot be decoded, and reports twice. -/
def undecodedRun : List CheckEvent :=
  [ .validateCert (.missing false .requested), .validateCert (.missing false .requested),
    .report 0, .report 0 ]

/-- The cache server refuses, and since nobody reads its response there is a timeout behind it. -/
def refusedRun : List CheckEvent :=
  [ .validateCert (.missing false .requested), .validateCert (.missing false .requested),
    .getOcspCache 0 none (.found none),
    .server 1 (.response false (.missing false .requested) (.found none)),
    .server 1 (.timeout (.missing false (.done none))), .responder 1 (.answer none), .report 2 ]

/-- A chain whose leaf is its own issuer is never decided; and one is decided before its second
certificate has a verdict, since the first one cannot be decoded, or its download has two ends. -/
theorem not_decided_once :
    ¬ (Checks.init ⟨(IssuerChain.selfIssued ⟨"leaf", true⟩).certs, true, .failClosed⟩ .notStart).Safe
        ⟨(IssuerChain.selfIssued ⟨"leaf", true⟩).certs, true, .failClosed⟩ ∧
    (∃ s, Lts.exec (Checks.step ⟨(shortChain false).certs, false, .failClosed⟩)
        (Checks.init ⟨(shortChain false).certs, false, .failClosed⟩ .notStart) undecodedRun =
          some s ∧ ¬ s.Safe ⟨(shortChain false).certs, false, .failClosed⟩) ∧
    ∃ s, Lts.exec (Checks.step ⟨(shortChain true).certs, true, .failClosed⟩)
        (Checks.init ⟨(shortChain true).certs, true, .failClosed⟩ .notStart) refusedRun = some s ∧
      ¬ s.Safe ⟨(shortChain true).certs, true, .failClosed⟩ := by
  refine ⟨fun hsafe => ?_, ⟨_, rfl, fun hsafe => ?_⟩, ⟨_, rfl, fun hsafe => ?_⟩⟩
  · have hcalled := (hsafe.complete fun e he => by cases e <;> first | rfl | contradiction).1
    contradiction
  · have hmem := hsafe.decided.2 (by decide) 1 (by decide)
    revert hmem
    decide
  · have hmem := hsafe.decided.2 (by decide) 1 (by decide)
    revert hmem
    decide

end Ocsp

end SnowflakeConnector
