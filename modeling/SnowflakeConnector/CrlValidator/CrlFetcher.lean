import SnowflakeConnector.Lts
import SnowflakeConnector.CrlValidator

/-!
# SnowflakeConnector.CrlValidator.CrlFetcher

`lib/agent/crl_validator/crl_fetcher.ts` and `crl_cache.ts`: calls of `getCrl` side by side, with
a cache in memory and one on disk.  A call that finds nothing starts a fetch, and calls that
arrive during the fetch are given its promise.

What a call does between two awaits is one step.  Lists are kept with the time when they were
downloaded, which the code does not know.

* `safe_of_along` -- the runs with one fetch of a url at a time, in which no list is returned too
  late.
-/

namespace SnowflakeConnector

namespace CrlValidator

/-! ## the state -/

abbrev RawCrl := List UInt8

/-- How long a list is kept, and what raw lists decode to. -/
structure FetcherConfig where
  crlCacheValidityTime : Nat
  decode : RawCrl → Except String CertificateList

structure CacheOptions where
  inMemoryCache : Bool
  onDiskCache : Bool
  deriving DecidableEq, Repr

structure MemoryEntry where
  expireAt : Int
  crl : CertificateList
  downloaded : Int
  deriving DecidableEq, Repr

structure CrlFile where
  rawCrl : RawCrl
  mtime : Int
  downloaded : Int
  deriving DecidableEq, Repr

/-- A list that is returned, or an error, with the time. -/
structure Settlement where
  result : Except String CertificateList
  downloaded : Int
  now : Int

inductive FetchPhase
  | downloading
  | saving (crl : CertificateList) (rawCrl : RawCrl) (downloaded : Int)
  | settled (settlement : Settlement)

structure Fetch where
  url : String
  options : CacheOptions
  phase : FetchPhase

/-- Whether the promise of a fetch is pending. -/
def Fetch.isInFlight (fetch : Fetch) : Bool :=
  match fetch.phase with
  | .settled _ => false
  | _ => true

/-- Where a call is: a fetch that it waits for settles it. -/
inductive CallPhase
  | stat
  | readFile
  | awaiting (fetch : Nat)
  | returned (settlement : Settlement)

/-- A call, and the fetch of its url that was in flight when it arrived. -/
structure Call where
  url : String
  options : CacheOptions
  during : Option Nat
  phase : CallPhase

structure FetcherState where
  now : Int
  memory : String → Option MemoryEntry
  disk : String → Option CrlFile
  pendingFetchRequests : String → Option Nat
  fetches : List Fetch
  calls : List Call

/-- What is left of a file that was written. -/
inductive Saved
  | new
  | old
  | torn
  deriving DecidableEq, Repr

inductive FetcherEvent
  | getCrl (url : String) (options : CacheOptions)
  | stat (call : Nat) (fails : Bool)
  | readFile (call : Nat) (fails : Bool)
  | download (fetch : Nat) (reply : Except String RawCrl)
  | save (fetch : Nat) (saved : Saved) (error : Option String)
  | clearExpiredCrlFromMemoryCache
  | rm (url : String)
  | tick (ms : Nat)

variable (cfg : FetcherConfig)

namespace FetcherState

/-- `getCrlFromMemory`; an entry that is too old is deleted. -/
def getCrlFromMemory (s : FetcherState) (url : String) : Option MemoryEntry × FetcherState :=
  match s.memory url with
  | some entry =>
      if s.now < entry.expireAt then (some entry, s)
      else (none, { s with memory := Function.update s.memory url none })
  | none => (none, s)

/-- `setCrlInMemory`, which throws for a list without a next update. -/
def setCrlInMemory (s : FetcherState) (url : String) (crl : CertificateList) (downloaded : Int) :
    Option FetcherState :=
  crl.nextUpdate.map fun nextUpdate =>
    { s with
      memory := Function.update s.memory url
        (some ⟨min (s.now + cfg.crlCacheValidityTime) nextUpdate, crl, downloaded⟩) }

/-- A fetch of the url that is in flight. -/
def inFlight (s : FetcherState) (url : String) : Option Nat :=
  s.fetches.findIdx? fun fetch => decide (fetch.url = url) && fetch.isInFlight

def setCall (s : FetcherState) (i : Nat) (call : Call) (phase : CallPhase) : FetcherState :=
  { s with calls := s.calls.set i { call with phase } }

/-- The request is sent, and then its promise is pending. -/
def startFetch (s : FetcherState) (i : Nat) (call : Call) : FetcherState :=
  { s.setCall i call (.awaiting s.fetches.length) with
    fetches := s.fetches ++ [⟨call.url, call.options, .downloading⟩]
    pendingFetchRequests :=
      Function.update s.pendingFetchRequests call.url (some s.fetches.length) }

/-- The promise of a fetch settles, and whatever is pending for its url is deleted. -/
def settle (s : FetcherState) (f : Nat) (fetch : Fetch) (result : Except String CertificateList)
    (downloaded : Int) : FetcherState :=
  { s with
    fetches := s.fetches.set f { fetch with phase := .settled ⟨result, downloaded, s.now⟩ }
    pendingFetchRequests := Function.update s.pendingFetchRequests fetch.url none }

/-- The start of `getCrl`, up to its first await. -/
def getCrl (s : FetcherState) (url : String) (options : CacheOptions) : FetcherState :=
  let i := s.calls.length
  let call : Call := ⟨url, options, s.inFlight url, .stat⟩
  let s := { s with calls := s.calls ++ [call] }
  match s.pendingFetchRequests url with
  | some f => s.setCall i call (.awaiting f)
  | none =>
      let (cachedCrl, s) :=
        if options.inMemoryCache = true then s.getCrlFromMemory url else (none, s)
      match cachedCrl with
      | some entry => s.setCall i call (.returned ⟨.ok entry.crl, entry.downloaded, s.now⟩)
      | none => if options.onDiskCache = true then s else s.startFetch i call

/-- Whether the file of a url is there and not too old. -/
def isFileYoung (s : FetcherState) (url : String) (fails : Bool) : Bool :=
  match s.disk url with
  | none => false
  | some file => !fails && !decide ((cfg.crlCacheValidityTime : Int) < s.now - file.mtime)

/-- The list in the file of a url, unless it is expired. -/
def readCrl (s : FetcherState) (url : String) (fails : Bool) : Option (CertificateList × Int) :=
  match s.disk url with
  | none => none
  | some file =>
      if fails = true then none
      else
        match cfg.decode file.rawCrl with
        | .error _ => none
        | .ok crl =>
            match crl.nextUpdate with
            | none => none
            | some nextUpdate => if s.now < nextUpdate then some (crl, file.downloaded) else none

/-- A call whose file has been read. -/
def finishRead (s : FetcherState) (i : Nat) (call : Call) (fails : Bool) : FetcherState :=
  match s.readCrl cfg call.url fails with
  | none => s.startFetch i call
  | some (crl, downloaded) =>
      let s' :=
        if call.options.inMemoryCache = true then
          (s.setCrlInMemory cfg call.url crl downloaded).getD s
        else s
      s'.setCall i call (.returned ⟨.ok crl, downloaded, s.now⟩)

/-- A fetch whose reply has come. -/
def finishDownload (s : FetcherState) (f : Nat) (fetch : Fetch) :
    Except String RawCrl → FetcherState
  | .error err => s.settle f fetch (.error err) s.now
  | .ok data =>
      match cfg.decode data with
      | .error err => s.settle f fetch (.error err) s.now
      | .ok parsedCrl =>
          let saved :=
            if fetch.options.inMemoryCache = true then
              s.setCrlInMemory cfg fetch.url parsedCrl s.now
            else some s
          match saved with
          | none =>
              s.settle f fetch
                (.error "Cannot read properties of undefined (reading 'value')") s.now
          | some s' =>
              if fetch.options.onDiskCache = true then
                { s' with
                  fetches := s'.fetches.set f { fetch with phase := .saving parsedCrl data s.now } }
              else s'.settle f fetch (.ok parsedCrl) s.now

/-- A fetch whose list has been written; what is thrown there is not caught. -/
def finishSave (s : FetcherState) (f : Nat) (fetch : Fetch) (crl : CertificateList)
    (rawCrl : RawCrl) (downloaded : Int) (saved : Saved) (error : Option String) : FetcherState :=
  let s' :=
    match saved with
    | .new =>
        { s with disk := Function.update s.disk fetch.url (some ⟨rawCrl, s.now, downloaded⟩) }
    | .old => s
    | .torn => { s with disk := Function.update s.disk fetch.url none }
  match error with
  | some err => s'.settle f fetch (.error err) downloaded
  | none => s'.settle f fetch (.ok crl) downloaded

def step (s : FetcherState) : FetcherEvent → Option FetcherState
  | .getCrl url options => some (s.getCrl url options)
  | .stat i fails =>
      s.calls[i]?.bind fun call =>
        match call.phase with
        | .stat =>
            some
              (if s.isFileYoung cfg call.url fails = true then s.setCall i call .readFile
              else s.startFetch i call)
        | _ => none
  | .readFile i fails =>
      s.calls[i]?.bind fun call =>
        match call.phase with
        | .readFile => some (s.finishRead cfg i call fails)
        | _ => none
  | .download f reply =>
      s.fetches[f]?.bind fun fetch =>
        match fetch.phase with
        | .downloading => some (s.finishDownload cfg f fetch reply)
        | _ => none
  | .save f saved error =>
      s.fetches[f]?.bind fun fetch =>
        match fetch.phase with
        | .saving crl rawCrl downloaded =>
            some (s.finishSave f fetch crl rawCrl downloaded saved error)
        | _ => none
  | .clearExpiredCrlFromMemoryCache =>
      some { s with memory := fun url => (s.memory url).filter fun e => ¬ e.expireAt < s.now }
  | .rm url => some { s with disk := Function.update s.disk url none }
  | .tick ms => some { s with now := s.now + ms }

/-- A process before its first call; there may be files. -/
def init (now : Int) (disk : String → Option CrlFile) : FetcherState where
  now
  memory _ := none
  disk
  pendingFetchRequests _ := none
  fetches := []
  calls := []

end FetcherState

/-! ## what is claimed of runs -/

/-- A list is returned within the validity time after its download, and not after its next
update. -/
def Settlement.Timely (settlement : Settlement) : Prop :=
  ∀ crl, settlement.result = .ok crl →
    settlement.now ≤ settlement.downloaded + cfg.crlCacheValidityTime ∧
      ∀ nextUpdate ∈ crl.nextUpdate, settlement.now ≤ nextUpdate

/-- One fetch of a url at a time is in flight, calls that arrive during it wait for it, and all
that is returned is timely. -/
structure FetcherState.Safe (s : FetcherState) : Prop where
  single : ∀ (i j : Nat) (f g : Fetch), s.fetches[i]? = some f → s.fetches[j]? = some g →
    f.isInFlight = true → g.isInFlight = true → f.url = g.url → i = j
  joined : ∀ call ∈ s.calls, ∀ f ∈ call.during, call.phase = .awaiting f
  returned : ∀ call ∈ s.calls, ∀ settlement, call.phase = .returned settlement →
    settlement.Timely cfg
  settled : ∀ fetch ∈ s.fetches, ∀ settlement, fetch.phase = .settled settlement →
    settlement.Timely cfg

/-- The step starts no fetch of a url for which one is pending, puts no list from the disk into
memory for longer than it is valid, and returns none that is too old. -/
def FetcherState.Sound (s : FetcherState) : FetcherEvent → Prop
  | .stat i fails =>
      ∀ call ∈ s.calls[i]?, s.isFileYoung cfg call.url fails = false →
        s.pendingFetchRequests call.url = none
  | .readFile i fails =>
      ∀ call ∈ s.calls[i]?,
        match s.readCrl cfg call.url fails with
        | none => s.pendingFetchRequests call.url = none
        | some (crl, downloaded) =>
            s.now ≤ downloaded + cfg.crlCacheValidityTime ∧
              (call.options.inMemoryCache = true → ∀ nextUpdate ∈ crl.nextUpdate,
                min (s.now + cfg.crlCacheValidityTime) nextUpdate ≤
                  downloaded + cfg.crlCacheValidityTime)
  | .download f (.ok data) =>
      ∀ fetch ∈ s.fetches[f]?, fetch.options.onDiskCache = false →
        ∀ crl, cfg.decode data = .ok crl → ∀ nextUpdate ∈ crl.nextUpdate, s.now ≤ nextUpdate
  | .save f _ none =>
      ∀ fetch ∈ s.fetches[f]?, ∀ crl rawCrl downloaded,
        fetch.phase = .saving crl rawCrl downloaded →
          s.now ≤ downloaded + cfg.crlCacheValidityTime ∧
            ∀ nextUpdate ∈ crl.nextUpdate, s.now ≤ nextUpdate
  | _ => True

/-! ## the invariant -/

namespace FetcherState

/-- The invariant: what is pending is what is in flight, and what is in memory expires in time. -/
structure Inv (s : FetcherState) : Prop where
  pending : ∀ (url : String) (f : Nat), s.pendingFetchRequests url = some f ↔
    ∃ fetch, s.fetches[f]? = some fetch ∧ fetch.url = url ∧ fetch.isInFlight = true
  memory : ∀ url entry, s.memory url = some entry →
    entry.expireAt ≤ entry.downloaded + cfg.crlCacheValidityTime ∧
      ∀ nextUpdate ∈ entry.crl.nextUpdate, entry.expireAt ≤ nextUpdate
  joined : ∀ call ∈ s.calls, ∀ f ∈ call.during, call.phase = .awaiting f
  returned : ∀ call ∈ s.calls, ∀ settlement, call.phase = .returned settlement →
    settlement.Timely cfg
  settled : ∀ fetch ∈ s.fetches, ∀ settlement, fetch.phase = .settled settlement →
    settlement.Timely cfg

variable {cfg} {s t : FetcherState} {i f : Nat} {call : Call} {fetch : Fetch}

theorem Inv.safe (h : s.Inv cfg) : s.Safe cfg where
  single i j f g hi hj hf hg hurl := by
    have hpending := (h.pending g.url i).mpr ⟨f, hi, hurl, hf⟩
    have hpending' := (h.pending g.url j).mpr ⟨g, hj, rfl, hg⟩
    exact Option.some.inj (hpending.symm.trans hpending')
  joined := h.joined
  returned := h.returned
  settled := h.settled

/-- What is in flight is pending. -/
theorem Inv.inFlight_eq (h : s.Inv cfg) (url : String) :
    s.inFlight url = s.pendingFetchRequests url := by
  unfold FetcherState.inFlight
  cases hfound : s.fetches.findIdx? fun fetch => decide (fetch.url = url) && fetch.isInFlight with
  | some f =>
      obtain ⟨hlt, hf, -⟩ := List.findIdx?_eq_some_iff_getElem.mp hfound
      simp only [Bool.and_eq_true, decide_eq_true_eq] at hf
      exact ((h.pending url f).mpr ⟨s.fetches[f], List.getElem?_eq_getElem hlt, hf⟩).symm
  | none =>
      rw [List.findIdx?_eq_none_iff] at hfound
      by_contra hpending
      obtain ⟨f, hf⟩ := Option.ne_none_iff_exists'.mp (Ne.symm hpending)
      obtain ⟨fetch, hfetch, hurl, hflight⟩ := (h.pending url f).mp hf
      have hnot := hfound fetch (List.mem_of_getElem? hfetch)
      simp [hurl, hflight] at hnot

/-- Another memory. -/
theorem Inv.setMemory (h : s.Inv cfg) {memory : String → Option MemoryEntry}
    (hmemory : ∀ url entry, memory url = some entry →
      entry.expireAt ≤ entry.downloaded + cfg.crlCacheValidityTime ∧
        ∀ nextUpdate ∈ entry.crl.nextUpdate, entry.expireAt ≤ nextUpdate) :
    Inv cfg { s with memory } :=
  ⟨h.pending, hmemory, h.joined, h.returned, h.settled⟩

theorem Inv.getCrlFromMemory (h : s.Inv cfg) (url : String) :
    (s.getCrlFromMemory url).2.Inv cfg := by
  unfold FetcherState.getCrlFromMemory
  cases s.memory url with
  | none => exact h
  | some entry =>
      dsimp only
      split_ifs
      · exact h
      · refine h.setMemory fun url' entry' hentry => ?_
        by_cases hurl : url' = url
        · simp [hurl] at hentry
        · rw [Function.update_of_ne hurl] at hentry
          exact h.memory url' entry' hentry

/-- A list is put into memory until it is too old, or is updated. -/
theorem Inv.setCrlInMemory (h : s.Inv cfg) {url : String} {crl : CertificateList}
    {downloaded : Int} (hset : s.setCrlInMemory cfg url crl downloaded = some t)
    (hdownloaded : ∀ nextUpdate ∈ crl.nextUpdate,
      min (s.now + cfg.crlCacheValidityTime) nextUpdate ≤ downloaded + cfg.crlCacheValidityTime) :
    t.Inv cfg := by
  obtain ⟨nextUpdate, hnext, rfl⟩ := Option.map_eq_some_iff.mp hset
  refine h.setMemory fun url' entry hentry => ?_
  by_cases hurl : url' = url
  · rw [hurl, Function.update_self] at hentry
    obtain rfl := Option.some.inj hentry
    refine ⟨hdownloaded nextUpdate hnext, fun nextUpdate' hnext' => ?_⟩
    obtain rfl := Option.some.inj (hnext.symm.trans hnext')
    exact min_le_right _ _
  · rw [Function.update_of_ne hurl] at hentry
    exact h.memory url' entry hentry

/-- A call goes on that waits for nothing. -/
theorem Inv.setCall (h : s.Inv cfg) {phase : CallPhase} (hduring : call.during = none)
    (hreturned : ∀ settlement, phase = .returned settlement → settlement.Timely cfg) :
    (s.setCall i call phase).Inv cfg := by
  have hcalls : ∀ c ∈ (s.setCall i call phase).calls, c ∈ s.calls ∨ c = { call with phase } :=
    fun c hc => List.mem_or_eq_of_mem_set hc
  refine ⟨h.pending, h.memory, fun c hc f hf => ?_, fun c hc settlement hphase => ?_, h.settled⟩
  · rcases hcalls c hc with hc | rfl
    · exact h.joined c hc f hf
    · simp [hduring] at hf
  · rcases hcalls c hc with hc | rfl
    · exact h.returned c hc settlement hphase
    · exact hreturned settlement hphase

/-- A call arrives. -/
theorem Inv.addCall (h : s.Inv cfg) (hduring : ∀ f ∈ call.during, call.phase = .awaiting f)
    (hreturned : ∀ settlement, call.phase = .returned settlement → settlement.Timely cfg) :
    Inv cfg { s with calls := s.calls ++ [call] } := by
  refine ⟨h.pending, h.memory, fun c hc f hf => ?_, fun c hc settlement hphase => ?_, h.settled⟩
  · rcases List.mem_append.mp hc with hc | hc
    · exact h.joined c hc f hf
    · obtain rfl := List.mem_singleton.mp hc
      exact hduring f hf
  · rcases List.mem_append.mp hc with hc | hc
    · exact h.returned c hc settlement hphase
    · obtain rfl := List.mem_singleton.mp hc
      exact hreturned settlement hphase

/-- A fetch starts where none is pending. -/
theorem Inv.startFetch (h : s.Inv cfg) (hduring : call.during = none)
    (hpending : s.pendingFetchRequests call.url = none) : (s.startFetch i call).Inv cfg := by
  have hcall : (s.setCall i call (.awaiting s.fetches.length)).Inv cfg :=
    h.setCall hduring (by simp)
  refine ⟨fun url f => ?_, hcall.memory, hcall.joined, hcall.returned, fun g hg settlement hphase => ?_⟩
  · simp only [FetcherState.startFetch, FetcherState.setCall]
    by_cases hurl : url = call.url
    · subst hurl
      rw [Function.update_self]
      constructor
      · intro hf
        obtain rfl := Option.some.inj hf
        exact ⟨⟨call.url, call.options, .downloading⟩, by simp, rfl, rfl⟩
      · intro ⟨fetch, hfetch, hurl, hflight⟩
        rcases Nat.lt_trichotomy f s.fetches.length with hlt | rfl | hgt
        · rw [List.getElem?_append_left hlt] at hfetch
          rw [(h.pending call.url f).mpr ⟨fetch, hfetch, hurl, hflight⟩] at hpending
          contradiction
        · rfl
        · rw [List.getElem?_eq_none (by simp; omega)] at hfetch
          contradiction
    · rw [Function.update_of_ne hurl, h.pending]
      constructor
      · intro ⟨fetch, hfetch, hurl', hflight⟩
        exact ⟨fetch, by rw [List.getElem?_append_left (List.getElem?_eq_some_iff.mp hfetch).1, hfetch],
          hurl', hflight⟩
      · intro ⟨fetch, hfetch, hurl', hflight⟩
        rcases Nat.lt_trichotomy f s.fetches.length with hlt | rfl | hgt
        · rw [List.getElem?_append_left hlt] at hfetch
          exact ⟨fetch, hfetch, hurl', hflight⟩
        · rw [List.getElem?_concat_length] at hfetch
          obtain rfl := Option.some.inj hfetch
          exact absurd hurl'.symm hurl
        · rw [List.getElem?_eq_none (by simp; omega)] at hfetch
          contradiction
  · rcases List.mem_append.mp hg with hg | hg
    · exact h.settled g hg settlement hphase
    · obtain rfl := List.mem_singleton.mp hg
      simp at hphase

/-- A fetch settles. -/
theorem Inv.settle (h : s.Inv cfg) (hfetch : s.fetches[f]? = some fetch)
    (hflight : fetch.isInFlight = true) {result : Except String CertificateList} {downloaded : Int}
    (htimely : Settlement.Timely cfg ⟨result, downloaded, s.now⟩) :
    (s.settle f fetch result downloaded).Inv cfg := by
  refine ⟨fun url g => ?_, h.memory, h.joined, h.returned, fun g hg settlement hphase => ?_⟩
  · simp only [FetcherState.settle]
    have hself := (h.pending fetch.url f).mpr ⟨fetch, hfetch, rfl, hflight⟩
    by_cases hurl : url = fetch.url
    · subst hurl
      rw [Function.update_self]
      refine iff_of_false (by simp) ?_
      intro ⟨fetch', hfetch', hurl', hflight'⟩
      by_cases hg : f = g
      · subst hg
        rw [List.getElem?_set_self (List.getElem?_eq_some_iff.mp hfetch).1] at hfetch'
        obtain rfl := Option.some.inj hfetch'
        contradiction
      · rw [List.getElem?_set_ne hg] at hfetch'
        have hother := (h.pending fetch.url g).mpr ⟨fetch', hfetch', hurl', hflight'⟩
        exact hg (Option.some.inj (hself.symm.trans hother))
    · rw [Function.update_of_ne hurl, h.pending]
      by_cases hg : f = g
      · subst hg
        rw [hfetch, List.getElem?_set_self (List.getElem?_eq_some_iff.mp hfetch).1]
        simp [Ne.symm hurl]
      · rw [List.getElem?_set_ne hg]
  · rcases List.mem_or_eq_of_mem_set hg with hg | rfl
    · exact h.settled g hg settlement hphase
    · cases hphase
      exact htimely

/-- A list that has been downloaded is being written. -/
theorem Inv.saving (h : s.Inv cfg) (hfetch : s.fetches[f]? = some fetch)
    (hflight : fetch.isInFlight = true) {crl : CertificateList} {rawCrl : RawCrl}
    {downloaded : Int} :
    Inv cfg { s with fetches := s.fetches.set f { fetch with phase := .saving crl rawCrl downloaded } } := by
  refine ⟨fun url g => ?_, h.memory, h.joined, h.returned, fun g hg settlement hphase => ?_⟩
  · rw [h.pending]
    by_cases hg : f = g
    · subst hg
      rw [hfetch, List.getElem?_set_self (List.getElem?_eq_some_iff.mp hfetch).1]
      have hsaving : Fetch.isInFlight { fetch with phase := .saving crl rawCrl downloaded } = true :=
        rfl
      simp [hflight, hsaving]
    · rw [List.getElem?_set_ne hg]
  · rcases List.mem_or_eq_of_mem_set hg with hg | rfl
    · exact h.settled g hg settlement hphase
    · contradiction

/-! ## steps -/

/-- A call that finds something in memory is given it in time. -/
theorem Inv.timely_getCrlFromMemory (h : s.Inv cfg) {url : String} {entry : MemoryEntry}
    (hentry : (s.getCrlFromMemory url).1 = some entry) :
    Settlement.Timely cfg ⟨.ok entry.crl, entry.downloaded, s.now⟩ := by
  unfold FetcherState.getCrlFromMemory at hentry
  cases hmemory : s.memory url with
  | none => simp [hmemory] at hentry
  | some entry' =>
      simp only [hmemory] at hentry
      split_ifs at hentry with hyoung
      obtain rfl := Option.some.inj hentry
      obtain ⟨hvalid, hnext⟩ := h.memory url entry' hmemory
      intro crl hcrl
      obtain rfl := Except.ok.inj hcrl
      exact ⟨by dsimp only; omega, fun nextUpdate hmem => by
        have hexpires := hnext nextUpdate hmem
        dsimp only
        omega⟩

@[simp] theorem getCrlFromMemory_now (url : String) : (s.getCrlFromMemory url).2.now = s.now := by
  unfold FetcherState.getCrlFromMemory
  split
  · split_ifs <;> rfl
  · rfl

@[simp] theorem getCrlFromMemory_pendingFetchRequests (url : String) :
    (s.getCrlFromMemory url).2.pendingFetchRequests = s.pendingFetchRequests := by
  unfold FetcherState.getCrlFromMemory
  split
  · split_ifs <;> rfl
  · rfl

theorem Inv.getCrl (h : s.Inv cfg) (url : String) (options : CacheOptions) :
    (s.getCrl url options).Inv cfg := by
  have hduring := h.inFlight_eq url
  unfold FetcherState.getCrl
  cases hpending : s.pendingFetchRequests url with
  | some f =>
      have hcall : FetcherState.setCall
          { s with calls := s.calls ++ [⟨url, options, s.inFlight url, .stat⟩] } s.calls.length
          ⟨url, options, s.inFlight url, .stat⟩ (.awaiting f) =
            { s with calls := s.calls ++ [⟨url, options, s.inFlight url, .awaiting f⟩] } := by
        simp [FetcherState.setCall]
      simp only [hpending, hcall]
      refine h.addCall (fun g hg => ?_) (fun settlement hphase => by contradiction)
      rw [hduring, hpending] at hg
      obtain rfl := Option.some.inj hg
      rfl
  | none =>
      rw [hpending] at hduring
      set s' : FetcherState :=
        { s with calls := s.calls ++ [⟨url, options, s.inFlight url, .stat⟩] } with hs'
      have hadded : s'.Inv cfg :=
        h.addCall (by simp [hduring]) (fun settlement hphase => by contradiction)
      have hcached : ∀ entry, (s'.getCrlFromMemory url).1 = some entry →
          ((s'.getCrlFromMemory url).2.setCall s.calls.length ⟨url, options, s.inFlight url, .stat⟩
            (.returned ⟨.ok entry.crl, entry.downloaded,
              (s'.getCrlFromMemory url).2.now⟩)).Inv cfg := by
        intro entry hentry
        refine (hadded.getCrlFromMemory url).setCall hduring fun settlement hphase => ?_
        obtain rfl := CallPhase.returned.inj hphase
        simpa using hadded.timely_getCrlFromMemory hentry
      simp only [hpending]
      split_ifs with hmemory hdisk hdisk
      · cases hentry : (s'.getCrlFromMemory url).1 with
        | some entry => exact hcached entry hentry
        | none => exact hadded.getCrlFromMemory url
      · cases hentry : (s'.getCrlFromMemory url).1 with
        | some entry => exact hcached entry hentry
        | none => exact (hadded.getCrlFromMemory url).startFetch hduring (by simpa using hpending)
      · exact hadded
      · exact hadded.startFetch hduring hpending

/-- A call that has looked at the disk waits for nothing yet. -/
theorem Inv.during_eq_none (h : s.Inv cfg) (hcall : s.calls[i]? = some call)
    (hphase : ∀ f, call.phase ≠ .awaiting f) : call.during = none := by
  by_contra hduring
  obtain ⟨f, hf⟩ := Option.ne_none_iff_exists'.mp hduring
  exact hphase f (h.joined call (List.mem_of_getElem? hcall) f hf)

/-- What is found on the disk has a next update that is to come. -/
theorem lt_of_readCrl {url : String} {fails : Bool} {crl : CertificateList} {downloaded : Int}
    (hread : s.readCrl cfg url fails = some (crl, downloaded)) :
    ∃ nextUpdate, crl.nextUpdate = some nextUpdate ∧ s.now < nextUpdate := by
  unfold FetcherState.readCrl at hread
  cases hdisk : s.disk url with
  | none => simp [hdisk] at hread
  | some file =>
      simp only [hdisk] at hread
      split_ifs at hread
      cases hdecode : cfg.decode file.rawCrl with
      | error err => simp [hdecode] at hread
      | ok crl' =>
          simp only [hdecode] at hread
          cases hnext : crl'.nextUpdate with
          | none => simp [hnext] at hread
          | some nextUpdate =>
              simp only [hnext] at hread
              split_ifs at hread with hlt
              obtain ⟨rfl, -⟩ := Prod.mk.inj (Option.some.inj hread)
              exact ⟨nextUpdate, hnext, hlt⟩

theorem Inv.finishRead (h : s.Inv cfg) (hcall : s.calls[i]? = some call)
    (hphase : call.phase = .readFile) {fails : Bool} (he : s.Sound cfg (.readFile i fails)) :
    (s.finishRead cfg i call fails).Inv cfg := by
  have hduring := h.during_eq_none hcall (by simp [hphase])
  have hsound := he call hcall
  unfold FetcherState.finishRead
  cases hread : s.readCrl cfg call.url fails with
  | none =>
      rw [hread] at hsound
      exact h.startFetch hduring hsound
  | some found =>
      obtain ⟨crl, downloaded⟩ := found
      rw [hread] at hsound
      obtain ⟨hvalid, hmemory⟩ := hsound
      obtain ⟨nextUpdate, hnext, hlt⟩ := lt_of_readCrl hread
      have htimely : Settlement.Timely cfg ⟨.ok crl, downloaded, s.now⟩ := by
        intro crl' hcrl
        obtain rfl := Except.ok.inj hcrl
        refine ⟨hvalid, fun nextUpdate' hnext' => ?_⟩
        obtain rfl := Option.some.inj (hnext.symm.trans hnext')
        exact hlt.le
      dsimp only
      split_ifs with hinMemory
      · cases hset : s.setCrlInMemory cfg call.url crl downloaded with
        | none => simp [FetcherState.setCrlInMemory, hnext] at hset
        | some s' =>
            refine (h.setCrlInMemory hset (hmemory hinMemory)).setCall hduring fun _ hsettled => ?_
            obtain rfl := CallPhase.returned.inj hsettled
            exact htimely
      · refine h.setCall hduring fun _ hsettled => ?_
        obtain rfl := CallPhase.returned.inj hsettled
        exact htimely

theorem Inv.finishDownload (h : s.Inv cfg) (hfetch : s.fetches[f]? = some fetch)
    (hphase : fetch.phase = .downloading) {reply : Except String RawCrl}
    (he : s.Sound cfg (.download f reply)) : (s.finishDownload cfg f fetch reply).Inv cfg := by
  have hflight : fetch.isInFlight = true := by
    rw [Fetch.isInFlight, hphase]
  have herror : ∀ err, (s.settle f fetch (.error err) s.now).Inv cfg := fun err =>
    h.settle hfetch hflight fun crl hcrl => by contradiction
  unfold FetcherState.finishDownload
  cases reply with
  | error err => exact herror err
  | ok data =>
      cases hdecode : cfg.decode data with
      | error err => simpa only [hdecode] using herror err
      | ok crl =>
          simp only [hdecode]
          -- whether or not the list is in memory
          have hsaved : ∀ s' : FetcherState, s'.now = s.now → s'.fetches = s.fetches → s'.Inv cfg →
              (if fetch.options.onDiskCache = true then
                { s' with
                  fetches := s'.fetches.set f { fetch with phase := .saving crl data s.now } }
              else s'.settle f fetch (.ok crl) s.now).Inv cfg := by
            intro s' hnow hfetches h'
            rw [← hfetches] at hfetch
            split_ifs with hdisk
            · exact h'.saving hfetch hflight
            · refine h'.settle hfetch hflight fun crl' hcrl => ?_
              obtain rfl := Except.ok.inj hcrl
              refine ⟨by dsimp only; omega, fun nextUpdate hnext => ?_⟩
              rw [hnow]
              exact he fetch (hfetches ▸ hfetch) (by simpa using hdisk) crl hdecode nextUpdate hnext
          by_cases hmemory : fetch.options.inMemoryCache = true
          · rw [if_pos hmemory]
            cases hset : s.setCrlInMemory cfg fetch.url crl s.now with
            | none => exact herror _
            | some s' =>
                have hs' := h.setCrlInMemory hset fun nextUpdate _ => min_le_left _ _
                obtain ⟨nextUpdate, -, rfl⟩ := Option.map_eq_some_iff.mp hset
                exact hsaved _ rfl rfl hs'
          · rw [if_neg hmemory]
            exact hsaved s rfl rfl h

theorem Inv.finishSave (h : s.Inv cfg) (hfetch : s.fetches[f]? = some fetch)
    {crl : CertificateList} {rawCrl : RawCrl} {downloaded : Int}
    (hphase : fetch.phase = .saving crl rawCrl downloaded) {saved : Saved} {error : Option String}
    (he : s.Sound cfg (.save f saved error)) :
    (s.finishSave f fetch crl rawCrl downloaded saved error).Inv cfg := by
  have hflight : fetch.isInFlight = true := by
    rw [Fetch.isInFlight, hphase]
  have hdisk : ∀ disk, Inv cfg { s with disk } := fun disk =>
    ⟨h.pending, h.memory, h.joined, h.returned, h.settled⟩
  have hsettle : ∀ disk, FetcherState.Inv cfg
      (match error with
      | some err => FetcherState.settle { s with disk } f fetch (.error err) downloaded
      | none => FetcherState.settle { s with disk } f fetch (.ok crl) downloaded) := by
    intro disk
    cases error with
    | some err => exact (hdisk disk).settle hfetch hflight fun crl hcrl => by contradiction
    | none =>
        refine (hdisk disk).settle hfetch hflight fun crl' hcrl => ?_
        obtain rfl := Except.ok.inj hcrl
        exact he fetch hfetch crl rawCrl downloaded hphase
  cases saved <;> exact hsettle _

/-- What one step keeps. -/
theorem Inv.step (h : s.Inv cfg) {e : FetcherEvent} (he : s.Sound cfg e)
    (hstep : s.step cfg e = some t) : t.Inv cfg := by
  cases e with
  | getCrl url options =>
      obtain rfl := Option.some.inj hstep
      exact h.getCrl url options
  | stat i fails =>
      obtain ⟨call, hcall, hstep⟩ := Option.bind_eq_some_iff.mp hstep
      cases hphase : call.phase with
      | stat =>
          rw [hphase] at hstep
          obtain rfl := Option.some.inj hstep
          have hduring := h.during_eq_none hcall (by simp [hphase])
          split_ifs with hyoung
          · exact h.setCall hduring (fun settlement hsettled => by contradiction)
          · exact h.startFetch hduring (he call hcall (by simpa using hyoung))
      | _ => simp [hphase] at hstep
  | readFile i fails =>
      obtain ⟨call, hcall, hstep⟩ := Option.bind_eq_some_iff.mp hstep
      cases hphase : call.phase with
      | readFile =>
          rw [hphase] at hstep
          obtain rfl := Option.some.inj hstep
          exact h.finishRead hcall hphase he
      | _ => simp [hphase] at hstep
  | download f reply =>
      obtain ⟨fetch, hfetch, hstep⟩ := Option.bind_eq_some_iff.mp hstep
      cases hphase : fetch.phase with
      | downloading =>
          rw [hphase] at hstep
          obtain rfl := Option.some.inj hstep
          exact h.finishDownload hfetch hphase he
      | _ => simp [hphase] at hstep
  | save f saved error =>
      obtain ⟨fetch, hfetch, hstep⟩ := Option.bind_eq_some_iff.mp hstep
      cases hphase : fetch.phase with
      | saving crl rawCrl downloaded =>
          rw [hphase] at hstep
          obtain rfl := Option.some.inj hstep
          exact h.finishSave hfetch hphase he
      | _ => simp [hphase] at hstep
  | clearExpiredCrlFromMemoryCache =>
      obtain rfl := Option.some.inj hstep
      refine h.setMemory fun url entry hentry => ?_
      exact h.memory url entry (Option.filter_eq_some_iff.mp hentry).1
  | rm url =>
      obtain rfl := Option.some.inj hstep
      exact ⟨h.pending, h.memory, h.joined, h.returned, h.settled⟩
  | tick ms =>
      obtain rfl := Option.some.inj hstep
      exact ⟨h.pending, h.memory, h.joined, h.returned, h.settled⟩

end FetcherState

variable {cfg}

/-- **Runs**: as long as no call comes back from the disk without a list while a fetch of its url
is pending, and no list from the disk is kept in memory or given out for longer than it is valid,
nor one from the network after its next update, one fetch of a url at a time is in flight, the
calls that arrive during it are settled by it, and no list is returned too late. -/
theorem safe_of_along (cfg : FetcherConfig) (now : Int) (disk : String → Option CrlFile)
    (events : List FetcherEvent)
    (hsound : Lts.Along (FetcherState.step cfg) (FetcherState.Sound cfg)
      (FetcherState.init now disk) events) :
    Lts.Always (FetcherState.step cfg) (FetcherState.Safe cfg) (FetcherState.init now disk)
      events := by
  have hinit : (FetcherState.init now disk).Inv cfg := by
    constructor <;> simp [FetcherState.init]
  exact Lts.always_of_along (fun s hinv => hinv.safe)
    (fun s e t hinv he hstep => hinv.step he hstep) hinit hsound

/-! ## calls that look at the disk -/

/-- A list that is to be updated in two months. -/
def quarterlyList : CertificateList where
  signatureAlgorithm := "1.2.840.113549.1.1.11"
  issuer := "root"
  nextUpdate := some 5184000000
  revokedCertificates := none
  crlExtensions := none

/-- Lists are kept for a day; whatever is downloaded is the same list. -/
def dayLong : FetcherConfig where
  crlCacheValidityTime := 86400000
  decode _ := .ok quarterlyList

/-- One call fetches a list, and another one arrives while it is downloaded; a day later there is
a call that finds the file too old. -/
def quietCalls : List FetcherEvent :=
  [ .getCrl "http://crl" ⟨true, true⟩, .stat 0 true, .getCrl "http://crl" ⟨true, true⟩,
    .tick 1000, .download 0 (.ok [1]), .save 0 .new none,
    .tick 86400001, .getCrl "http://crl" ⟨true, true⟩, .stat 2 false ]

theorem safe_of_along_quiet :
    Lts.Always (FetcherState.step dayLong) (FetcherState.Safe dayLong)
      (FetcherState.init 0 fun _ => none) quietCalls := by
  apply safe_of_along
  refine ⟨trivial, fun s₁ h₁ => ⟨?_, fun s₂ h₂ => ⟨trivial, fun s₃ h₃ => ⟨trivial, fun s₄ h₄ =>
    ⟨?_, fun s₅ h₅ => ⟨?_, fun s₆ h₆ => ⟨trivial, fun s₇ h₇ => ⟨trivial, fun s₈ h₈ =>
      ⟨?_, fun _ _ => trivial⟩⟩⟩⟩⟩⟩⟩⟩⟩
  all_goals obtain rfl := Option.some.inj h₁
  · intro call hcall _
    obtain rfl := Option.some.inj hcall
    rfl
  all_goals
    obtain rfl := Option.some.inj h₂
    obtain rfl := Option.some.inj h₃
    obtain rfl := Option.some.inj h₄
  · intro fetch hfetch hdisk
    obtain rfl := Option.some.inj hfetch
    contradiction
  all_goals obtain rfl := Option.some.inj h₅
  · intro fetch hfetch crl rawCrl downloaded hphase
    obtain rfl := Option.some.inj hfetch
    obtain ⟨rfl, rfl, rfl⟩ := FetchPhase.saving.inj hphase
    refine ⟨by decide, fun nextUpdate hnext => ?_⟩
    obtain rfl := Option.some.inj hnext
    decide
  · obtain rfl := Option.some.inj h₆
    obtain rfl := Option.some.inj h₇
    obtain rfl := Option.some.inj h₈
    intro call hcall _
    obtain rfl := Option.some.inj hcall
    rfl

/-- Two calls look at the disk together, and each of them downloads the list. -/
def twoDownloads : List FetcherEvent :=
  [ .getCrl "http://crl" ⟨true, true⟩, .getCrl "http://crl" ⟨true, true⟩, .stat 0 true,
    .stat 1 true ]

/-- A list is read back from the disk by a process that starts when it is nearly a day old, and
found in memory nearly a day later. -/
def keptTwoDays : List FetcherEvent :=
  [ .getCrl "http://crl" ⟨true, true⟩, .stat 0 false, .readFile 0 false, .tick 86000000,
    .getCrl "http://crl" ⟨true, true⟩ ]

/-- A list is downloaded twice at a time, and one is returned long after it was downloaded. -/
theorem two_in_flight_and_kept_too_long :
    (∃ s, Lts.exec (FetcherState.step dayLong) (FetcherState.init 0 fun _ => none) twoDownloads =
        some s ∧ ¬ s.Safe dayLong) ∧
      ∃ s, Lts.exec (FetcherState.step dayLong)
          (FetcherState.init 86000000 fun _ => some ⟨[1], 0, 0⟩) keptTwoDays = some s ∧
        ¬ s.Safe dayLong := by
  constructor
  · refine ⟨_, rfl, fun hsafe => ?_⟩
    have hsame := hsafe.single 0 1 _ _ rfl rfl rfl rfl rfl
    contradiction
  · refine ⟨_, rfl, fun hsafe => ?_⟩
    have htimely := hsafe.returned _ (List.mem_of_getElem? (i := 1) rfl) _ rfl _ rfl
    exact absurd htimely.1 (by decide)

end CrlValidator

end SnowflakeConnector
