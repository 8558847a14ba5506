import Mathlib
import SnowflakeConnector.Ocsp.SocketUtil

/-!
# SnowflakeConnector.Ocsp.ResponseCache

`lib/agent/ocsp_response_cache.js` over the lifetimes of processes: responses that are inserted,
downloaded from the cache server, saved to the cache file and read back by the next process.

The clock of a store does not go back.  Beside the cache the store knows when the response that
is under a key was obtained from a responder, or stamped by the cache server.

* `fresh_of_along` -- the runs in which no response is found that is older than the maximum age.
-/

namespace SnowflakeConnector

namespace Ocsp

/-- What is found in an LRU cache was put there, and looking something up changes nothing of
it. -/
structure SimpleCache.Lawful {σ : Type} (lru : SimpleCache σ) : Prop where
  get_new : ∀ maxSize k, (lru.get (lru.new maxSize) k).1 = none
  get_set : ∀ cache k response k' response',
    (lru.get (lru.set cache k response) k').1 = some response' →
      k' = k ∨ (lru.get cache k').1 = some response'
  get_get : ∀ cache k k', (lru.get (lru.get cache k).2 k').1 = (lru.get cache k').1

/-- An agent with a disk; the encodings of ids and numbers are those of other packages. -/
structure Disk (σ : Type) extends Agent σ where
  entries : σ → List (Option String × Buffer)
  encodeCertID : CertID → Except String String
  decodeBase64 : String → Buffer
  bignum : String → Int

/-- An entry of the cache file, and when its response was obtained. -/
structure SavedEntry where
  certIdInBase64 : String
  currentTime : Int
  response : Buffer
  obtained : Int
  deriving DecidableEq, Repr

structure Store (σ : Type) where
  now : Int
  cache : OcspResponseCache σ
  file : Option (List SavedEntry)
  since : Option String → Int

/-- What comes of writing a file; one that is torn cannot be parsed any more. -/
inductive Writing
  | done
  | failed
  | torn
  deriving DecidableEq, Repr

inductive StoreEvent
  | tick (ms : Nat)
  | forceDownloadToFinish
  | downloadCache
  | reply (reply : ServerReply)
  | insert (cert : PeerCertificate) (response : Buffer)
  | lookUp (cert : PeerCertificate) (writing : Writing)
  | reset (writing : Writing)
  | restart (readable : Bool)

variable {σ : Type} (env : Disk σ)

/-- The id of a key, as it is in the file. -/
def decodeKey : Option String → Except String String
  | none => .error "TypeError"
  | some cacheKey =>
      match (cacheKey.toList.splitOn '#').map String.ofList with
      | nameHash :: keyHash :: rest =>
          env.encodeCertID
            { hashAlgorithm := sha1
              issuerNameHash := env.decodeBase64 nameHash
              issuerKeyHash := env.decodeBase64 keyHash
              serialNumber := (rest.head?.map env.bignum).getD 0 }
      | _ => .error "TypeError"

/-- `resetCacheStatus` with what it writes: every entry gets the current time.  A key that has no
id makes it throw. -/
def Store.resetCacheStatus (writing : Writing) (s : Store σ) : Store σ :=
  let entries := (s.cache.cache.map env.entries).getD []
  if s.cache.cacheUpdated = false then { s with cache := Ocsp.resetCacheStatus s.cache }
  else
    let cacheOutput := entries.mapM fun (k, v) =>
      (decodeKey env k).map fun certIdInBase64 => SavedEntry.mk certIdInBase64 s.now v (s.since k)
    match cacheOutput with
    | .error _ => { s with cache := { s.cache with downloadStatus := .notStart } }
    | .ok cacheOutput =>
        { s with
          cache := Ocsp.resetCacheStatus s.cache
          file :=
            match writing with
            | .done => some cacheOutput
            | .failed => s.file
            | .torn => none }

/-- The entries of a file, each with the time when its response was obtained. -/
abbrev DatedFile := List ((String × Option CacheValue) × Int)

/-- What is stored of an entry: its key, the time that it carries and the time when its response
was obtained. -/
structure Accepted where
  key : String
  cacheEntryWriteTime : Option Int
  obtained : Int
  deriving DecidableEq, Repr

/-- The entries of a file that are stored, up to one that cannot be read. -/
def accepted (now : Int) : DatedFile → List Accepted
  | [] => []
  | ((_, none), _) :: _ => []
  | ((entry, some value), obtained) :: rest =>
      match validateCacheEntry env.toAgent now entry value with
      | .error _ => accepted now rest
      | .ok (key, _) => ⟨key, value.cacheEntryWriteTime, obtained⟩ :: accepted now rest

/-- When the responses were obtained, after these have been stored. -/
def remember (since : Option String → Int) (entries : List Accepted) : Option String → Int :=
  entries.foldl (fun since a => Function.update since (some a.key) a.obtained) since

def SavedEntry.dated (e : SavedEntry) : (String × Option CacheValue) × Int :=
  ((e.certIdInBase64, some ⟨2, some e.currentTime, .ok e.response⟩), e.obtained)

/-- The cache server says when a response was obtained, or else it is when it is downloaded. -/
def datedByServer (now : Int) (file : CacheFile) : DatedFile :=
  file.map fun entry => (entry, (entry.2.bind CacheValue.cacheEntryWriteTime).getD now)

/-- The content of a reply, if it is read at all. -/
def ServerReply.content (c : OcspResponseCache σ) : ServerReply → Option CacheFile
  | .error _ => none
  | .response statusCode file =>
      if c.downloadStatus = .finished ∨ statusCode < 200 ∨ 400 ≤ statusCode then none else file

def Store.step (s : Store σ) : StoreEvent → Option (Store σ)
  | .tick ms => some { s with now := s.now + ms }
  | .forceDownloadToFinish => some { s with cache := { s.cache with downloadStatus := .finished } }
  | .downloadCache => some { s with cache := (getOcspCache env.toAgent s.cache).2 }
  | .reply reply =>
      some
        { s with
          cache := (serverReplied env.toAgent s.now reply s.cache).2
          since :=
            match reply.content s.cache with
            | none => s.since
            | some file => remember s.since (accepted env s.now (datedByServer s.now file)) }
  | .insert cert response =>
      some
        { s with
          cache :=
            if s.cache.cacheInitialized = true then s.cache.set env.toAgent cert response
            else initCache env.toAgent cert response s.cache
          since := Function.update s.since (buildCertId env.toSurroundings cert) s.now }
  | .lookUp cert writing =>
      -- a cache that is too old is saved
      if s.cache.cacheInitialized = true ∧ isCacheExpired env.toAgent s.now s.cache = true then
        some (s.resetCacheStatus env writing)
      else some { s with cache := (Ocsp.lookUp env.toAgent s.now cert s.cache).2 }
  | .reset writing => some (s.resetCacheStatus env writing)
  | .restart readable =>
      let file := if readable = true then s.file.map (List.map SavedEntry.dated) else none
      some
        { s with
          cache := OcspResponseCache.construct env.toAgent s.now (file.map (List.map Prod.fst))
          since := remember s.since (accepted env s.now (file.getD [])) }

/-- The first process, before it has a cache file. -/
def Store.initial (now : Int) : Store σ where
  now
  cache := OcspResponseCache.construct env.toAgent now none
  file := none
  since _ := now

/-- No response is found that was obtained longer ago than the maximum age. -/
def Store.Fresh (s : Store σ) : Prop :=
  ∀ cert response, (Ocsp.lookUp env.toAgent s.now cert s.cache).1 = some response →
    s.now ≤ s.since (buildCertId env.toSurroundings cert) + env.maxAge

/-- A process that starts reads back no entry that was saved later than its response was obtained;
and what is stored of a download that cannot be read to its end is not older than the cache. -/
def Store.Unaged (s : Store σ) : StoreEvent → Prop
  | .restart true =>
      ∀ a ∈ accepted env s.now ((s.file.getD []).map SavedEntry.dated),
        ∀ written ∈ a.cacheEntryWriteTime, written ≤ a.obtained
  | .reply reply =>
      ∀ file ∈ reply.content s.cache, none ∈ file.map Prod.snd →
        s.cache.cacheInitialized = true →
          ∀ a ∈ accepted env s.now (datedByServer s.now file),
            s.cache.cacheUpdateTime ≤ a.obtained
  | _ => True

/-! ## reading a file -/

variable {env} {s t : Store σ}

/-- An entry that is stored is not too old. -/
theorem le_of_validateCacheEntry {now : Int} {entry : String} {value : CacheValue}
    {r : String × Buffer} (h : validateCacheEntry env.toAgent now entry value = .ok r)
    {written : Int} (hwritten : value.cacheEntryWriteTime = some written) :
    now ≤ written + env.maxAge := by
  unfold validateCacheEntry at h
  cases hkey : encodeKey env.toSurroundings entry with
  | error message => simp [hkey] at h
  | ok k =>
      by_contra hold
      have hexpired : env.maxAge < now - written := by omega
      simp [hkey, hwritten, hexpired] at h

/-- The time of a cache is that of the oldest entry that was stored. -/
theorem setCacheEntries_time {now : Int} (hnow : env.maxAge < now) (items : DatedFile) (cache : σ)
    (time : Int) :
    (setCacheEntries env.toAgent now (items.map Prod.fst) cache time).2.1 ≤ time ∧
      ∀ a ∈ accepted env now items, ∀ written ∈ a.cacheEntryWriteTime,
        (setCacheEntries env.toAgent now (items.map Prod.fst) cache time).2.1 ≤ written := by
  induction items generalizing cache time with
  | nil => simp [setCacheEntries, accepted]
  | cons item items ih =>
      obtain ⟨⟨entry, value⟩, obtained⟩ := item
      cases value with
      | none => simp [setCacheEntries, accepted]
      | some value =>
          cases hvalid : validateCacheEntry env.toAgent now entry value with
          | error err => simpa only [List.map_cons, setCacheEntries, accepted, hvalid] using ih cache time
          | ok r =>
              obtain ⟨key, response⟩ := r
              simp only [List.map_cons, setCacheEntries, accepted, hvalid, List.forall_mem_cons]
              set time' := if value.cacheEntryWriteTime.getD time < time ∧
                value.cacheEntryWriteTime.getD time ≠ 0
                then value.cacheEntryWriteTime.getD time else time with htime'
              obtain ⟨hle, hrest⟩ := ih (env.lru.set cache (some key) response) time'
              have htime : time' ≤ time := by
                rw [htime']
                split_ifs <;> omega
              refine ⟨hle.trans htime, fun written hwritten => ?_, hrest⟩
              -- a time that is not too old is not zero
              have hyoung := le_of_validateCacheEntry hvalid hwritten
              have hwritten' : time' ≤ written := by
                rw [htime', hwritten, Option.getD_some]
                split_ifs <;> omega
              exact hle.trans hwritten'

/-- What is found after entries have been stored was there, or is one of them. -/
theorem setCacheEntries_since (hlru : env.lru.Lawful) {now bound : Int} (items : DatedFile)
    {cache : σ} {time : Int} {since : Option String → Int}
    (hcache : ∀ k response, (env.lru.get cache k).1 = some response → bound ≤ since k)
    (hitems : ∀ a ∈ accepted env now items, bound ≤ a.obtained) (k : Option String)
    (response : Buffer)
    (h : (env.lru.get (setCacheEntries env.toAgent now (items.map Prod.fst) cache time).1 k).1 =
      some response) :
    bound ≤ remember since (accepted env now items) k := by
  induction items generalizing cache time since with
  | nil => exact hcache k response h
  | cons item items ih =>
      obtain ⟨⟨entry, value⟩, obtained⟩ := item
      cases value with
      | none => exact hcache k response h
      | some value =>
          cases hvalid : validateCacheEntry env.toAgent now entry value with
          | error err =>
              simp only [List.map_cons, setCacheEntries, accepted, hvalid] at h hitems ⊢
              exact ih hcache hitems h
          | ok r =>
              obtain ⟨key, stored⟩ := r
              simp only [List.map_cons, setCacheEntries, accepted, hvalid,
                List.forall_mem_cons] at h hitems ⊢
              refine ih (fun k' response' hk' => ?_) hitems.2 h
              dsimp only
              by_cases hkey : k' = some key
              · rw [hkey, Function.update_self]
                exact hitems.1
              · rw [Function.update_of_ne hkey]
                rcases hlru.get_set _ _ _ _ _ hk' with hsame | hold
                · exact absurd hsame hkey
                · exact hcache k' response' hold

/-- The entries of a file that is read are those of its cache, dated. -/
theorem map_fst_datedByServer (now : Int) (file : CacheFile) :
    (datedByServer now file).map Prod.fst = file := by
  rw [datedByServer, List.map_map]
  exact List.map_id file

/-- The cache server says when a response was obtained. -/
theorem obtained_datedByServer {now : Int} {file : CacheFile} :
    ∀ a ∈ accepted env now (datedByServer now file),
      a.obtained = a.cacheEntryWriteTime.getD now := by
  induction file with
  | nil => simp [datedByServer, accepted]
  | cons item file ih =>
      obtain ⟨entry, value⟩ := item
      unfold datedByServer at ih ⊢
      cases value with
      | none => simp [accepted]
      | some value =>
          cases hvalid : validateCacheEntry env.toAgent now entry value with
          | error err => simpa only [List.map_cons, accepted, hvalid] using ih
          | ok r =>
              simp only [List.map_cons, accepted, hvalid, List.forall_mem_cons]
              exact ⟨rfl, ih⟩

/-- The entries of a file that was saved carry a time. -/
theorem accepted_dated {now : Int} {file : List SavedEntry} :
    ∀ a ∈ accepted env now (file.map SavedEntry.dated), a.cacheEntryWriteTime ≠ none := by
  induction file with
  | nil => simp [accepted]
  | cons e file ih =>
      rw [List.map_cons, SavedEntry.dated]
      unfold accepted
      split
      · exact ih
      · simp only [List.forall_mem_cons]
        exact ⟨Option.some_ne_none _, ih⟩

/-- A file is read to its end unless it has a value without elements. -/
theorem setCacheEntries_complete {now : Int} {file : CacheFile} {cache : σ} {time : Int} :
    (setCacheEntries env.toAgent now file cache time).2.2 = false ↔ none ∈ file.map Prod.snd := by
  induction file generalizing cache time with
  | nil => simp [setCacheEntries]
  | cons item file ih =>
      obtain ⟨entry, value⟩ := item
      cases value with
      | none => simp [setCacheEntries]
      | some value =>
          cases hvalid : validateCacheEntry env.toAgent now entry value with
          | error err => simp [setCacheEntries, hvalid, ih]
          | ok r => simp [setCacheEntries, hvalid, ih]

/-! ## what one step keeps -/

/-- The invariant: what can be found is not older than the cache. -/
structure Store.Inv (env : Disk σ) (s : Store σ) : Prop where
  past : env.maxAge < s.now
  updated : s.cache.cacheUpdateTime ≤ s.now
  since : s.cache.cacheInitialized = true → ∀ cache ∈ s.cache.cache, ∀ k response,
    (env.lru.get cache k).1 = some response → s.cache.cacheUpdateTime ≤ s.since k

theorem Store.Inv.fresh (h : s.Inv env) : s.Fresh env := by
  intro cert response hfound
  unfold Ocsp.lookUp at hfound
  split_ifs at hfound with hinit hexpired
  cases hcache : s.cache.cache with
  | none => simp [OcspResponseCache.get, hcache] at hfound
  | some cache =>
      simp only [OcspResponseCache.get, hcache] at hfound
      have hsince := h.since hinit cache hcache _ response hfound
      simp only [isCacheExpired, hinit, Bool.true_and, decide_eq_true_eq] at hexpired
      omega

/-- A step that leaves what can be found, and its time, as it is. -/
theorem Store.Inv.congr (h : s.Inv env) (hnow : s.now ≤ t.now)
    (hupdated : t.cache.cacheUpdateTime = s.cache.cacheUpdateTime)
    (hinit : t.cache.cacheInitialized = s.cache.cacheInitialized)
    (hcache : ∀ cache ∈ t.cache.cache, ∃ cache' ∈ s.cache.cache, ∀ k,
      (env.lru.get cache k).1 = (env.lru.get cache' k).1)
    (hsince : t.since = s.since) : t.Inv env where
  past := lt_of_lt_of_le h.past hnow
  updated := by
    rw [hupdated]
    exact h.updated.trans hnow
  since hinit' cache hmem k response hfound := by
    obtain ⟨cache', hmem', hsame⟩ := hcache cache hmem
    rw [hsame] at hfound
    rw [hupdated, hsince]
    exact h.since (hinit ▸ hinit') cache' hmem' k response hfound

/-- A file is read into a new cache. -/
theorem inv_updateCache (hlru : env.lru.Lawful) {now : Int} (hpast : env.maxAge < now)
    {c : OcspResponseCache σ} (hupdated : c.cacheUpdateTime ≤ now) (items : DatedFile)
    (hwhole : ∀ a ∈ accepted env now items,
      a.cacheEntryWriteTime.getD now ≤ a.obtained)
    (hbroken : none ∈ (items.map Prod.fst).map Prod.snd → c.cacheInitialized = true →
      ∀ a ∈ accepted env now items, c.cacheUpdateTime ≤ a.obtained)
    (file : Option (List SavedEntry)) (since : Option String → Int) :
    Store.Inv env ⟨now, (updateCache env.toAgent now (items.map Prod.fst) c).1, file,
      remember since (accepted env now items)⟩ := by
  set new := env.lru.new (min (items.map Prod.fst).length env.sizeLimit) with hnew
  have hempty : ∀ k response, ¬ (env.lru.get new k).1 = some response := by
    intro k response
    rw [hnew, hlru.get_new]
    simp
  obtain ⟨htime, holdest⟩ := setCacheEntries_time hpast items new now
  have hfound : ∀ bound, (∀ a ∈ accepted env now items, bound ≤ a.obtained) → ∀ k response,
      (env.lru.get (setCacheEntries env.toAgent now (items.map Prod.fst) new now).1 k).1 =
        some response → bound ≤ remember since (accepted env now items) k :=
    fun bound hitems => setCacheEntries_since hlru items
      (fun k response h => absurd h (hempty k response)) hitems
  have hcomplete : (setCacheEntries env.toAgent now (items.map Prod.fst) new now).2.2 = false ↔
      none ∈ (items.map Prod.fst).map Prod.snd := setCacheEntries_complete
  unfold updateCache
  rw [← hnew]
  rcases hread : setCacheEntries env.toAgent now (items.map Prod.fst) new now with
    ⟨cache, time, complete⟩
  rw [hread] at htime holdest hfound hcomplete
  cases complete with
  | true =>
      refine ⟨hpast, htime, fun _ cache' hcache' k response hget => ?_⟩
      obtain rfl := Option.some.inj hcache'
      refine hfound time (fun a ha => ?_) k response hget
      have hobtained := hwhole a ha
      cases hwritten : a.cacheEntryWriteTime with
      | none =>
          rw [hwritten, Option.getD_none] at hobtained
          exact htime.trans hobtained
      | some written =>
          rw [hwritten, Option.getD_some] at hobtained
          exact (holdest a ha written hwritten).trans hobtained
  | false =>
      refine ⟨hpast, hupdated, fun hinit cache' hcache' k response hget => ?_⟩
      obtain rfl := Option.some.inj hcache'
      exact hfound _ (hbroken (hcomplete.mp rfl) hinit) k response hget

/-- Saving a cache leaves what can be found in it. -/
theorem Store.Inv.resetCacheStatus (h : s.Inv env) (writing : Writing) :
    (s.resetCacheStatus env writing).Inv env := by
  have hkept : ∀ t : Store σ, t.now = s.now → t.since = s.since →
      t.cache.cacheUpdateTime = s.cache.cacheUpdateTime →
      t.cache.cacheInitialized = s.cache.cacheInitialized → t.cache.cache = s.cache.cache →
        t.Inv env := by
    intro t hnow hsince hupdated hinit hcache
    refine h.congr hnow.ge hupdated hinit (fun cache hmem => ?_) hsince
    exact ⟨cache, hcache ▸ hmem, fun k => rfl⟩
  unfold Store.resetCacheStatus
  split_ifs
  · exact hkept _ rfl rfl rfl rfl rfl
  · dsimp only
    split <;> exact hkept _ rfl rfl rfl rfl rfl

/-- A response is put into a cache; one that is not initialized is not looked at. -/
theorem Store.Inv.insert (hlru : env.lru.Lawful) (h : s.Inv env) {cert : PeerCertificate}
    {response : Buffer} (hstep : s.step env (.insert cert response) = some t) : t.Inv env := by
  obtain rfl := Option.some.inj hstep
  by_cases hinit : s.cache.cacheInitialized = true
  · simp only [hinit, if_true]
    unfold OcspResponseCache.set
    cases hcache : s.cache.cache with
    | none => exact ⟨h.past, h.updated, fun _ cache hmem => by simp [hcache] at hmem⟩
    | some cache =>
        refine ⟨h.past, h.updated, fun _ cache' hmem k response' hget => ?_⟩
        obtain rfl := Option.some.inj hmem
        dsimp only at hget ⊢
        by_cases hk : k = buildCertId env.toSurroundings cert
        · rw [hk, Function.update_self]
          exact h.updated
        · rw [Function.update_of_ne hk]
          rcases hlru.get_set _ _ _ _ _ hget with hsame | hold
          · exact absurd hsame hk
          · exact h.since hinit cache hcache k response' hold
  · simp only [hinit]
    exact ⟨h.past, h.updated, fun hinit' => absurd hinit' hinit⟩

/-- A reply that is not read. -/
theorem serverReplied_of_none {now : Int} {reply : ServerReply} {c : OcspResponseCache σ}
    (h : reply.content c = none) :
    ∃ downloadStatus, (serverReplied env.toAgent now reply c).2 = { c with downloadStatus } := by
  cases reply with
  | error err => exact ⟨.finished, rfl⟩
  | response statusCode file =>
      simp only [ServerReply.content, ite_eq_left_iff, not_or] at h
      unfold serverReplied
      dsimp only
      split_ifs with hfinished hstatus
      · exact ⟨c.downloadStatus, rfl⟩
      · exact ⟨.finished, rfl⟩
      · rw [not_or] at hstatus
        rw [h ⟨hfinished, hstatus⟩]
        exact ⟨.finished, rfl⟩

/-- A reply that is read. -/
theorem serverReplied_of_some {now : Int} {reply : ServerReply} {c : OcspResponseCache σ}
    {file : CacheFile} (h : reply.content c = some file) :
    ∃ cacheUpdated, (serverReplied env.toAgent now reply c).2 =
      { (updateCache env.toAgent now file { c with downloadStatus := .finished }).1 with
        cacheUpdated } := by
  cases reply with
  | error err => contradiction
  | response statusCode content =>
      simp only [ServerReply.content] at h
      split_ifs at h with hunread
      subst h
      rw [not_or] at hunread
      unfold serverReplied
      simp only [hunread.1, hunread.2, if_false]
      split_ifs
      · exact ⟨true, rfl⟩
      · exact ⟨_, rfl⟩

/-- The reply of the cache server is read, or changes nothing that can be found. -/
theorem Store.Inv.reply (hlru : env.lru.Lawful) (h : s.Inv env) {reply : ServerReply}
    (he : s.Unaged env (.reply reply)) (hstep : s.step env (.reply reply) = some t) :
    t.Inv env := by
  obtain rfl := Option.some.inj hstep
  cases hcontent : reply.content s.cache with
  | none =>
      obtain ⟨downloadStatus, hcache⟩ := @serverReplied_of_none _ env s.now reply s.cache hcontent
      simp only [hcache]
      exact h.congr le_rfl rfl rfl (fun cache hmem => ⟨cache, hmem, fun _ => rfl⟩) rfl
  | some file =>
      obtain ⟨cacheUpdated, hcache⟩ := @serverReplied_of_some _ env s.now reply s.cache _ hcontent
      simp only [hcache]
      have hread := inv_updateCache hlru h.past
        (c := { s.cache with downloadStatus := .finished }) h.updated (datedByServer s.now file)
        (fun a ha => (obtained_datedByServer a ha).ge)
        (by
          rw [map_fst_datedByServer]
          exact he file hcontent)
        s.file s.since
      rw [map_fst_datedByServer] at hread
      exact hread.congr le_rfl rfl rfl (fun cache hmem => ⟨cache, hmem, fun _ => rfl⟩) rfl

/-- What one step keeps. -/
theorem Store.Inv.step (hlru : env.lru.Lawful) (h : s.Inv env) {e : StoreEvent}
    (he : s.Unaged env e) (hstep : s.step env e = some t) : t.Inv env := by
  cases e with
  | tick ms =>
      obtain rfl := Option.some.inj hstep
      exact h.congr (by dsimp only; omega) rfl rfl (fun cache hmem => ⟨cache, hmem, fun _ => rfl⟩) rfl
  | forceDownloadToFinish =>
      obtain rfl := Option.some.inj hstep
      exact h.congr le_rfl rfl rfl (fun cache hmem => ⟨cache, hmem, fun _ => rfl⟩) rfl
  | downloadCache =>
      obtain rfl := Option.some.inj hstep
      unfold getOcspCache
      cases s.cache.downloadStatus with
      | notStart =>
          cases env.contactCacheServer <;>
            exact h.congr le_rfl rfl rfl (fun cache hmem => ⟨cache, hmem, fun _ => rfl⟩) rfl
      | _ => exact h
  | reply reply => exact h.reply hlru he hstep
  | insert cert response => exact h.insert hlru hstep
  | lookUp cert writing =>
      simp only [Store.step] at hstep
      split_ifs at hstep with hexpired
      · obtain rfl := Option.some.inj hstep
        exact h.resetCacheStatus writing
      · obtain rfl := Option.some.inj hstep
        rw [not_and] at hexpired
        unfold Ocsp.lookUp
        by_cases hinit : s.cache.cacheInitialized = true
        · rw [if_pos hinit, if_neg (hexpired hinit), OcspResponseCache.get]
          cases hcache : s.cache.cache with
          | none => exact h
          | some cache =>
              refine h.congr le_rfl rfl rfl (fun cache' hmem => ⟨cache, hcache, fun k => ?_⟩) rfl
              obtain rfl := Option.some.inj hmem
              exact hlru.get_get _ _ _
        · rw [if_neg hinit]
          exact h
  | reset writing =>
      obtain rfl := Option.some.inj hstep
      exact h.resetCacheStatus writing
  | restart readable =>
      obtain rfl := Option.some.inj hstep
      have hnone : Store.Inv env ⟨s.now, OcspResponseCache.construct env.toAgent s.now none, s.file,
          s.since⟩ := ⟨h.past, le_rfl, fun hinit => by simp [OcspResponseCache.construct] at hinit⟩
      cases readable with
      | false => exact hnone
      | true =>
          cases hfile : s.file with
          | none =>
              simp only [hfile] at hnone ⊢
              exact hnone
          | some file =>
              simp only [Store.Unaged, hfile, Option.getD_some] at he
              refine inv_updateCache hlru h.past le_rfl (file.map SavedEntry.dated)
                (fun a ha => ?_) (fun _ hinit => ?_) _ s.since
              · obtain ⟨written, hwritten⟩ := Option.ne_none_iff_exists'.mp (accepted_dated a ha)
                rw [hwritten, Option.getD_some]
                exact he a ha written hwritten
              · contradiction

/-- **Runs**: as long as no process reads back an entry that was saved later than its response was
obtained, and no download that cannot be read to its end leaves responses that are older than the
cache, no response is found that is older than the maximum age. -/
theorem fresh_of_along (hlru : env.lru.Lawful) (now : Int) (hnow : env.maxAge < now)
    (events : List StoreEvent)
    (hunaged : Lts.Along (Store.step env) (Store.Unaged env) (Store.initial env now) events) :
    Lts.Always (Store.step env) (Store.Fresh env) (Store.initial env now) events := by
  have hinitial : (Store.initial env now).Inv env :=
    ⟨hnow, le_rfl, fun hinit => by simp [Store.initial, OcspResponseCache.construct] at hinit⟩
  exact Lts.always_of_along (fun s hinv => hinv.fresh)
    (fun s e t hinv he hstep => hinv.step hlru he hstep) hinitial hunaged

/-! ## a saved response -/

/-- The cache of `exampleAgent`, on a disk where an id is its serial number. -/
def exampleDisk : Disk (List (Option String × Buffer)) where
  toAgent := { exampleAgent with decodeCertID := fun _ => .ok ⟨sha1, [0], [0], 2⟩ }
  entries cache := cache.filter fun entry => cache.lookup entry.1 = some entry.2
  encodeCertID certID := .ok (toString certID.serialNumber)
  decodeBase64 text := text.toList.map fun c => UInt8.ofNat c.toNat
  bignum text := text.toInt?.getD 0

theorem lawful_exampleDisk : exampleDisk.lru.Lawful where
  get_new maxSize k := rfl
  get_set cache k response k' response' h := by
    by_cases hk : k' = k
    · exact Or.inl hk
    · have hne : (k' == k) = false := by simpa using hk
      refine Or.inr ?_
      simpa [exampleDisk, exampleAgent, List.lookup_cons, hne] using h
  get_get cache k k' := rfl

/-- A response is inserted and saved, and later read back and looked up. -/
def savedResponse (wait : Nat) : List StoreEvent :=
  [ .insert ⟨[2], [0]⟩ [9], .tick wait, .reset .done, .restart true, .tick wait,
    .lookUp ⟨[2], [0]⟩ .done ]

/-- What is saved at once can be read back. -/
theorem fresh_of_along_savedResponse :
    Lts.Always (Store.step exampleDisk) (Store.Fresh exampleDisk)
      (Store.initial exampleDisk 1800000100000) (savedResponse 0) := by
  refine fresh_of_along lawful_exampleDisk 1800000100000 (by decide) (savedResponse 0) ?_
  refine ⟨trivial, fun s hs => ⟨trivial, fun t ht => ⟨trivial, fun u hu => ⟨?_, ?_⟩⟩⟩⟩
  · obtain rfl := Option.some.inj hs
    obtain rfl := Option.some.inj ht
    obtain rfl := Option.some.inj hu
    intro a ha written hwritten
    have hstored : a ∈ [Accepted.mk "AA==#AA==#2" (some 1800000100000) 1800000100000] := ha
    obtain rfl := List.mem_singleton.mp hstored
    obtain rfl := Option.some.inj hwritten
    exact le_rfl
  · exact fun _ _ => ⟨trivial, fun _ _ => ⟨trivial, fun _ _ => trivial⟩⟩

/-- Two periods of twenty hours make a response older than a day. -/
theorem aged_response_found :
    ∃ s, Lts.exec (Store.step exampleDisk) (Store.initial exampleDisk 1800000100000)
        (savedResponse 72000000) = some s ∧ ¬ s.Fresh exampleDisk := by
  refine ⟨_, rfl, fun hfresh => ?_⟩
  have hage := hfresh ⟨[2], [0]⟩ [9] (by decide)
  revert hage
  decide

end Ocsp

end SnowflakeConnector
