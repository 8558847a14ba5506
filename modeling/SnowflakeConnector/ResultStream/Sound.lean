import SnowflakeConnector.Result.Overlap
import SnowflakeConnector.ResultStream

/-!
# SnowflakeConnector.ResultStream.Sound

What the readers of a result rely on, chunk by chunk:

* `Chunk.Shaped` -- its bounds, and a load under way has one end to come;
* `Chunk.Sound` -- besides, what it has cached stands for its block of the result;
* `Chunk.Kept` -- a completion handed to `process.nextTick` will find it loaded.

The readers keep all three, with one exception: `clearRows` keeps a chunk `Kept`
only while no completion is scheduled.
-/

namespace SnowflakeConnector

variable {ι ρ : Type*}

namespace Chunk

/-- The chunk reaches from `start` to `stop`. -/
structure Shaped (start stop : Int) (c : Chunk ι ρ) : Prop where
  startIndex : c.startIndex = start
  endIndex : c.endIndex = stop
  balanced : c.Balanced

/-- The chunk reaches from `start` to `stop` and describes `content`. -/
structure Sound (parse : String → Option (List ρ)) (start stop : Int) (content : List ρ)
    (c : Chunk ι ρ) : Prop extends Shaped start stop c where
  faithful : c.Faithful parse content

/-- A scheduled completion finds the chunk loaded. -/
def Kept (c : Chunk ι ρ) : Prop := 0 < c.scheduled → c.isLoaded = true

section

variable {parse : String → Option (List ρ)} {start stop : Int} {content : List ρ} {c : Chunk ι ρ}

@[simp] theorem load_isLoaded (c : Chunk ι ρ) : c.load.isLoaded = c.isLoaded := by
  simp [isLoaded]

@[simp] theorem loadUnlessLoading_isLoaded (c : Chunk ι ρ) :
    c.loadUnlessLoading.isLoaded = c.isLoaded := by
  simp [isLoaded]

/-! ### subscribing and loading -/

theorem Shaped.on (h : c.Shaped start stop) (listener : ι) : (c.on listener).Shaped start stop :=
  ⟨h.startIndex, h.endIndex, h.balanced⟩

theorem Sound.on (h : c.Sound parse start stop content) (listener : ι) :
    (c.on listener).Sound parse start stop content :=
  ⟨h.toShaped.on listener, ⟨h.faithful.text, h.faithful.rowset, h.faithful.rows⟩⟩

theorem Shaped.removeListener [DecidableEq ι] (h : c.Shaped start stop) (listener : ι) :
    (c.removeListener listener).Shaped start stop :=
  ⟨h.startIndex, h.endIndex, h.balanced⟩

theorem Sound.removeListener [DecidableEq ι] (h : c.Sound parse start stop content) (listener : ι) :
    (c.removeListener listener).Sound parse start stop content :=
  ⟨h.toShaped.removeListener listener, ⟨h.faithful.text, h.faithful.rowset, h.faithful.rows⟩⟩

theorem Shaped.loadUnlessLoading (h : c.Shaped start stop) : c.loadUnlessLoading.Shaped start stop :=
  ⟨by simpa using h.startIndex, by simpa using h.endIndex, h.balanced.loadUnlessLoading⟩

theorem Sound.loadUnlessLoading (h : c.Sound parse start stop content) :
    c.loadUnlessLoading.Sound parse start stop content :=
  ⟨h.toShaped.loadUnlessLoading, ⟨by simpa using h.faithful.text, by simpa using h.faithful.rowset,
    by simpa using h.faithful.rows⟩⟩

/-- A completion is scheduled only when the chunk is loaded. -/
theorem Kept.loadUnlessLoading (h : c.Kept) : c.loadUnlessLoading.Kept := by
  rw [Kept, loadUnlessLoading_isLoaded]
  unfold Chunk.loadUnlessLoading
  split
  · exact h
  · unfold load
    split
    · next hl => exact fun _ => hl
    · exact h

/-! ### the end of a load -/

theorem Shaped.untick (h : c.Shaped start stop) (hs : 0 < c.scheduled) :
    c.untick.doneLoading.Shaped start stop :=
  ⟨h.startIndex, h.endIndex, (ends_untick h.balanced hs).2⟩

theorem Sound.untick (h : c.Sound parse start stop content) (hs : 0 < c.scheduled) :
    c.untick.doneLoading.Sound parse start stop content :=
  ⟨h.toShaped.untick hs, ⟨h.faithful.text, h.faithful.rowset, h.faithful.rows⟩⟩

theorem Kept.untick (h : c.Kept) (hs : 0 < c.scheduled) : c.untick.doneLoading.Kept :=
  fun _ => h hs

theorem Shaped.store (h : c.Shaped start stop) (hr : 0 < c.requested) (answer : Answer) :
    (c.store answer).doneLoading.Shaped start stop := by
  have hbalanced := (ends_store h.balanced hr answer).2
  cases answer <;> exact ⟨h.startIndex, h.endIndex, hbalanced⟩

/-- The answer to a request, with a body that stands for the contents. -/
theorem Sound.store (h : c.Sound parse start stop content) (hr : 0 < c.requested) {answer : Answer}
    (hbody : ∀ body, answer = .ok body → ∃ text, body = some text ∧ parse text = some content) :
    (c.store answer).doneLoading.Sound parse start stop content := by
  have hshaped := h.toShaped.store hr answer
  cases answer with
  | error e => exact ⟨hshaped, ⟨h.faithful.text, h.faithful.rowset, h.faithful.rows⟩⟩
  | ok body =>
      obtain ⟨text, rfl, hparse⟩ := hbody body rfl
      have htext : ∀ t ∈ some text, parse t = some content := by
        simpa using hparse
      exact ⟨hshaped, ⟨htext, h.faithful.rowset, h.faithful.rows⟩⟩

/-- A chunk that was requested has no completion scheduled. -/
theorem Balanced.kept_store (h : c.Balanced) (hr : 0 < c.requested) (answer : Answer) :
    (c.store answer).doneLoading.Kept := by
  have hnone : ¬ 0 < (c.store answer).doneLoading.scheduled := by
    unfold Balanced at h
    cases answer <;> simp only [Chunk.store, doneLoading] <;> split at h <;> omega
  exact fun hs => absurd hs hnone

theorem Converted.loadUnlessLoading (h : c.Converted) : c.loadUnlessLoading.Converted := by
  unfold Converted at h ⊢
  simpa using h

theorem Converted.clearRows (h : c.Converted) (force : Bool) : (c.clearRows force).Converted := by
  unfold Chunk.clearRows
  split
  · simp [Converted]
  · exact h

theorem Converted.store (h : c.Converted) (answer : Answer) : (c.store answer).Converted := by
  cases answer <;> exact h

/-- A text that is not empty makes the chunk loaded. -/
theorem isLoaded_store {text : String} (c : Chunk ι ρ) (h : text ≠ "") :
    (c.store (.ok (some text))).doneLoading.isLoaded = true := by
  simp [Chunk.store, doneLoading, isLoaded, isNotNullOrEmpty, h]

/-! ### rows and urls -/

theorem Shaped.of_sameLoad {d : Chunk ι ρ} (h : c.Shaped start stop) (hsame : c.SameLoad d) :
    d.Shaped start stop := by
  have hbalanced : d.Balanced := by
    unfold Balanced
    rw [hsame.scheduled, hsame.requested, hsame.isLoading]
    exact h.balanced
  exact ⟨hsame.startIndex.trans h.startIndex, hsame.endIndex.trans h.endIndex, hbalanced⟩

/-- The rows of a loaded chunk can be had. -/
theorem Sound.getRows (h : c.Sound parse start stop content) (hl : c.isLoaded = true) :
    ∃ c', c.getRows parse = .ok (c', some (convertRowsetToRows start content)) ∧
      c.SameLoad c' ∧ c'.Sound parse start stop content ∧ c'.isLoaded = true := by
  obtain ⟨c', hrows, hsame, hfaithful, hcached⟩ := getRows_of_isLoaded h.faithful hl
  rw [h.startIndex] at hrows
  exact ⟨c', hrows, hsame, ⟨h.toShaped.of_sameLoad hsame, hfaithful⟩, by simp [isLoaded, hcached]⟩

theorem Shaped.setUrl (h : c.Shaped start stop) (url : Option String) :
    (c.setUrl url).Shaped start stop :=
  ⟨h.startIndex, h.endIndex, h.balanced⟩

theorem Sound.setUrl (h : c.Sound parse start stop content) (url : Option String) :
    (c.setUrl url).Sound parse start stop content :=
  ⟨h.toShaped.setUrl url, ⟨h.faithful.text, h.faithful.rowset, h.faithful.rows⟩⟩

theorem sameLoad_clearRows (c : Chunk ι ρ) (force : Bool) : c.SameLoad (c.clearRows force) := by
  unfold Chunk.clearRows
  split <;> exact ⟨rfl, rfl, rfl, rfl, rfl, rfl, rfl⟩

theorem Sound.clearRows (h : c.Sound parse start stop content) (force : Bool) :
    (c.clearRows force).Sound parse start stop content := by
  have hshaped := h.toShaped.of_sameLoad (sameLoad_clearRows c force)
  unfold Chunk.clearRows at hshaped ⊢
  split
  · next hc => exact ⟨by simpa [hc] using hshaped, faithful_of_empty rfl rfl rfl⟩
  · exact h

/-- Only a loaded chunk has rows. -/
theorem isLoaded_of_getRows {d : Chunk ι ρ} {rows : List (Row ρ)}
    (h : c.getRows parse = .ok (d, some rows)) : c.isLoaded = true := by
  by_contra hl
  have hnot : isNotNullOrEmpty c.rowsetAsString = false ∧ c.rowset = none ∧ c.rows = none := by
    simpa [isLoaded, and_assoc] using hl
  obtain ⟨htext, hrowset, hrows⟩ := hnot
  have hparse : c.parseRowset parse = .ok c := by
    unfold parseRowset
    cases ht : c.rowsetAsString with
    | none => rfl
    | some text =>
        have hempty : text = "" := by simpa [isNotNullOrEmpty, ht] using htext
        simp [hempty]
  simp [Chunk.getRows, hrows, hparse, convertRowset, hrowset] at h

/-- Reading the rows keeps a chunk sound, and loaded. -/
theorem Sound.of_getRows {d : Chunk ι ρ} {rows : List (Row ρ)}
    (h : c.Sound parse start stop content) (hrows : c.getRows parse = .ok (d, some rows)) :
    d.Sound parse start stop content ∧ d.isLoaded = true ∧
      rows = convertRowsetToRows start content := by
  obtain ⟨c', hc', -, hsound, hloaded⟩ := h.getRows (isLoaded_of_getRows hrows)
  rw [hc'] at hrows
  cases hrows
  exact ⟨hsound, hloaded, rfl⟩

/-- Rows can be freed while no completion is scheduled. -/
theorem kept_clearRows (hs : c.scheduled = 0) (force : Bool) : (c.clearRows force).Kept := by
  intro hpos
  rw [(sameLoad_clearRows c force).scheduled, hs] at hpos
  exact absurd hpos (lt_irrefl 0)

end

end Chunk

namespace Chunks

open Result

/-- Within the result, the chunk is sound for its block. -/
def SoundAt (parse : String → Option (List ρ)) (blocks : List (List ρ)) (i : Nat)
    (c : Chunk ι ρ) : Prop :=
  i < blocks.length → c.Sound parse (offset blocks i) (offset blocks (i + 1) - 1) (blocks.getD i [])

/-- The chunks of a result are sound for its blocks. -/
def Sound (parse : String → Option (List ρ)) (blocks : List (List ρ)) (cs : Chunks ι ρ) : Prop :=
  ∀ i, SoundAt parse blocks i (cs.chunk i)

/-- The chunks of a result are kept. -/
def Kept (n : Nat) (cs : Chunks ι ρ) : Prop := ∀ i, i < n → (cs.chunk i).Kept

section

variable {parse : String → Option (List ρ)} {blocks : List (List ρ)} {cs : Chunks ι ρ}

theorem fits_of_shaped (h : ∀ i, i < blocks.length →
    (cs.chunk i).Shaped (offset blocks i) (offset blocks (i + 1) - 1)) : Fits blocks cs.chunk :=
  ⟨fun i hi => (h i hi).startIndex, fun i hi => (h i hi).endIndex⟩

theorem Sound.fits (h : cs.Sound parse blocks) : Fits blocks cs.chunk :=
  fits_of_shaped fun i hi => (h i hi).toShaped

/-- To keep a property of all chunks is to keep it of the changed one. -/
theorem update_of {P : Nat → Chunk ι ρ → Prop} (h : ∀ j, P j (cs.chunk j)) {i : Nat}
    {f : Chunk ι ρ → Chunk ι ρ} (hf : P i (f (cs.chunk i))) (j : Nat) :
    P j ((cs.update i f).chunk j) := by
  rw [update_chunk]
  split
  · next hji =>
      subst hji
      exact hf
  · exact h j

theorem Sound.update (h : cs.Sound parse blocks) {i : Nat} {f : Chunk ι ρ → Chunk ι ρ}
    (hf : SoundAt parse blocks i (f (cs.chunk i))) : (cs.update i f).Sound parse blocks :=
  update_of (P := SoundAt parse blocks) h hf

theorem Kept.update {n : Nat} (h : cs.Kept n) {i : Nat} {f : Chunk ι ρ → Chunk ι ρ}
    (hf : i < n → (f (cs.chunk i)).Kept) : (cs.update i f).Kept n :=
  update_of (P := fun j c => j < n → c.Kept) h hf

/-- A refresh keeps what `setUrl` keeps. -/
theorem refresh_of {P : Nat → Chunk ι ρ → Prop} (h : ∀ j, P j (cs.chunk j))
    (hurl : ∀ j c url, P j c → P j (c.setUrl url)) (n : Nat) (chunkCfgs : Option (List (ChunkCfg ρ)))
    (j : Nat) : P j ((cs.refresh n chunkCfgs).1.chunk j) := by
  obtain ⟨url, hset⟩ := refresh_chunk cs n chunkCfgs j
  rw [hset]
  exact hurl j _ url (h j)

theorem Sound.refresh (h : cs.Sound parse blocks) (n : Nat)
    (chunkCfgs : Option (List (ChunkCfg ρ))) : (cs.refresh n chunkCfgs).1.Sound parse blocks :=
  refresh_of (P := SoundAt parse blocks) h (fun _ _ url hj hlt => (hj hlt).setUrl url) n chunkCfgs

theorem Kept.refresh {n : Nat} (h : cs.Kept n) (m : Nat) (chunkCfgs : Option (List (ChunkCfg ρ))) :
    (cs.refresh m chunkCfgs).1.Kept n :=
  refresh_of (P := fun j c => j < n → c.Kept) h (fun _ _ _ hj => hj) m chunkCfgs

end

end Chunks

namespace Chunks

/-- A property of chunks, by their position, that the readers keep; `Alone` says that
they free rows only while no completion is scheduled. -/
structure Stable [DecidableEq ι] (parse : String → Option (List ρ)) (blocks : List (List ρ))
    (Alone : Prop) (P : Nat → Chunk ι ρ → Prop) : Prop where
  shaped : ∀ j c, P j c → j < blocks.length →
    c.Shaped (Result.offset blocks j) (Result.offset blocks (j + 1) - 1)
  on : ∀ j c listener, P j c → P j (c.on listener)
  removeListener : ∀ j c listener, P j c → P j (c.removeListener listener)
  loadUnlessLoading : ∀ j c, P j c → P j c.loadUnlessLoading
  getRows : ∀ j c d rows, P j c → c.getRows parse = .ok (d, some rows) → P j d
  clearRows : ∀ j c, P j c → (Alone → j < blocks.length → c.scheduled = 0) → P j (c.clearRows false)
  setUrl : ∀ j c url, P j c → P j (c.setUrl url)

section

variable [DecidableEq ι] (parse : String → Option (List ρ)) (blocks : List (List ρ))

/-- Bounds are stable, with rows converted from a rowset. -/
theorem stable_converted : Stable parse blocks False fun j (c : Chunk ι ρ) => c.Converted ∧
    (j < blocks.length → c.Shaped (Result.offset blocks j) (Result.offset blocks (j + 1) - 1)) where
  shaped _ _ h := h.2
  on _ _ listener h := ⟨h.1, fun hj => (h.2 hj).on listener⟩
  removeListener _ _ listener h := ⟨h.1, fun hj => (h.2 hj).removeListener listener⟩
  loadUnlessLoading _ _ h := ⟨h.1.loadUnlessLoading, fun hj => (h.2 hj).loadUnlessLoading⟩
  getRows _ _ _ _ h hrows := ⟨h.1.getRows hrows,
    fun hj => (h.2 hj).of_sameLoad (Chunk.getRows_spec hrows).1⟩
  clearRows _ c h _ := ⟨h.1.clearRows false,
    fun hj => (h.2 hj).of_sameLoad (Chunk.sameLoad_clearRows c false)⟩
  setUrl _ _ url h := ⟨h.1, fun hj => (h.2 hj).setUrl url⟩

/-- So is soundness, -/
theorem stable_sound : Stable parse blocks False (@SoundAt ι ρ parse blocks) where
  shaped _ _ h hj := (h hj).toShaped
  on _ _ listener h hj := (h hj).on listener
  removeListener _ _ listener h hj := (h hj).removeListener listener
  loadUnlessLoading _ _ h hj := (h hj).loadUnlessLoading
  getRows _ _ _ _ h hrows hj := ((h hj).of_getRows hrows).1
  clearRows _ _ h _ hj := (h hj).clearRows false
  setUrl _ _ url h hj := (h hj).setUrl url

/-- and that scheduled completions find the chunk loaded, for a reader on its own. -/
theorem stable_kept : Stable parse blocks True fun j (c : Chunk ι ρ) =>
    SoundAt parse blocks j c ∧ (j < blocks.length → c.Kept) where
  shaped _ _ h hj := (h.1 hj).toShaped
  on _ _ listener h := ⟨fun hj => (h.1 hj).on listener, h.2⟩
  removeListener _ _ listener h := ⟨fun hj => (h.1 hj).removeListener listener, h.2⟩
  loadUnlessLoading _ _ h := ⟨fun hj => (h.1 hj).loadUnlessLoading, fun hj => (h.2 hj).loadUnlessLoading⟩
  getRows _ _ _ _ h hrows := ⟨fun hj => ((h.1 hj).of_getRows hrows).1,
    fun hj _ => ((h.1 hj).of_getRows hrows).2.1⟩
  clearRows _ _ h hfree := ⟨fun hj => (h.1 hj).clearRows false,
    fun hj => Chunk.kept_clearRows (hfree trivial hj) false⟩
  setUrl _ _ url h := ⟨fun hj => (h.1 hj).setUrl url, h.2⟩

end

end Chunks

namespace ResultStream

variable {parse : String → Option (List ρ)} {blocks : List (List ρ)} {cs cs' : Chunks ι ρ}
  {rs : ResultStream} {c : Nat} {self : ι}

/-- A read keeps what subscribing and loading keep. -/
theorem doLoad_of {P : Nat → Chunk ι ρ → Prop} (h : ∀ j, P j (cs.chunk j))
    (hon : ∀ j c, P j c → P j (c.on self)) (hload : ∀ j c, P j c → P j c.loadUnlessLoading)
    (hdo : rs.doLoad self cs = some cs') (j : Nat) : P j (cs'.chunk j) := by
  cases hc : rs.chunks[rs.currChunk]? with
  | none => simp [doLoad, hc] at hdo
  | some c =>
      have hd : P j (if j = c then (cs.chunk j).on self else cs.chunk j) := by
        split
        · exact hon j _ (h j)
        · exact h j
      rw [doLoad_chunk hc hdo]
      simp only
      split
      · exact hload j _ hd
      · exact hd

theorem sound_doLoad (h : cs.Sound parse blocks) (hdo : rs.doLoad self cs = some cs') :
    cs'.Sound parse blocks :=
  doLoad_of (P := Chunks.SoundAt parse blocks) h (fun _ _ hj hlt => (hj hlt).on self)
    (fun _ _ hj hlt => (hj hlt).loadUnlessLoading) hdo

theorem kept_doLoad {n : Nat} (h : cs.Kept n) (hdo : rs.doLoad self cs = some cs') : cs'.Kept n :=
  doLoad_of (P := fun j c => j < n → c.Kept) h (fun _ _ hj => hj)
    (fun _ _ hj hlt => (hj hlt).loadUnlessLoading) hdo

/-- A read subscribes to the chunk at the cursor. -/
theorem doLoad_listeners (hc : rs.chunks[rs.currChunk]? = some c) (hdo : rs.doLoad self cs = some cs')
    (j : Nat) : (cs'.chunk j).listeners =
      if j = c then (cs.chunk j).listeners ++ [self] else (cs.chunk j).listeners := by
  have hd : (if j = c then (cs.chunk j).on self else cs.chunk j).listeners =
      if j = c then (cs.chunk j).listeners ++ [self] else (cs.chunk j).listeners := by
    split <;> rfl
  rw [doLoad_chunk hc hdo]
  simp only
  split
  · rw [Chunk.loadUnlessLoading_listeners, hd]
  · exact hd

/-- The chunk at the cursor is loading after a read. -/
theorem doLoad_isLoading (hc : rs.chunks[rs.currChunk]? = some c)
    (hdo : rs.doLoad self cs = some cs') : (cs'.chunk c).isLoading = true := by
  rw [doLoad_chunk hc hdo]
  simp [mem_window hc]

/-- A chunk that is not ahead of the cursor is left alone. -/
theorem doLoad_chunk_of_not_mem (hdo : rs.doLoad self cs = some cs') {j : Nat}
    (hj : j ∉ rs.chunks.drop rs.currChunk) : cs'.chunk j = cs.chunk j := by
  have hwindow : j ∉ rs.window := fun hmem => hj (List.mem_of_mem_take hmem)
  cases hc : rs.chunks[rs.currChunk]? with
  | none => simp [doLoad, hc] at hdo
  | some c =>
      have hjc : j ≠ c := by
        rintro rfl
        exact hwindow (mem_window hc)
      rw [doLoad_chunk hc hdo]
      simp [hwindow, hjc]

/-- With a chunk at the cursor a read goes ahead. -/
theorem exists_doLoad (self : ι) (cs : Chunks ι ρ) (hc : rs.chunks[rs.currChunk]? = some c) :
    ∃ cs', rs.doLoad self cs = some cs' := by
  simp [doLoad, hc]

end ResultStream

end SnowflakeConnector
