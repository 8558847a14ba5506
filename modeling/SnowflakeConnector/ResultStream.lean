import SnowflakeConnector.Result

/-!
# SnowflakeConnector.ResultStream

`lib/connection/result/result_stream.js` over the chunks of a result, which every
reader of the result shares.

The chunks are objects with state, so they live in a store and the streams name
them by their position in the result.  Whoever subscribes to a chunk's
`loadcomplete` event does so under its own name, an element of `ι`.
-/

namespace SnowflakeConnector

variable {ι ρ : Type*}

namespace Chunk

/-- `if (!chunk.isLoading()) { chunk.load(); }`. -/
def loadUnlessLoading (c : Chunk ι ρ) : Chunk ι ρ := if c.isLoading then c else c.load

/-- A chunk that is loading has one completion to come, any other has none. -/
def Balanced (c : Chunk ι ρ) : Prop := c.scheduled + c.requested = if c.isLoading then 1 else 0

section

variable (c : Chunk ι ρ)

@[simp] theorem load_startIndex : c.load.startIndex = c.startIndex := by unfold load; split <;> rfl
@[simp] theorem load_endIndex : c.load.endIndex = c.endIndex := by unfold load; split <;> rfl
@[simp] theorem load_url : c.load.url = c.url := by unfold load; split <;> rfl
@[simp] theorem load_rows : c.load.rows = c.rows := by unfold load; split <;> rfl
@[simp] theorem load_rowset : c.load.rowset = c.rowset := by unfold load; split <;> rfl
@[simp] theorem load_rowsetAsString : c.load.rowsetAsString = c.rowsetAsString := by
  unfold load; split <;> rfl
@[simp] theorem load_listeners : c.load.listeners = c.listeners := by unfold load; split <;> rfl
@[simp] theorem load_isLoading : c.load.isLoading = true := by unfold load; split <;> rfl

@[simp] theorem loadUnlessLoading_startIndex : c.loadUnlessLoading.startIndex = c.startIndex := by
  unfold loadUnlessLoading; split <;> simp
@[simp] theorem loadUnlessLoading_endIndex : c.loadUnlessLoading.endIndex = c.endIndex := by
  unfold loadUnlessLoading; split <;> simp
@[simp] theorem loadUnlessLoading_url : c.loadUnlessLoading.url = c.url := by
  unfold loadUnlessLoading; split <;> simp
@[simp] theorem loadUnlessLoading_rows : c.loadUnlessLoading.rows = c.rows := by
  unfold loadUnlessLoading; split <;> simp
@[simp] theorem loadUnlessLoading_rowset : c.loadUnlessLoading.rowset = c.rowset := by
  unfold loadUnlessLoading; split <;> simp
@[simp] theorem loadUnlessLoading_rowsetAsString :
    c.loadUnlessLoading.rowsetAsString = c.rowsetAsString := by
  unfold loadUnlessLoading; split <;> simp
@[simp] theorem loadUnlessLoading_listeners : c.loadUnlessLoading.listeners = c.listeners := by
  unfold loadUnlessLoading; split <;> simp
@[simp] theorem loadUnlessLoading_isLoading : c.loadUnlessLoading.isLoading = true := by
  unfold loadUnlessLoading; split <;> simp_all

/-- Asking twice is asking once. -/
theorem loadUnlessLoading_idem :
    c.loadUnlessLoading.loadUnlessLoading = c.loadUnlessLoading := by
  have h := loadUnlessLoading_isLoading c
  unfold loadUnlessLoading at h ⊢
  rw [if_pos h]

variable {c}

/-- `f` keeps the listeners of a chunk and takes away its one completion. -/
def Ends (f : Chunk ι ρ → Chunk ι ρ) (c : Chunk ι ρ) : Prop :=
  (f c).listeners = c.listeners ∧ (f c).doneLoading.Balanced

theorem ends_untick (hb : c.Balanced) (hs : 0 < c.scheduled) : Ends untick c := by
  refine ⟨rfl, ?_⟩
  unfold Balanced at *
  simp only [untick, doneLoading]
  split at hb <;> simp <;> omega

theorem ends_store (hb : c.Balanced) (hr : 0 < c.requested) (answer : Answer) :
    Ends (store answer) c := by
  unfold Ends Balanced at *
  cases answer <;> refine ⟨rfl, ?_⟩ <;> simp only [store, doneLoading] <;>
    split at hb <;> simp <;> omega

theorem Balanced.loadUnlessLoading (h : c.Balanced) : c.loadUnlessLoading.Balanced := by
  unfold Chunk.loadUnlessLoading
  split
  · exact h
  · rename_i hl
    unfold Balanced load at *
    split <;> simp_all

end

end Chunk

/-- One call of `load`: the chunk, whether it was loading, and the cursor of the
stream that called. -/
structure LoadCall where
  chunk : Nat
  wasLoading : Bool
  cursor : Nat
  deriving DecidableEq, Repr

/-- The chunks of a result by their position, and the calls of `load` so far. -/
structure Chunks (ι ρ : Type*) where
  chunk : Nat → Chunk ι ρ
  calls : List LoadCall

namespace Chunks

/-- Change one chunk. -/
def update (cs : Chunks ι ρ) (i : Nat) (f : Chunk ι ρ → Chunk ι ρ) : Chunks ι ρ :=
  { cs with chunk := Function.update cs.chunk i (f (cs.chunk i)) }

theorem update_chunk (cs : Chunks ι ρ) (i j : Nat) (f : Chunk ι ρ → Chunk ι ρ) :
    (cs.update i f).chunk j = if j = i then f (cs.chunk j) else cs.chunk j := by
  by_cases h : j = i
  · subst h
    simp [update]
  · simp [update, h]

@[simp] theorem update_chunk_self (cs : Chunks ι ρ) (i : Nat) (f : Chunk ι ρ → Chunk ι ρ) :
    (cs.update i f).chunk i = f (cs.chunk i) := by simp [update_chunk]

theorem update_update (cs : Chunks ι ρ) (i : Nat) (f g : Chunk ι ρ → Chunk ι ρ) :
    (cs.update i f).update i g = cs.update i fun c => g (f c) := by
  simp [update]

@[simp] theorem update_calls (cs : Chunks ι ρ) (i : Nat) (f : Chunk ι ρ → Chunk ι ρ) :
    (cs.update i f).calls = cs.calls := rfl

/-- A turn of the loop in `doLoad`. -/
def loadUnlessLoading (cursor : Nat) (cs : Chunks ι ρ) (i : Nat) : Chunks ι ρ :=
  if (cs.chunk i).isLoading then cs
  else { cs.update i Chunk.load with calls := cs.calls ++ [⟨i, (cs.chunk i).isLoading, cursor⟩] }

theorem loadUnlessLoading_chunk (cursor : Nat) (cs : Chunks ι ρ) (i j : Nat) :
    (cs.loadUnlessLoading cursor i).chunk j =
      if j = i then (cs.chunk j).loadUnlessLoading else cs.chunk j := by
  unfold loadUnlessLoading
  split
  · rename_i h
    by_cases hji : j = i
    · subst hji
      simp [Chunk.loadUnlessLoading, h]
    · simp [hji]
  · rename_i h
    show (cs.update i Chunk.load).chunk j = _
    rw [update_chunk]
    by_cases hji : j = i
    · subst hji
      simp [Chunk.loadUnlessLoading, h]
    · simp [hji]

/-- The whole loop asks every chunk of the list to load that is not loading. -/
theorem foldl_loadUnlessLoading_chunk (cursor : Nat) (is : List Nat) (cs : Chunks ι ρ) (j : Nat) :
    (is.foldl (loadUnlessLoading cursor) cs).chunk j =
      if j ∈ is then (cs.chunk j).loadUnlessLoading else cs.chunk j := by
  induction is generalizing cs with
  | nil => simp
  | cons i is ih =>
      rw [List.foldl_cons, ih, loadUnlessLoading_chunk]
      by_cases hji : j = i
      · subst hji
        by_cases hmem : j ∈ is
        · simp [hmem, Chunk.loadUnlessLoading_idem]
        · simp [hmem]
      · simp [hji]

/-- The loop calls `load` on chunks of the list only, and on none that is loading. -/
theorem foldl_loadUnlessLoading_calls (cursor : Nat) (is : List Nat) (cs : Chunks ι ρ) :
    ∃ new, (is.foldl (loadUnlessLoading cursor) cs).calls = cs.calls ++ new ∧
      ∀ call ∈ new, call.chunk ∈ is ∧ call.wasLoading = false ∧ call.cursor = cursor := by
  induction is generalizing cs with
  | nil => exact ⟨[], by simp, by simp⟩
  | cons i is ih =>
      obtain ⟨new, hnew, hall⟩ := ih (cs.loadUnlessLoading cursor i)
      have hrest : ∀ call ∈ new, call.chunk ∈ i :: is ∧ call.wasLoading = false ∧
          call.cursor = cursor := by
        intro call hcall
        obtain ⟨hmem, h⟩ := hall call hcall
        exact ⟨List.mem_cons_of_mem i hmem, h⟩
      rw [List.foldl_cons, hnew]
      unfold loadUnlessLoading
      split
      · exact ⟨new, rfl, hrest⟩
      · rename_i h
        refine ⟨⟨i, (cs.chunk i).isLoading, cursor⟩ :: new, by simp, fun call hcall => ?_⟩
        rcases List.mem_cons.mp hcall with rfl | hcall
        · exact ⟨by simp, by simpa using h, rfl⟩
        · exact hrest call hcall

/-- The first `n` chunks as a list, the way a result keeps them. -/
def toList (cs : Chunks ι ρ) (n : Nat) : List (Chunk ι ρ) := (List.range n).map cs.chunk

/-- `Result.refresh` on a result of `n` chunks, with what it throws. -/
def refresh (cs : Chunks ι ρ) (n : Nat) (chunkCfgs : Option (List (ChunkCfg ρ))) :
    Chunks ι ρ × Option Err :=
  let refreshed := Result.refresh (cs.toList n) chunkCfgs
  ({ cs with chunk := fun i => refreshed.1.getD i (cs.chunk i) }, refreshed.2)

/-- A refresh changes urls only. -/
theorem refresh_chunk (cs : Chunks ι ρ) (n : Nat) (chunkCfgs : Option (List (ChunkCfg ρ)))
    (i : Nat) : ∃ url, (cs.refresh n chunkCfgs).1.chunk i = (cs.chunk i).setUrl url := by
  have hrefresh : ∀ (chunks : List (Chunk ι ρ)) (cfgs : List (ChunkCfg ρ)) (i : Nat) (c : Chunk ι ρ),
      chunks[i]? = some c → ∃ url, (Result.refreshUrls chunks cfgs).1[i]? = some (c.setUrl url) := by
    intro chunks
    induction chunks with
    | nil => intro cfgs i c h; simp at h
    | cons d ds ih =>
        intro cfgs i c h
        cases cfgs with
        | nil => exact ⟨c.url, by simpa [Result.refreshUrls, Chunk.setUrl] using h⟩
        | cons cfg cfgs =>
            cases i with
            | zero =>
                obtain rfl : d = c := by simpa using h
                exact ⟨cfg.url, by simp [Result.refreshUrls]⟩
            | succ i =>
                obtain ⟨url, hurl⟩ := ih cfgs i c (by simpa using h)
                exact ⟨url, by simpa [Result.refreshUrls] using hurl⟩
  by_cases hi : i < n
  · have hget : (cs.toList n)[i]? = some (cs.chunk i) := by simp [toList, hi]
    obtain ⟨url, hurl⟩ := hrefresh (cs.toList n) (chunkCfgs.getD []) i (cs.chunk i) hget
    exact ⟨url, by simp [refresh, Result.refresh, List.getD_eq_getElem?_getD, hurl]⟩
  · have hlen : ∀ (chunks : List (Chunk ι ρ)) (cfgs : List (ChunkCfg ρ)),
        (Result.refreshUrls chunks cfgs).1.length = chunks.length := by
      intro chunks
      induction chunks with
      | nil => intro cfgs; rfl
      | cons d ds ih =>
          intro cfgs
          cases cfgs <;> simp [Result.refreshUrls, ih]
    have hnone : (Result.refreshUrls (cs.toList n) (chunkCfgs.getD [])).1[i]? = none := by
      rw [List.getElem?_eq_none_iff, hlen]
      simpa [toList] using hi
    exact ⟨(cs.chunk i).url, by
      simp [refresh, Result.refresh, List.getD_eq_getElem?_getD, hnone, Chunk.setUrl]⟩

end Chunks

/-- A result stream: the chunks to read, the number of chunks to prefetch, and the
cursor. -/
structure ResultStream where
  chunks : List Nat
  prefetchSize : Nat
  currChunk : Nat
  deriving DecidableEq, Repr

namespace ResultStream

/-- The chunks that `doLoad` goes over: the current one and those to prefetch. -/
def window (rs : ResultStream) : List Nat := (rs.chunks.drop rs.currChunk).take (rs.prefetchSize + 1)

/-- Identifies the next chunk to load, subscribes to it as `self`, and issues
requests to fetch it and the next few chunks; `none` stands for `asyncClose`. -/
def doLoad (self : ι) (rs : ResultStream) (cs : Chunks ι ρ) : Option (Chunks ι ρ) :=
  match rs.chunks[rs.currChunk]? with
  | none => none
  | some c =>
      some (rs.window.foldl (Chunks.loadUnlessLoading rs.currChunk) (cs.update c (·.on self)))

/-- The chunk at the cursor is in the window. -/
theorem mem_window {rs : ResultStream} {c : Nat} (h : rs.chunks[rs.currChunk]? = some c) :
    c ∈ rs.window := by
  obtain ⟨hlt, hget⟩ := List.getElem?_eq_some_iff.mp h
  rw [window, List.drop_eq_getElem_cons hlt, List.take_succ_cons, hget]
  exact List.mem_cons_self

/-- What `doLoad` makes of each chunk. -/
theorem doLoad_chunk {self : ι} {rs : ResultStream} {cs cs' : Chunks ι ρ} {c : Nat}
    (hc : rs.chunks[rs.currChunk]? = some c) (h : rs.doLoad self cs = some cs') (j : Nat) :
    cs'.chunk j =
      let d := if j = c then (cs.chunk j).on self else cs.chunk j
      if j ∈ rs.window then d.loadUnlessLoading else d := by
  simp only [doLoad, hc, Option.some.injEq] at h
  subst h
  rw [Chunks.foldl_loadUnlessLoading_chunk, Chunks.update_chunk]

end ResultStream

end SnowflakeConnector
