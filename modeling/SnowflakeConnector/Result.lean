import SnowflakeConnector.Chunk

/-!
# SnowflakeConnector.Result

The chunks of `lib/connection/result/result.js`: how a query response is cut into
chunks (`createChunks`), how a later response refreshes their urls (`refresh`),
and which of them overlap with a window (`findOverlappingChunks`).

A response lists one config for each remote chunk; rows returned inline have
none, and `createChunks` fabricates a config for them in front of the others.
-/

namespace SnowflakeConnector

open Slice

variable {ι ρ : Type*}

/-- A chunk config of a query response, or the fabricated one. -/
structure ChunkCfg (ρ : Type*) where
  rowCount : Nat
  url : Option String
  rowset : Option (List ρ)
  deriving DecidableEq, Repr

namespace Chunk

/-- `new Chunk(chunkCfg)`, the config augmented with its start index. -/
def ofCfg (startIndex : Int) (cfg : ChunkCfg ρ) : Chunk ι ρ where
  startIndex := startIndex
  endIndex := startIndex + cfg.rowCount - 1
  url := cfg.url
  rowsetAsString := none
  rowset := cfg.rowset
  rows := none
  isLoading := false
  listeners := []
  scheduled := 0
  requested := 0

end Chunk

namespace Result

/-- The config fabricated for the rows returned inline. -/
def inlineCfg (rowset : List ρ) : ChunkCfg ρ := ⟨rowset.length, none, some rowset⟩

/-- The configs that `createChunks` loops over. -/
def allCfgs (chunkCfgs : Option (List (ChunkCfg ρ))) (rowset : List ρ) : List (ChunkCfg ρ) :=
  let chunkCfgs := chunkCfgs.getD []
  if rowset.length > 0 then inlineCfg rowset :: chunkCfgs else chunkCfgs

/-- The loop of `createChunks`, with its running start index. -/
def buildChunks : Int → List (ChunkCfg ρ) → List (Chunk ι ρ)
  | _, [] => []
  | startIndex, cfg :: cfgs => Chunk.ofCfg startIndex cfg :: buildChunks (startIndex + cfg.rowCount) cfgs

/-- Creates an array of chunks from the chunk-related information in the result
response. -/
def createChunks (chunkCfgs : Option (List (ChunkCfg ρ))) (rowset : List ρ) : List (Chunk ι ρ) :=
  buildChunks 0 (allCfgs chunkCfgs rowset)

/-- The loop of `refresh`: the new urls by position.  Reading `url` of a config
that is not there throws, with the urls before it already set. -/
def refreshUrls : List (Chunk ι ρ) → List (ChunkCfg ρ) → List (Chunk ι ρ) × Option Err
  | [], _ => ([], none)
  | c :: cs, [] => (c :: cs, some Errors.typeError)
  | c :: cs, cfg :: cfgs =>
      let rest := refreshUrls cs cfgs
      (c.setUrl cfg.url :: rest.1, rest.2)

/-- Refreshes the result by updating the chunk urls; the second component is what
the call throws. -/
def refresh (chunks : List (Chunk ι ρ)) (chunkCfgs : Option (List (ChunkCfg ρ))) :
    List (Chunk ι ρ) × Option Err :=
  refreshUrls chunks (chunkCfgs.getD [])

/-! ## chunks and their configs -/

/-- The number of rows that the given configs describe. -/
def rowTotal (cfgs : List (ChunkCfg ρ)) : Int := (cfgs.map fun cfg => (cfg.rowCount : Int)).sum

@[simp] theorem rowTotal_nil : rowTotal ([] : List (ChunkCfg ρ)) = 0 := rfl

@[simp] theorem rowTotal_cons (cfg : ChunkCfg ρ) (cfgs : List (ChunkCfg ρ)) :
    rowTotal (cfg :: cfgs) = cfg.rowCount + rowTotal cfgs := rfl

@[simp] theorem length_buildChunks (s : Int) (cfgs : List (ChunkCfg ρ)) :
    (buildChunks s cfgs : List (Chunk ι ρ)).length = cfgs.length := by
  induction cfgs generalizing s with
  | nil => rfl
  | cons cfg cfgs ih => simp [buildChunks, ih]

/-- The chunk at a position starts after the rows of the configs before it. -/
theorem getElem?_buildChunks (s : Int) (cfgs : List (ChunkCfg ρ)) (k : Nat) :
    (buildChunks s cfgs : List (Chunk ι ρ))[k]? =
      cfgs[k]?.map (Chunk.ofCfg (s + rowTotal (cfgs.take k))) := by
  induction cfgs generalizing s k with
  | nil => simp [buildChunks]
  | cons cfg cfgs ih =>
      cases k with
      | zero => simp [buildChunks]
      | succ k => simp [buildChunks, ih, Int.add_assoc]

theorem allCfgs_nil (chunkCfgs : Option (List (ChunkCfg ρ))) :
    allCfgs chunkCfgs [] = chunkCfgs.getD [] := rfl

theorem allCfgs_of_ne_nil (chunkCfgs : Option (List (ChunkCfg ρ))) {rowset : List ρ}
    (h : rowset ≠ []) : allCfgs chunkCfgs rowset = inlineCfg rowset :: chunkCfgs.getD [] := by
  simp [allCfgs, List.length_pos_iff.mpr h]

/-! ## refreshing the urls -/

/-- A refresh with a config for every chunk sets every url and does not throw. -/
theorem refreshUrls_of_le {chunks : List (Chunk ι ρ)} {cfgs : List (ChunkCfg ρ)}
    (h : chunks.length ≤ cfgs.length) :
    refreshUrls chunks cfgs = (List.zipWith (fun c cfg => c.setUrl cfg.url) chunks cfgs, none) := by
  induction chunks generalizing cfgs with
  | nil => simp [refreshUrls]
  | cons c cs ih =>
      cases cfgs with
      | nil => simp at h
      | cons cfg cfgs =>
          have hrest := @ih cfgs (by simpa using h)
          simp [refreshUrls, hrest]

/-- A refresh with fewer configs than chunks runs off the end of the configs. -/
theorem refreshUrls_throws {chunks : List (Chunk ι ρ)} {cfgs : List (ChunkCfg ρ)}
    (h : cfgs.length < chunks.length) : (refreshUrls chunks cfgs).2 = some Errors.typeError := by
  induction chunks generalizing cfgs with
  | nil => simp at h
  | cons c cs ih =>
      cases cfgs with
      | nil => rfl
      | cons cfg cfgs => exact ih (by simpa using h)

/-- The chunk configs of a second response describe the same chunks: the same
row counts in the same order, with urls of their own. -/
def SameChunks (chunkCfgs newCfgs : Option (List (ChunkCfg ρ))) : Prop :=
  newCfgs.map (List.map ChunkCfg.rowCount) = chunkCfgs.map (List.map ChunkCfg.rowCount)

theorem SameChunks.map_rowCount {chunkCfgs newCfgs : Option (List (ChunkCfg ρ))}
    (h : SameChunks chunkCfgs newCfgs) :
    (newCfgs.getD []).map ChunkCfg.rowCount = (chunkCfgs.getD []).map ChunkCfg.rowCount := by
  cases chunkCfgs <;> cases newCfgs <;> simp_all [SameChunks]

theorem SameChunks.length_eq {chunkCfgs newCfgs : Option (List (ChunkCfg ρ))}
    (h : SameChunks chunkCfgs newCfgs) :
    (newCfgs.getD []).length = (chunkCfgs.getD []).length := by
  simpa using congrArg List.length h.map_rowCount

/-- How many chunks are fabricated from the inline rowset. -/
def inlineCount (rowset : List ρ) : Nat := if rowset = [] then 0 else 1

/-- The chunk covers the row range that the config at position `k` describes: its
rows come after the inline rows and the rows of the configs before it. -/
def Describes (rowset : List ρ) (cfgs : List (ChunkCfg ρ)) (k : Nat) (c : Chunk ι ρ) : Prop :=
  ∃ cfg, cfgs[k]? = some cfg ∧
    c.startIndex = rowset.length + rowTotal (cfgs.take k) ∧
    c.endIndex = c.startIndex + cfg.rowCount - 1

/-- What a refresh has to establish: it does not throw, the chunk fabricated from
the inline rowset keeps having no url, and every other chunk carries the url of
the config that describes its own row range. -/
def RefreshAligned (ι : Type*) (rowset : List ρ) (chunkCfgs newCfgs : Option (List (ChunkCfg ρ))) :
    Prop :=
  let refreshed := refresh (createChunks chunkCfgs rowset : List (Chunk ι ρ)) newCfgs
  refreshed.2 = none ∧
  (∀ c, rowset ≠ [] → refreshed.1[0]? = some c → c.url = none) ∧
  ∀ k c, refreshed.1[k + inlineCount rowset]? = some c →
    Describes rowset (newCfgs.getD []) k c ∧
      ∃ cfg, (newCfgs.getD [])[k]? = some cfg ∧ c.url = cfg.url

theorem refresh_aligned_of_nil {chunkCfgs newCfgs : Option (List (ChunkCfg ρ))}
    (h : SameChunks chunkCfgs newCfgs) : RefreshAligned ι [] chunkCfgs newCfgs := by
  have hlen := h.length_eq
  have hcount := h.map_rowCount
  have hrun : refresh (createChunks chunkCfgs [] : List (Chunk ι ρ)) newCfgs =
      (List.zipWith (fun c cfg => c.setUrl cfg.url) (buildChunks 0 (chunkCfgs.getD []))
        (newCfgs.getD []), none) :=
    refreshUrls_of_le (by simp [createChunks, allCfgs_nil, hlen])
  rw [RefreshAligned, hrun]
  refine ⟨rfl, fun c hne => absurd rfl hne, fun k c hc => ?_⟩
  simp only [inlineCount, if_true, Nat.add_zero, List.getElem?_zipWith, getElem?_buildChunks,
    Int.zero_add] at hc
  cases hnew : (newCfgs.getD [])[k]? with
  | none => simp [hnew] at hc
  | some newCfg =>
      have hk : ((chunkCfgs.getD [])[k]?).map ChunkCfg.rowCount = some newCfg.rowCount := by
        rw [← List.getElem?_map, ← hcount, List.getElem?_map, hnew, Option.map_some]
      obtain ⟨cfg, hcfg, hrows⟩ := Option.map_eq_some_iff.mp hk
      rw [hcfg, hnew] at hc
      obtain rfl := Option.some.inj hc
      have hbefore : rowTotal ((chunkCfgs.getD []).take k) = rowTotal ((newCfgs.getD []).take k) := by
        have hmap : ∀ cfgs : List (ChunkCfg ρ), rowTotal (cfgs.take k) =
            (((cfgs.map ChunkCfg.rowCount).take k).map (fun n : Nat => (n : Int))).sum := by
          intro cfgs
          rw [← List.map_take, List.map_map]
          rfl
        rw [hmap, hmap, hcount]
      refine ⟨⟨newCfg, hnew, ?_, ?_⟩, newCfg, rfl, rfl⟩
      · simp [Chunk.setUrl, Chunk.ofCfg, hbefore]
      · simp [Chunk.setUrl, Chunk.ofCfg, hrows]

theorem refresh_throws_of_ne_nil {rowset : List ρ} {chunkCfgs newCfgs : Option (List (ChunkCfg ρ))}
    (h : SameChunks chunkCfgs newCfgs) (hne : rowset ≠ []) :
    (refresh (createChunks chunkCfgs rowset : List (Chunk ι ρ)) newCfgs).2 =
      some Errors.typeError := by
  apply refreshUrls_throws
  simp [createChunks, allCfgs_of_ne_nil chunkCfgs hne, h.length_eq]

/-- **Refresh and alignment**: a response describing the same result keeps the
urls aligned with the rows exactly when no rows were returned inline.  The
fabricated chunk has no config in the second response, so with inline rows the
walk by position shifts every url by one chunk and then throws. -/
theorem refresh_aligned_iff (rowset : List ρ) (chunkCfgs newCfgs : Option (List (ChunkCfg ρ)))
    (h : SameChunks chunkCfgs newCfgs) : RefreshAligned ι rowset chunkCfgs newCfgs ↔ rowset = [] := by
  constructor
  · intro haligned
    by_contra hne
    have hthrows := refresh_throws_of_ne_nil (ι := ι) h hne
    rw [haligned.1] at hthrows
    cases hthrows
  · rintro rfl
    exact refresh_aligned_of_nil h

/-- A result of one remote chunk of two rows. -/
theorem refresh_aligned_iff_remote :
    RefreshAligned Unit ([] : List Nat) (some [⟨2, some "u", none⟩]) (some [⟨2, some "v", none⟩]) ↔
      ([] : List Nat) = [] :=
  refresh_aligned_iff [] (some [⟨2, some "u", none⟩]) (some [⟨2, some "v", none⟩]) rfl

/-- One inline row and one remote chunk: the refresh throws, and has by then given
the url of the remote chunk to the inline one. -/
theorem refresh_not_aligned_inline :
    SameChunks (ρ := Nat) (some [⟨2, some "u", none⟩]) (some [⟨2, some "v", none⟩]) ∧
    ((refresh (createChunks (some [⟨2, some "u", none⟩]) [7] : List (Chunk Unit Nat))
      (some [⟨2, some "v", none⟩])).1.map Chunk.url) = [some "v", some "u"] ∧
    ¬ RefreshAligned Unit [7] (some [⟨2, some "u", none⟩]) (some [⟨2, some "v", none⟩]) := by
  refine ⟨rfl, by decide, fun haligned => ?_⟩
  have hthrown := haligned.1
  revert hthrown
  decide

end Result

end SnowflakeConnector
