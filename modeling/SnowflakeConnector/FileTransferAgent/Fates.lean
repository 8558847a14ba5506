import Mathlib.Data.List.Forall2
import SnowflakeConnector.FileTransferAgent

/-!
# SnowflakeConnector.FileTransferAgent.Fates

What becomes of a list of files, told from what becomes of each attempt at each file.  An
attempt throws, asks for new credentials, or leaves the file with a *fate*: a definite
status, an error, or a status that says nothing (`lost`).

The loops over the files are shown to follow the fates whatever an attempt is, so that the
uploads and the downloads are two instances of one account.

* `turn_through`, `turn_stops`, `turn_hangs` -- the loop over a list.
* `ends_iff` -- the loops over the small and the large files.
-/

namespace SnowflakeConnector

namespace FileTransferAgent

open While

/-- What an attempt at a file comes to. -/
inductive Fate
  | throws
  | renews (url : Bool)
  | definite
  | fails
  | lost
  deriving DecidableEq, Repr

/-- A status that a file may be listed with: what it says is confirmed. -/
def Meta.Definite (file : Meta) : Prop :=
  match file.resultStatus with
  | some .uploaded =>
      ∃ body encryptionMetadata gcsFileHeader,
        .upload body encryptionMetadata (.done gcsFileHeader) ∈ file.exchanges
  | some .downloaded => ∃ gcsFileHeader, .download (.done gcsFileHeader) ∈ file.exchanges
  | some .skipped => ∃ header, .header (.found header) ∈ file.exchanges
  | some .error => True
  | _ => False

/-- A status that ends the attempts at a file. -/
def Meta.Final (file : Meta) : Prop :=
  file.resultStatus ≠ some .renewToken ∧ file.resultStatus ≠ some .renewPresignedUrl

/-- The meta that a file with this fate is listed with; where an error does not end the
loop, it counts as definite. -/
def Fate.Lists (breaks : Bool) (file : Meta) : Fate → Prop
  | .definite => file.Definite ∧ (breaks = true → file.resultStatus ≠ some .error)
  | .fails => file.resultStatus = some .error
  | .lost => ¬ file.Definite
  | _ => False

namespace Fate

/-- The loop goes on with the next file. -/
def passes (breaks : Bool) : Fate → Bool
  | .definite => true
  | .lost => true
  | .fails => !breaks
  | _ => false

end Fate

section

variable {α V : Type}

/-- What an attempt leaves of a file; `view` is what the attempts do not change. -/
def Fate.Leaves (view : Meta → V) (breaks : Bool) (file : Meta) (r : Except String Meta)
    (f : Fate) : Prop :=
  match f with
  | .throws => ∃ err, r = .error err
  | .renews url =>
      ∃ file', r = .ok file' ∧ view file' = view file ∧
        file'.resultStatus = some (renewStatus url)
  | f =>
      ∃ file', r = .ok file' ∧ view file' = view file ∧ file'.Final ∧
        file'.dstFileSize.isSome = true ∧ f.Lists breaks file'

/-- A way to transfer files, and what its attempts come to: `attemptEnd` is told what is
known of the file and whether an earlier attempt has asked for new credentials. -/
structure Transfer (α V : Type) where
  transferOneFile : α → Meta → Except String Meta
  refresh : α → Except String (Job α → Job α)
  breaks : Bool
  view : Meta → V
  attemptEnd : V → Option Bool → α → Fate
  leaves : ∀ (stale : Option Bool) (a : α) (file : Meta),
    file.resultStatus = stale.map renewStatus →
      (attemptEnd (view file) stale a).Leaves view breaks file (transferOneFile a file)
  view_setClient : ∀ (client : Option Client) (file : Meta),
    view { file with client } = view file
  refresh_file : ∀ a update, refresh a = .ok update → ∀ job,
    (update job).index = job.index ∧ (update job).attempts = job.attempts ∧
      view (update job).file = view job.file ∧
      (update job).file.resultStatus = job.file.resultStatus

namespace Transfer

variable (t : Transfer α V)

/-- The loop over the files. -/
def turn : Progress α → Turn (Progress α) (Except String (Progress α)) :=
  filesTurn t.transferOneFile t.refresh t.breaks

/-- An attempt that asks for new urls throws if they cannot be had. -/
def fate (v : V) (stale : Option Bool) (a : α) : Fate :=
  match t.attemptEnd v stale a with
  | .renews true =>
      match t.refresh a with
      | .error _ => .throws
      | .ok _ => .renews true
  | f => f

/-- The attempts at one file, with the renewal that the last one has asked for. -/
def fateTurn (v : V) (s : Option Bool × (Nat → α)) : Turn (Option Bool × (Nat → α)) Fate :=
  match t.fate v s.1 (s.2 0) with
  | .renews url => .next (some url, fun k => s.2 (k + 1))
  | f => .done f

/-- The attempts at a file end, and leave it with this fate. -/
def Settles (x : V × (Nat → α)) (f : Fate) : Prop := EndsWith (t.fateTurn x.1) (none, x.2) f

/-- The loop gets through all of the files. -/
def Through (files : List (V × (Nat → α))) : Prop :=
  ∀ x ∈ files, ∃ f, t.Settles x f ∧ f.passes t.breaks = true

/-- The loop gets to a file that ends it. -/
def StopsAt (files : List (V × (Nat → α))) (f : Fate) : Prop :=
  ∃ before x after, files = before ++ x :: after ∧ t.Through before ∧ t.Settles x f ∧
    f.passes t.breaks = false

/-- The loop gets to a file that is renewed for ever. -/
def Hangs (files : List (V × (Nat → α))) : Prop :=
  ∃ before x after, files = before ++ x :: after ∧ t.Through before ∧ ∀ f, ¬ t.Settles x f

/-- What the attempts at a file read, and the attempts that are left. -/
def script (job : Job α) : V × (Nat → α) := (t.view job.file, job.attempts)

/-- What a renewal does to the files. -/
def Refreshes (a : α) (url : Bool) (update : Job α → Job α) : Prop :=
  url = false ∧ update = Job.setClient none ∨ url = true ∧ t.refresh a = .ok update

/-- What the attempts at a file depend on. -/
def key (job : Job α) : (V × (Nat → α)) × Option ResultStatus :=
  (t.script job, job.file.resultStatus)

/-- The file is listed with this fate, and is still the same file. -/
structure Lists (v : V) (f : Fate) (file : Meta) : Prop where
  view : t.view file = v
  dstFileSize : file.dstFileSize.isSome = true
  lists : f.Lists t.breaks file

variable {t}

/-! ### the keys of the files -/

theorem key_again (job : Job α) (file : Meta) :
    t.key (job.again file) =
      ((t.view file, fun k => job.attempts (k + 1)), file.resultStatus) := rfl

theorem key_setClient (client : Option Client) (job : Job α) :
    t.key (Job.setClient client job) = t.key job := by
  simp only [key, script, Job.setClient, t.view_setClient]

theorem key_refresh {a : α} {update : Job α → Job α} (h : t.refresh a = .ok update) (job : Job α) :
    t.key (update job) = t.key job := by
  obtain ⟨_, hattempts, hview, hstatus⟩ := t.refresh_file a update h job
  rw [key, script, hattempts, hview, hstatus]
  rfl

/-- A renewal leaves what the attempts depend on alone. -/
theorem Refreshes.key_eq {a : α} {url : Bool} {update : Job α → Job α}
    (h : t.Refreshes a url update) (job : Job α) : t.key (update job) = t.key job := by
  rcases h with ⟨_, rfl⟩ | ⟨_, h⟩
  · exact key_setClient none job
  · exact key_refresh h job

theorem Refreshes.index_eq {a : α} {url : Bool} {update : Job α → Job α}
    (h : t.Refreshes a url update) (job : Job α) : (update job).index = job.index := by
  rcases h with ⟨_, rfl⟩ | ⟨_, h⟩
  · rfl
  · exact (t.refresh_file a update h job).1

theorem Refreshes.map_key {a : α} {url : Bool} {update : Job α → Job α}
    (h : t.Refreshes a url update) (jobs : List (Job α)) :
    (jobs.map update).map t.key = jobs.map t.key := by
  rw [List.map_map]
  apply List.map_congr_left
  intro job _
  exact h.key_eq job

/-- What is not tried either stays as it was or is renewed too. -/
theorem Refreshes.map_key_others {a : α} {url : Bool} {update : Job α → Job α}
    (h : t.Refreshes a url update) {others others' : List (Job α)}
    (hothers : others' = others ∨ others' = others.map update) :
    others'.map t.key = others.map t.key := by
  rcases hothers with rfl | rfl
  · rfl
  · exact h.map_key others

/-! ### one turn -/

section

variable {stale : Option Bool} {job : Job α} (jobs others : List (Job α)) (results : List Meta)

theorem turn_nil : t.turn ⟨[], others, results⟩ = .done (.ok ⟨[], others, results⟩) := rfl

/-- A file that is not renewed is listed; it ends the loop if the loop breaks at it. -/
theorem turn_of_listed {f : Fate} {file : Meta}
    (hok : t.transferOneFile (job.attempts 0) job.file = .ok file) (hfinal : file.Final)
    (hlists : f.Lists t.breaks file) :
    t.turn ⟨job :: jobs, others, results⟩ =
      if f.passes t.breaks = true then .next ⟨jobs, others, results ++ [file]⟩
      else .done (.ok ⟨jobs, others, results ++ [file]⟩) := by
  simp only [turn, filesTurn, hok, if_neg hfinal.1, if_neg hfinal.2]
  cases f with
  | fails =>
      have hstatus : file.resultStatus = some .error := hlists
      cases hbreaks : t.breaks <;> simp [hstatus, Fate.passes]
  | definite =>
      rw [if_neg fun h => hlists.2 h.1 h.2]
      rfl
  | lost =>
      have hstatus : file.resultStatus ≠ some .error := by
        intro hstatus
        exact absurd (by simp [Meta.Definite, hstatus]) hlists
      rw [if_neg fun h => hstatus h.2]
      rfl
  | throws | renews _ => exact hlists.elim

/-- What a turn does with the first file. -/
theorem turn_cases (hstale : job.file.resultStatus = stale.map renewStatus) :
    (t.fate (t.view job.file) stale (job.attempts 0) = .throws ∧
      ∃ err, t.turn ⟨job :: jobs, others, results⟩ = .done (.error err)) ∨
    (∃ url file update others', t.fate (t.view job.file) stale (job.attempts 0) = .renews url ∧
      t.Refreshes (job.attempts 0) url update ∧ t.view file = t.view job.file ∧
      file.resultStatus = some (renewStatus url) ∧
      (others' = others ∨ others' = others.map update) ∧
      t.turn ⟨job :: jobs, others, results⟩ =
        .next ⟨update (job.again file) :: jobs.map update, others', results⟩) ∨
    (∃ f file, t.fate (t.view job.file) stale (job.attempts 0) = f ∧
      t.Lists (t.view job.file) f file ∧
      t.turn ⟨job :: jobs, others, results⟩ =
        if f.passes t.breaks = true then .next ⟨jobs, others, results ++ [file]⟩
        else .done (.ok ⟨jobs, others, results ++ [file]⟩)) := by
  have hleaves := t.leaves stale (job.attempts 0) job.file hstale
  cases hend : t.attemptEnd (t.view job.file) stale (job.attempts 0) with
  | throws =>
      rw [hend] at hleaves
      obtain ⟨err, herr⟩ := hleaves
      exact Or.inl ⟨by rw [fate, hend], err, by simp only [turn, filesTurn, herr]⟩
  | renews url =>
      rw [hend] at hleaves
      obtain ⟨file, hok, hview, hstatus⟩ := hleaves
      cases url with
      | false =>
          refine Or.inr (Or.inl ⟨false, file, Job.setClient none, others, by rw [fate, hend],
            Or.inl ⟨rfl, rfl⟩, hview, hstatus, Or.inl rfl, ?_⟩)
          simp only [turn, filesTurn, hok, hstatus, renewStatus, List.map_cons, Bool.false_eq_true,
            if_false, if_true]
      | true =>
          cases hrefresh : t.refresh (job.attempts 0) with
          | error err =>
              refine Or.inl ⟨by rw [fate, hend, hrefresh], err, ?_⟩
              simp [turn, filesTurn, hok, hstatus, renewStatus, hrefresh]
          | ok update =>
              refine Or.inr (Or.inl ⟨true, file, update, others.map update,
                by rw [fate, hend, hrefresh], Or.inr ⟨rfl, hrefresh⟩, hview, hstatus, Or.inr rfl, ?_⟩)
              simp [turn, filesTurn, hok, hstatus, renewStatus, hrefresh]
  | definite | fails | lost =>
      rw [hend] at hleaves
      obtain ⟨file, hok, hview, hfinal, hsize, hlists⟩ := hleaves
      exact Or.inr (Or.inr ⟨_, file, by rw [fate, hend], ⟨hview, hsize, hlists⟩,
        turn_of_listed jobs others results hok hfinal hlists⟩)

/-! ### one file -/

theorem fateTurn_of_renews {v : V} {attempts : Nat → α} {url : Bool}
    (h : t.fate v stale (attempts 0) = .renews url) :
    t.fateTurn v (stale, attempts) = .next (some url, fun k => attempts (k + 1)) := by
  unfold fateTurn
  rw [h]

theorem fateTurn_of_not_renews {v : V} {attempts : Nat → α} {f : Fate}
    (h : t.fate v stale (attempts 0) = f) (hf : ∀ url, f ≠ .renews url) :
    t.fateTurn v (stale, attempts) = .done f := by
  unfold fateTurn
  rw [h]
  cases f with
  | renews url => exact absurd rfl (hf url)
  | throws | definite | fails | lost => rfl

theorem Lists.not_renews {v : V} {f : Fate} {file : Meta} (h : t.Lists v f file) (url : Bool) :
    f ≠ .renews url := by
  intro hf
  have hlists := h.lists
  rw [hf] at hlists
  exact hlists

/-- The attempts at the first file end: the loop throws, or the file is listed and the loop
goes on unless it breaks at the file. -/
theorem head_settles {v : V} {attempts : Nat → α} {f : Fate} {n : Nat}
    (h : loop (t.fateTurn v) n (stale, attempts) = some f)
    (hjob : t.key job = ((v, attempts), stale.map renewStatus)) :
    (f = .throws ∧ ∃ err, EndsWith t.turn ⟨job :: jobs, others, results⟩ (.error err)) ∨
    (∃ file jobs' others', t.Lists v f file ∧ jobs'.map t.key = jobs.map t.key ∧
      others'.map t.key = others.map t.key ∧
      ∀ o, EndsWith t.turn ⟨job :: jobs, others, results⟩ o ↔
        if f.passes t.breaks = true then EndsWith t.turn ⟨jobs', others', results ++ [file]⟩ o
        else .ok ⟨jobs', others', results ++ [file]⟩ = o) := by
  induction n generalizing stale attempts job jobs others with
  | zero => rw [loop] at h; contradiction
  | succ n ih =>
      obtain ⟨rfl, rfl⟩ : t.view job.file = v ∧ job.attempts = attempts :=
        ⟨congrArg (fun k => k.1.1) hjob, congrArg (fun k => k.1.2) hjob⟩
      have hstale : job.file.resultStatus = stale.map renewStatus := congrArg Prod.snd hjob
      rcases turn_cases jobs others results hstale with
        ⟨hfate, err, hturn⟩ |
        ⟨url, file, update, others', hfate, hrefreshes, hview, hstatus, hothers', hturn⟩ |
        ⟨f', file, hfate, hlists, hturn⟩
      · rw [loop_of_done (fateTurn_of_not_renews hfate (by simp))] at h
        exact Or.inl ⟨(Option.some.inj h).symm, err, (endsWith_iff_of_done hturn).mpr rfl⟩
      · rw [loop_of_next (fateTurn_of_renews hfate)] at h
        have hjob' : t.key (update (job.again file)) =
            ((t.view job.file, fun k => job.attempts (k + 1)), some (renewStatus url)) := by
          rw [hrefreshes.key_eq, key_again, hview, hstatus]
        rcases ih (jobs.map update) others' h hjob' with
          ⟨hthrows, err, hends⟩ | ⟨file', jobs'', others'', hlists, hjobs'', hothers'', hends⟩
        · exact Or.inl ⟨hthrows, err, (endsWith_iff_of_next hturn).mpr hends⟩
        · refine Or.inr ⟨file', jobs'', others'', hlists, by rw [hjobs'', hrefreshes.map_key],
            by rw [hothers'', hrefreshes.map_key_others hothers'], ?_⟩
          intro o
          rw [endsWith_iff_of_next hturn, hends]
      · rw [loop_of_done (fateTurn_of_not_renews hfate hlists.not_renews)] at h
        obtain rfl := Option.some.inj h
        refine Or.inr ⟨file, jobs, others, hlists, rfl, rfl, ?_⟩
        intro o
        cases hpasses : f'.passes t.breaks with
        | true =>
            rw [hpasses, if_pos rfl] at hturn
            rw [if_pos rfl, endsWith_iff_of_next hturn]
        | false =>
            rw [hpasses, if_neg (by decide)] at hturn
            rw [if_neg (by decide), endsWith_iff_of_done hturn]

/-- A first file that is renewed for ever keeps the loop. -/
theorem head_hangs {o : Except String (Progress α)}
    (hstale : job.file.resultStatus = stale.map renewStatus)
    (h : ∀ f, ¬ EndsWith (t.fateTurn (t.view job.file)) (stale, job.attempts) f) :
    ¬ EndsWith t.turn ⟨job :: jobs, others, results⟩ o := by
  -- the states of the loop whose first file is renewed for ever
  refine not_endsWith (P := fun p => ∃ job jobs stale, p.jobs = job :: jobs ∧
    job.file.resultStatus = stale.map renewStatus ∧
    ∀ f, ¬ EndsWith (t.fateTurn (t.view job.file)) (stale, job.attempts) f) ?_
    ⟨job, jobs, stale, rfl, hstale, h⟩
  intro ⟨_, others, results⟩ ⟨job, jobs, stale, hp, hstale, h⟩
  obtain rfl := hp
  rcases turn_cases jobs others results hstale with
    ⟨hfate, err, hturn⟩ |
    ⟨url, file, update, others', hfate, hrefreshes, hview, hstatus, hothers', hturn⟩ |
    ⟨f, file, hfate, hlists, hturn⟩
  · have hdone := fateTurn_of_not_renews hfate (by simp)
    exact absurd ((endsWith_iff_of_done hdone).mpr rfl) (h .throws)
  · have hjob' : t.key (update (job.again file)) =
        ((t.view job.file, fun k => job.attempts (k + 1)), some (renewStatus url)) := by
      rw [hrefreshes.key_eq, key_again, hview, hstatus]
    have hview : t.view (update (job.again file)).file = t.view job.file :=
      congrArg (fun k => k.1.1) hjob'
    have hattempts : (update (job.again file)).attempts = fun k => job.attempts (k + 1) :=
      congrArg (fun k => k.1.2) hjob'
    refine ⟨_, hturn, _, _, some url, rfl, congrArg Prod.snd hjob', ?_⟩
    intro f hends
    rw [hview, hattempts] at hends
    exact h f ((endsWith_iff_of_next (fateTurn_of_renews hfate)).mpr hends)
  · have hdone := fateTurn_of_not_renews hfate hlists.not_renews
    exact absurd ((endsWith_iff_of_done hdone).mpr rfl) (h f)

/-! ### the files of a loop -/

variable {jobs}

/-- The files of a loop, none of which was tried yet. -/
def Untried (t : Transfer α V) (jobs : List (Job α)) (files : List (V × (Nat → α))) : Prop :=
  jobs.map t.key = files.map fun x => (x, none)

theorem Untried.of_key_eq {jobs' : List (Job α)} {files : List (V × (Nat → α))}
    (h : Untried t jobs files) (hkey : jobs'.map t.key = jobs.map t.key) :
    Untried t jobs' files := by
  rw [Untried, hkey, h]

theorem Untried.cons_inv {x : V × (Nat → α)} {files : List (V × (Nat → α))}
    (h : Untried t jobs (x :: files)) :
    ∃ job jobs', jobs = job :: jobs' ∧ t.key job = (x, none) ∧ Untried t jobs' files := by
  cases jobs with
  | nil => cases h
  | cons job jobs' =>
      rw [Untried, List.map_cons, List.map_cons, List.cons.injEq] at h
      exact ⟨job, jobs', rfl, h⟩

/-- The file was listed, with the fate that its attempts come to. -/
def Accounted (t : Transfer α V) (x : V × (Nat → α)) (file : Meta) : Prop :=
  ∃ f, t.Settles x f ∧ f.passes t.breaks = true ∧ t.Lists x.1 f file

/-- The loop goes through files none of which ends it. -/
theorem turn_through {before after : List (V × (Nat → α))} (hbefore : t.Through before)
    (hjobs : Untried t jobs (before ++ after)) :
    ∃ files jobs' others', List.Forall₂ (Accounted t) before files ∧ Untried t jobs' after ∧
      others'.map t.key = others.map t.key ∧
      ∀ o, EndsWith t.turn ⟨jobs, others, results⟩ o ↔
        EndsWith t.turn ⟨jobs', others', results ++ files⟩ o := by
  induction before generalizing jobs others results with
  | nil => exact ⟨[], jobs, others, .nil, hjobs, rfl, fun o => by rw [List.append_nil]⟩
  | cons x before ih =>
      obtain ⟨job, jobs, rfl, hjob, hjobs⟩ := hjobs.cons_inv
      obtain ⟨f, ⟨n, hsettles⟩, hpasses⟩ := hbefore x (List.mem_cons_self ..)
      rcases head_settles jobs others results hsettles hjob with
        ⟨hthrows, _⟩ | ⟨file, jobs', others', hlists, hjobs', hothers', hends⟩
      · rw [hthrows] at hpasses
        contradiction
      · obtain ⟨files, jobs'', others'', hfiles, huntried, hothers'', hends'⟩ :=
          ih others' (results ++ [file])
            (fun y hy => hbefore y (List.mem_cons_of_mem _ hy)) (hjobs.of_key_eq hjobs')
        refine ⟨file :: files, jobs'', others'', .cons ⟨f, ⟨n, hsettles⟩, hpasses, hlists⟩ hfiles,
          huntried, by rw [hothers'', hothers'], ?_⟩
        intro o
        rw [hends, if_pos hpasses, hends', List.append_assoc, List.singleton_append]

theorem turn_all {files : List (V × (Nat → α))} (hfiles : t.Through files)
    (hjobs : Untried t jobs files) :
    ∃ metas others', List.Forall₂ (Accounted t) files metas ∧
      others'.map t.key = others.map t.key ∧
      EndsWith t.turn ⟨jobs, others, results⟩ (.ok ⟨[], others', results ++ metas⟩) := by
  have hjobs : Untried t jobs (files ++ []) := by rwa [List.append_nil]
  obtain ⟨metas, jobs', others', hmetas, huntried, hothers, hends⟩ :=
    turn_through others results hfiles hjobs
  obtain rfl : jobs' = [] := List.map_eq_nil_iff.mp huntried
  exact ⟨metas, others', hmetas, hothers, (hends _).mpr ((endsWith_iff_of_done (turn_nil _ _)).mpr rfl)⟩

/-- The loop stops at a file: it throws, or the file is listed as an error. -/
theorem turn_stops {files : List (V × (Nat → α))} {f : Fate} (hfiles : t.StopsAt files f)
    (hjobs : Untried t jobs files) :
    (f = .throws ∧ ∃ err, EndsWith t.turn ⟨jobs, others, results⟩ (.error err)) ∨
    (f = .fails ∧ ∃ p, EndsWith t.turn ⟨jobs, others, results⟩ (.ok p) ∧
      p.others.map t.key = others.map t.key ∧
      ∃ file ∈ p.results, file.resultStatus = some .error) := by
  obtain ⟨before, x, after, rfl, hbefore, ⟨n, hsettles⟩, hpasses⟩ := hfiles
  obtain ⟨metas, jobs', others', _, huntried, hothers, hends⟩ :=
    turn_through others results hbefore hjobs
  obtain ⟨job, jobs, rfl, hjob, _⟩ := huntried.cons_inv
  rcases head_settles jobs others' (results ++ metas)
    hsettles hjob with ⟨hthrows, err, herr⟩ | ⟨file, jobs'', others'', hlists, _, hothers', hends'⟩
  · exact Or.inl ⟨hthrows, err, (hends _).mpr herr⟩
  · cases f with
    | fails =>
        refine Or.inr ⟨rfl, ⟨jobs'', others'', results ++ metas ++ [file]⟩, ?_,
          by rw [hothers', hothers], file, by simp, hlists.lists⟩
        rw [hends, hends', if_neg (by rw [hpasses]; decide)]
    | definite | lost => contradiction
    | throws | renews _ => exact hlists.lists.elim

theorem turn_hangs {files : List (V × (Nat → α))} (hfiles : t.Hangs files)
    (hjobs : Untried t jobs files) (o : Except String (Progress α)) :
    ¬ EndsWith t.turn ⟨jobs, others, results⟩ o := by
  obtain ⟨before, x, after, rfl, hbefore, hhangs⟩ := hfiles
  obtain ⟨metas, jobs', others', _, huntried, _, hends⟩ :=
    turn_through others results hbefore hjobs
  obtain ⟨job, jobs, rfl, hjob, _⟩ := huntried.cons_inv
  rw [hends]
  obtain rfl : t.script job = x := congrArg Prod.fst hjob
  exact head_hangs jobs others' (results ++ metas) (by exact congrArg Prod.snd hjob) hhangs

theorem through_nil (t : Transfer α V) : t.Through [] := by
  intro x hx
  cases hx

theorem through_cons {x : V × (Nat → α)} {files : List (V × (Nat → α))} {f : Fate}
    (hx : t.Settles x f) (hpasses : f.passes t.breaks = true) (hfiles : t.Through files) :
    t.Through (x :: files) := by
  intro y hy
  cases hy with
  | head => exact ⟨f, hx, hpasses⟩
  | tail _ hy => exact hfiles y hy

/-- A loop gets through its files, stops at one or hangs at one. -/
theorem through_or_stops_or_hangs (t : Transfer α V) (files : List (V × (Nat → α))) :
    t.Through files ∨ (∃ f, t.StopsAt files f) ∨ t.Hangs files := by
  induction files with
  | nil => exact Or.inl t.through_nil
  | cons x files ih =>
      by_cases hx : ∃ f, t.Settles x f
      · obtain ⟨f, hsettles⟩ := hx
        cases hpasses : f.passes t.breaks with
        | false =>
            exact Or.inr (Or.inl ⟨f, [], x, files, rfl, t.through_nil, hsettles, hpasses⟩)
        | true =>
            rcases ih with hthrough | ⟨f', before, y, after, hfiles, hbefore, hy⟩ |
              ⟨before, y, after, hfiles, hbefore, hy⟩
            · exact Or.inl (through_cons hsettles hpasses hthrough)
            · exact Or.inr (Or.inl ⟨f', x :: before, y, after, by rw [hfiles]; rfl,
                through_cons hsettles hpasses hbefore, hy⟩)
            · exact Or.inr (Or.inr ⟨x :: before, y, after, by rw [hfiles]; rfl,
                through_cons hsettles hpasses hbefore, hy⟩)
      · exact Or.inr (Or.inr ⟨[], x, files, rfl, t.through_nil, fun f hf => hx ⟨f, hf⟩⟩)

end

/-! ## the small and the large files -/

section

variable {jobs : List (Job α)} {small large : List (V × (Nat → α))}

/-- The loops over the small and the large files come to an end. -/
def TransfersTo (t : Transfer α V) (jobs : List (Job α)) (o : Except String (List Meta)) : Prop :=
  ∃ fuel, transferFiles t.turn fuel jobs = some o

theorem transfersTo_of_error {err : String}
    (h : EndsWith t.turn ⟨smallFileMetas jobs, largeFileMetas jobs, []⟩ (.error err)) :
    TransfersTo t jobs (.error err) := by
  obtain ⟨fuel, hfuel⟩ := h
  exact ⟨fuel, by rw [transferFiles, hfuel]⟩

theorem transfersTo_of_ok {p : Progress α} {r : Except String (Progress α)}
    (h : EndsWith t.turn ⟨smallFileMetas jobs, largeFileMetas jobs, []⟩ (.ok p))
    (hr : EndsWith t.turn ⟨p.others, [], p.results⟩ r) :
    TransfersTo t jobs (r.map Progress.results) := by
  obtain ⟨n, hn⟩ := h
  obtain ⟨m, hm⟩ := hr
  refine ⟨max n m, ?_⟩
  rw [transferFiles, loop_mono (Nat.le_max_left n m) hn]
  simp only [loop_mono (Nat.le_max_right n m) hm]
  cases r <;> rfl

theorem TransfersTo.cases {o : Except String (List Meta)} (h : TransfersTo t jobs o) :
    (∃ err, EndsWith t.turn ⟨smallFileMetas jobs, largeFileMetas jobs, []⟩ (.error err) ∧
      o = .error err) ∨
    ∃ p r, EndsWith t.turn ⟨smallFileMetas jobs, largeFileMetas jobs, []⟩ (.ok p) ∧
      EndsWith t.turn ⟨p.others, [], p.results⟩ r ∧ o = r.map Progress.results := by
  obtain ⟨fuel, hfuel⟩ := h
  unfold transferFiles at hfuel
  split at hfuel
  · contradiction
  · next err herr => exact Or.inl ⟨err, ⟨fuel, herr⟩, (Option.some.inj hfuel).symm⟩
  · next p hp =>
    refine Or.inr ?_
    split at hfuel
    · contradiction
    · next err herr => exact ⟨p, .error err, ⟨fuel, hp⟩, ⟨fuel, herr⟩, (Option.some.inj hfuel).symm⟩
    · next p' hp' => exact ⟨p, .ok p', ⟨fuel, hp⟩, ⟨fuel, hp'⟩, (Option.some.inj hfuel).symm⟩

theorem TransfersTo.unique {o o' : Except String (List Meta)} (h : TransfersTo t jobs o)
    (h' : TransfersTo t jobs o') : o = o' := by
  rcases h.cases with ⟨err, herr, rfl⟩ | ⟨p, r, hp, hr, rfl⟩ <;>
    rcases h'.cases with ⟨err', herr', rfl⟩ | ⟨p', r', hp', hr', rfl⟩
  · obtain rfl := Except.error.inj (herr.unique herr')
    rfl
  · have hne := herr.unique hp'
    contradiction
  · have hne := hp.unique herr'
    contradiction
  · obtain rfl := Except.ok.inj (hp.unique hp')
    rw [hr.unique hr']

/-- The loops come to an end and, if they get through all the files, lose none of them. -/
structure Accountable (t : Transfer α V) (small large : List (V × (Nat → α))) : Prop where
  smallEnds : ¬ t.Hangs small
  largeEnds : ¬ t.StopsAt small .throws → ¬ t.Hangs large
  listed : t.Through small → t.Through large → ∀ x ∈ small ++ large, ¬ t.Settles x .lost

/-- All the files are listed. -/
theorem transfersTo_of_through (hsmall : Untried t (smallFileMetas jobs) small)
    (hlarge : Untried t (largeFileMetas jobs) large) (hthrough : t.Through small)
    (hthrough' : t.Through large) :
    ∃ metas, TransfersTo t jobs (.ok metas) ∧
      List.Forall₂ (Accounted t) (small ++ large) metas := by
  obtain ⟨metas, others, hmetas, hothers, hends⟩ :=
    turn_all (largeFileMetas jobs) [] hthrough hsmall
  obtain ⟨metas', others', hmetas', _, hends'⟩ :=
    turn_all [] ([] ++ metas) hthrough' (hlarge.of_key_eq hothers)
  exact ⟨[] ++ metas ++ metas', transfersTo_of_ok hends hends', List.rel_append hmetas hmetas'⟩

/-- The small files do not end the command: the large ones decide. -/
theorem small_ends (hsmall : Untried t (smallFileMetas jobs) small)
    (hlarge : Untried t (largeFileMetas jobs) large) (hends : ¬ t.Hangs small)
    (hthrows : ¬ t.StopsAt small .throws) :
    ∃ p, EndsWith t.turn ⟨smallFileMetas jobs, largeFileMetas jobs, []⟩ (.ok p) ∧
      Untried t p.others large ∧
      (¬ t.Through small → t.breaks = true ∧
        ∃ file ∈ p.results, file.resultStatus = some .error) := by
  rcases through_or_stops_or_hangs t small with hthrough | ⟨f, hstops⟩ | hhangs
  · obtain ⟨metas, others, _, hothers, hends⟩ :=
      turn_all (largeFileMetas jobs) [] hthrough hsmall
    exact ⟨_, hends, hlarge.of_key_eq hothers, fun h => absurd hthrough h⟩
  · rcases turn_stops (largeFileMetas jobs) [] hstops hsmall with
      ⟨rfl, _⟩ | ⟨rfl, p, hp, hothers, herror⟩
    · exact absurd hstops hthrows
    · obtain ⟨_, _, _, _, _, _, hpasses⟩ := hstops
      have hbreaks : t.breaks = true := by simpa [Fate.passes] using hpasses
      exact ⟨p, hp, hlarge.of_key_eq hothers, fun _ => ⟨hbreaks, herror⟩⟩
  · exact absurd hhangs hends

/-- A command that comes to an end and does not list all of its files throws or lists an
error at which its loop breaks. -/
theorem ends_of_not_through (hsmall : Untried t (smallFileMetas jobs) small)
    (hlarge : Untried t (largeFileMetas jobs) large) (hends : ¬ t.Hangs small)
    (hends' : ¬ t.StopsAt small .throws → ¬ t.Hangs large)
    (hthrough : ¬ (t.Through small ∧ t.Through large)) :
    ∃ o, TransfersTo t jobs o ∧
      ((∃ err, o = .error err) ∨
        t.breaks = true ∧ ∃ metas, o = .ok metas ∧
          ∃ file ∈ metas, file.resultStatus = some .error) := by
  by_cases hthrows : t.StopsAt small .throws
  · rcases turn_stops (largeFileMetas jobs) [] hthrows hsmall with
      ⟨_, err, herr⟩ | ⟨hfails, _⟩
    · exact ⟨_, transfersTo_of_error herr, Or.inl ⟨err, rfl⟩⟩
    · contradiction
  · obtain ⟨p, hp, hothers, herror⟩ := small_ends hsmall hlarge hends hthrows
    rcases through_or_stops_or_hangs t large with hlargeThrough | ⟨f, hstops⟩ | hhangs
    · obtain ⟨hbreaks, file, hfile, hstatus⟩ := herror fun h => hthrough ⟨h, hlargeThrough⟩
      obtain ⟨metas, others, _, _, hends⟩ :=
        turn_all [] p.results hlargeThrough hothers
      exact ⟨_, transfersTo_of_ok hp hends, Or.inr ⟨hbreaks, _, rfl, file,
        List.mem_append_left _ hfile, hstatus⟩⟩
    · rcases turn_stops [] p.results hstops hothers with
        ⟨_, err, herr⟩ | ⟨rfl, p', hp', _, herror'⟩
      · exact ⟨_, transfersTo_of_ok hp herr, Or.inl ⟨err, rfl⟩⟩
      · obtain ⟨_, _, _, _, _, _, hpasses⟩ := hstops
        have hbreaks : t.breaks = true := by simpa [Fate.passes] using hpasses
        exact ⟨_, transfersTo_of_ok hp hp', Or.inr ⟨hbreaks, _, rfl, herror'⟩⟩
    · exact absurd hhangs (hends' hthrows)

/-- A command that hangs at a file comes to no end. -/
theorem not_transfersTo (hsmall : Untried t (smallFileMetas jobs) small)
    (hlarge : Untried t (largeFileMetas jobs) large)
    (h : t.Hangs small ∨ ¬ t.Hangs small ∧ ¬ t.StopsAt small .throws ∧ t.Hangs large)
    (o : Except String (List Meta)) : ¬ TransfersTo t jobs o := by
  intro htransfers
  rcases h with hhangs | ⟨hends, hthrows, hhangs⟩
  · rcases htransfers.cases with ⟨err, herr, _⟩ | ⟨p, r, hp, _⟩
    · exact turn_hangs _ _ hhangs hsmall _ herr
    · exact turn_hangs _ _ hhangs hsmall _ hp
  · obtain ⟨p, hp, hothers, _⟩ := small_ends hsmall hlarge hends hthrows
    rcases htransfers.cases with ⟨err, herr, _⟩ | ⟨p', r, hp', hr, _⟩
    · have hne := hp.unique herr
      contradiction
    · obtain rfl := Except.ok.inj (hp.unique hp')
      exact turn_hangs _ _ hhangs hothers _ hr

/-- What is good for a command: it holds of a command that throws, of one that lists an
error at which its loop breaks, and of one that lists all of its files just when none of
them is lost. -/
structure Good (t : Transfer α V) (files : List (V × (Nat → α)))
    (Q : Except String (List Meta) → Prop) : Prop where
  throws : ∀ err, Q (.error err)
  fails : t.breaks = true → ∀ metas, (∃ file ∈ metas, file.resultStatus = some .error) →
    Q (.ok metas)
  lists : ∀ metas, List.Forall₂ (Accounted t) files metas →
    (Q (.ok metas) ↔ ∀ x ∈ files, ¬ t.Settles x .lost)

/-- A command comes to an end exactly when its loops do not hang. -/
theorem ends_iff (hsmall : Untried t (smallFileMetas jobs) small)
    (hlarge : Untried t (largeFileMetas jobs) large) :
    (∃ o, TransfersTo t jobs o) ↔
      ¬ t.Hangs small ∧ (¬ t.StopsAt small .throws → ¬ t.Hangs large) := by
  constructor
  · intro ⟨o, ho⟩
    refine ⟨fun hhangs => not_transfersTo hsmall hlarge (Or.inl hhangs) o ho, ?_⟩
    intro hthrows hhangs
    by_cases hsmallHangs : t.Hangs small
    · exact not_transfersTo hsmall hlarge (Or.inl hsmallHangs) o ho
    · exact not_transfersTo hsmall hlarge (Or.inr ⟨hsmallHangs, hthrows, hhangs⟩) o ho
  · intro ⟨hends, hends'⟩
    by_cases hthrough : t.Through small ∧ t.Through large
    · obtain ⟨metas, hmetas, _⟩ := transfersTo_of_through hsmall hlarge hthrough.1 hthrough.2
      exact ⟨.ok metas, hmetas⟩
    · obtain ⟨o, ho, _⟩ := ends_of_not_through hsmall hlarge hends hends' hthrough
      exact ⟨o, ho⟩

/-- A command ends well exactly when it is accountable. -/
theorem ends_well_iff {Q : Except String (List Meta) → Prop}
    (hsmall : Untried t (smallFileMetas jobs) small)
    (hlarge : Untried t (largeFileMetas jobs) large) (hQ : Good t (small ++ large) Q) :
    (∃ o, TransfersTo t jobs o ∧ Q o) ↔ Accountable t small large := by
  constructor
  · intro ⟨o, ho, hQo⟩
    obtain ⟨hends, hends'⟩ := (ends_iff hsmall hlarge).mp ⟨o, ho⟩
    refine ⟨hends, hends', ?_⟩
    intro hthrough hthrough'
    obtain ⟨metas, hmetas, haccounted⟩ :=
      transfersTo_of_through hsmall hlarge hthrough hthrough'
    obtain rfl := ho.unique hmetas
    exact (hQ.lists metas haccounted).mp hQo
  · intro h
    by_cases hthrough : t.Through small ∧ t.Through large
    · obtain ⟨metas, hmetas, haccounted⟩ :=
        transfersTo_of_through hsmall hlarge hthrough.1 hthrough.2
      exact ⟨.ok metas, hmetas, (hQ.lists metas haccounted).mpr (h.listed hthrough.1 hthrough.2)⟩
    · obtain ⟨o, ho, hends⟩ :=
        ends_of_not_through hsmall hlarge h.smallEnds h.largeEnds hthrough
      rcases hends with ⟨err, rfl⟩ | ⟨hbreaks, metas, rfl, herror⟩
      · exact ⟨_, ho, hQ.throws err⟩
      · exact ⟨_, ho, hQ.fails hbreaks metas herror⟩

end

end Transfer

end

end FileTransferAgent

end SnowflakeConnector
