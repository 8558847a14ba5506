import SnowflakeConnector.FileTransferAgent.Accounts

/-!
# SnowflakeConnector.FileTransferAgent.Renewals

What comes of the credentials of a file when an attempt finds that they have expired.  The
loop over the files is followed by a loop over the fates of their attempts, in which the
renewals that are asked for can be read off.

* `progresses_iff` -- a transfer comes to an end and tries each file again with new
  credentials exactly when its attempts come to an end and no renewal is asked for that
  obtains nothing.
* `renewals_progress_iff` -- the same of a PUT and of a GET.
-/

namespace SnowflakeConnector

namespace FileTransferAgent

open While

/-- What a request to the storage service is authorized with. -/
inductive Credentials
  | stage (stageInfo : StageInfo)
  | token (gcsToken : String)
  | url (presignedUrl : String)
  deriving DecidableEq, Repr

/-- The credentials of a file: S3 and Azure build a client from the stage for each call, GCS
uses the url or the client of the meta. -/
def credentials (stageInfo : StageInfo) (file : Meta) : Option Credentials :=
  match stageInfo.locationType with
  | .remote .gcs =>
      match file.presignedUrl with
      | some url => some (.url url)
      | none => file.client.map fun client => .token client.gcsToken
  | .remote _ => some (.stage stageInfo)
  | _ => none

section

variable {α V : Type}

/-- What is known of the credentials of a transfer; `obtained` are those that the loop asks
for after an attempt at the file of this place that ends with this status. -/
structure Renewal (t : Transfer α V) where
  credentials : Meta → Option Credentials
  obtained : Nat → α → ResultStatus → Option Credentials
  uses : ∀ (job : Job α) (url : Bool) (update : Job α → Job α) (file : Meta) (c : Credentials),
    t.Refreshes (job.attempts 0) url update →
      obtained job.index (job.attempts 0) (renewStatus url) = some c →
        credentials (update (job.again file)).file = some c

namespace Transfer

variable (t : Transfer α V)

/-- A file as the loop over the fates sees it: its place and its script. -/
def tell (job : Job α) : Nat × (V × (Nat → α)) := (job.index, t.script job)

/-- One turn of the loop over the fates, with the renewal that the attempt before has asked
for. -/
def fatesTurn (s : List (Nat × (V × (Nat → α))) × Option Bool) :
    Turn (List (Nat × (V × (Nat → α))) × Option Bool) Fate :=
  match s.1 with
  | [] => .done .definite
  | (index, v, attempts) :: rest =>
      match t.fate v s.2 (attempts 0) with
      | .renews url => .next ((index, v, fun k => attempts (k + 1)) :: rest, some url)
      | f => if f.passes t.breaks = true then .next (rest, none) else .done f

/-- In the loop over these files, this attempt is made and asks for new credentials. -/
def Asks (files : List (Nat × (V × (Nat → α)))) (index : Nat) (a : α) (url : Bool) : Prop :=
  ∃ v attempts rest stale, Reaches t.fatesTurn (files, none) ((index, v, attempts) :: rest, stale) ∧
    attempts 0 = a ∧ t.fate v stale a = .renews url

end Transfer

namespace Renewal

variable {t : Transfer α V} (r : Renewal t)

/-- The file is tried again with credentials that were obtained after the attempt. -/
def RetriedAnew (job job' : Job α) : Prop :=
  ∃ status c, job'.file.resultStatus = some status ∧
    r.obtained job.index (job.attempts 0) status = some c ∧ r.credentials job'.file = some c

/-- In the loop from these files on, a file that is not listed is tried again with new
credentials. -/
def RenewsAnew (start : Progress α) : Prop :=
  ∀ p p' job jobs job' jobs', Reaches t.turn start p → t.turn p = .next p' →
    p'.results = p.results → p.jobs = job :: jobs → p'.jobs = job' :: jobs' →
      r.RetriedAnew job job'

/-- Each renewal that is asked for in a loop obtains new credentials. -/
def AsksAnew (files : List (Nat × (V × (Nat → α)))) : Prop :=
  ∀ index a url, t.Asks files index a url → (r.obtained index a (renewStatus url)).isSome = true

/-- A transfer makes progress: its loops come to an end, and each file that is not listed is
tried again with new credentials. -/
structure Progresses (jobs : List (Job α)) : Prop where
  ends : ∃ o, Transfer.TransfersTo t jobs o
  small : r.RenewsAnew ⟨smallFileMetas jobs, largeFileMetas jobs, []⟩
  large : ∀ p, EndsWith t.turn ⟨smallFileMetas jobs, largeFileMetas jobs, []⟩ (.ok p) →
    r.RenewsAnew ⟨p.others, [], p.results⟩

/-- No file is renewed for ever, and each renewal obtains new credentials; the large files
count unless the transfer of the small ones throws. -/
structure Renewable (jobs : List (Job α)) : Prop where
  smallEnds : ¬ t.Hangs (t.small jobs)
  largeEnds : ¬ t.StopsAt (t.small jobs) .throws → ¬ t.Hangs (t.large jobs)
  small : r.AsksAnew ((smallFileMetas jobs).map t.tell)
  large : ¬ t.StopsAt (t.small jobs) .throws → r.AsksAnew ((largeFileMetas jobs).map t.tell)

end Renewal

/-! ## the two loops -/

namespace Transfer

variable {t : Transfer α V}

/-- A file with its place and all that its attempts depend on. -/
def mark (t : Transfer α V) (job : Job α) : Nat × ((V × (Nat → α)) × Option ResultStatus) :=
  (job.index, t.key job)

/-- The files of a loop as the loop over the fates sees them; `others` are the files that a
loop after it transfers. -/
structure Tells (t : Transfer α V)
    (others : List (Nat × ((V × (Nat → α)) × Option ResultStatus)))
    (p : Progress α) (s : List (Nat × (V × (Nat → α))) × Option Bool) : Prop where
  jobs : p.jobs.map t.mark = match s.1 with
    | [] => []
    | x :: rest => (x.1, (x.2, s.2.map renewStatus)) :: rest.map fun x => (x.1, (x.2, none))
  others : p.others.map t.mark = others

theorem Refreshes.map_mark {a : α} {url : Bool} {update : Job α → Job α}
    (h : t.Refreshes a url update) (jobs : List (Job α)) :
    (jobs.map update).map t.mark = jobs.map t.mark := by
  rw [List.map_map]
  apply List.map_congr_left
  intro job _
  rw [Function.comp_apply, mark, h.index_eq, h.key_eq]
  rfl

theorem Refreshes.map_mark_others {a : α} {url : Bool} {update : Job α → Job α}
    (h : t.Refreshes a url update) {others others' : List (Job α)}
    (hothers : others' = others ∨ others' = others.map update) :
    others'.map t.mark = others.map t.mark := by
  rcases hothers with rfl | rfl
  · rfl
  · exact h.map_mark others

section

variable {others : List (Nat × ((V × (Nat → α)) × Option ResultStatus))} {p : Progress α}
  {s : List (Nat × (V × (Nat → α))) × Option Bool}

/-- The first file of a loop, and the files after it. -/
theorem Tells.cons_inv {x : Nat × (V × (Nat → α))} {rest : List (Nat × (V × (Nat → α)))}
    {stale : Option Bool} (h : t.Tells others p (x :: rest, stale)) :
    ∃ job jobs, p.jobs = job :: jobs ∧ t.tell job = x ∧
      job.file.resultStatus = stale.map renewStatus ∧
      jobs.map t.mark = rest.map fun x => (x.1, (x.2, none)) := by
  have hjobs := h.jobs
  obtain ⟨job, jobs, hp, hjob, hrest⟩ := List.map_eq_cons_iff.mp hjobs
  have hindex : job.index = x.1 := congrArg Prod.fst hjob
  have hscript : t.script job = x.2 := congrArg (fun m => m.2.1) hjob
  exact ⟨job, jobs, hp, Prod.ext hindex hscript, congrArg (fun m => m.2.2) hjob, hrest⟩

theorem Tells.nil_inv {stale : Option Bool} (h : t.Tells others p ([], stale)) :
    p.jobs = [] :=
  List.map_eq_nil_iff.mp h.jobs

/-- The files after one that was listed. -/
theorem tells_rest {jobs others' : List (Job α)} {results : List Meta}
    {rest : List (Nat × (V × (Nat → α)))}
    (hjobs : jobs.map t.mark = rest.map fun x => (x.1, (x.2, none)))
    (hothers : others'.map t.mark = others) : t.Tells others ⟨jobs, others', results⟩ (rest, none) := by
  refine ⟨?_, hothers⟩
  rw [hjobs]
  cases rest <;> rfl

theorem fatesTurn_of_renews {index : Nat} {v : V} {attempts : Nat → α}
    {rest : List (Nat × (V × (Nat → α)))} {stale : Option Bool} {url : Bool}
    (h : t.fate v stale (attempts 0) = .renews url) :
    t.fatesTurn ((index, v, attempts) :: rest, stale) =
      .next ((index, v, fun k => attempts (k + 1)) :: rest, some url) := by
  simp only [fatesTurn, h]

theorem fatesTurn_of_not_renews {index : Nat} {v : V} {attempts : Nat → α}
    {rest : List (Nat × (V × (Nat → α)))} {stale : Option Bool} {f : Fate}
    (h : t.fate v stale (attempts 0) = f) (hf : ∀ url, f ≠ .renews url) :
    t.fatesTurn ((index, v, attempts) :: rest, stale) =
      if f.passes t.breaks = true then .next (rest, none) else .done f := by
  simp only [fatesTurn, h]

/-- The two loops go on together. -/
theorem Tells.step (h : t.Tells others p s) :
    (∃ p' s', t.turn p = .next p' ∧ t.fatesTurn s = .next s' ∧ t.Tells others p' s') ∨
    (∃ o f, t.turn p = .done o ∧ t.fatesTurn s = .done f ∧
      ∀ q, o = .ok q → q.others.map t.mark = others) := by
  obtain ⟨jobs, others', results⟩ := p
  obtain ⟨files, stale⟩ := s
  cases files with
  | nil =>
      obtain rfl : jobs = [] := h.nil_inv
      refine Or.inr ⟨_, _, turn_nil _ _, rfl, ?_⟩
      intro q hq
      obtain rfl := Except.ok.inj hq
      exact h.others
  | cons x rest =>
      obtain ⟨job, jobs, rfl, rfl, hstale, hrest⟩ := h.cons_inv
      have hothers : others'.map t.mark = others := h.others
      rcases turn_cases jobs others' results hstale with
        ⟨hfate, err, hturn⟩ |
        ⟨url, file, update, others'', hfate, hrefreshes, hview, hstatus, hothers', hturn⟩ |
        ⟨f, file, hfate, hlists, hturn⟩
      · exact Or.inr ⟨_, _, hturn, fatesTurn_of_not_renews hfate (by simp), fun q hq => (by cases hq)⟩
      · refine Or.inl ⟨_, _, hturn, fatesTurn_of_renews hfate, ?_, ?_⟩
        · have hkey : t.key (update (job.again file)) =
              ((t.view job.file, fun k => job.attempts (k + 1)), some (renewStatus url)) := by
            rw [hrefreshes.key_eq, key_again, hview, hstatus]
          have hindex : (update (job.again file)).index = job.index := hrefreshes.index_eq _
          rw [List.map_cons, hrefreshes.map_mark, hrest, mark, hkey, hindex]
          rfl
        · rw [hrefreshes.map_mark_others hothers', hothers]
      · have hfates : t.fatesTurn (t.tell job :: rest, stale) =
            if f.passes t.breaks = true then .next (rest, none) else .done f :=
          fatesTurn_of_not_renews hfate hlists.not_renews
        cases hpasses : f.passes t.breaks with
        | true =>
            rw [hpasses, if_pos rfl] at hturn hfates
            exact Or.inl ⟨_, _, hturn, hfates, tells_rest hrest hothers⟩
        | false =>
            rw [hpasses, if_neg (by decide)] at hturn hfates
            refine Or.inr ⟨_, _, hturn, hfates, ?_⟩
            intro q hq
            obtain rfl := Except.ok.inj hq
            exact hothers

theorem Tells.reaches {p' : Progress α} (h : t.Tells others p s) (hp : Reaches t.turn p p') :
    ∃ s', Reaches t.fatesTurn s s' ∧ t.Tells others p' s' := by
  refine hp.simulates ?_ h
  intro p s p' htells hturn
  rcases htells.step with ⟨p'', s', hturn', hfates, htells'⟩ | ⟨o, f, hdone, _, _⟩
  · rw [hturn] at hturn'
    obtain rfl := Turn.next.inj hturn'
    exact ⟨s', hfates, htells'⟩
  · rw [hturn] at hdone
    contradiction

theorem Tells.reached {s' : List (Nat × (V × (Nat → α))) × Option Bool}
    (h : t.Tells others p s) (hs : Reaches t.fatesTurn s s') :
    ∃ p', Reaches t.turn p p' ∧ t.Tells others p' s' := by
  refine hs.simulates (R := fun s p => t.Tells others p s) ?_ h
  intro s p s' htells hfates
  rcases htells.step with ⟨p', s'', hturn, hfates', htells'⟩ | ⟨o, f, _, hdone, _⟩
  · rw [hfates] at hfates'
    obtain rfl := Turn.next.inj hfates'
    exact ⟨p', hturn, htells'⟩
  · rw [hfates] at hdone
    contradiction

/-- A loop that ends leaves the places and the scripts of the other files alone. -/
theorem Tells.others_of_endsWith {q : Progress α} (h : t.Tells others p s)
    (hq : EndsWith t.turn p (.ok q)) : q.others.map t.mark = others := by
  obtain ⟨p', hreaches, hdone⟩ := hq.exists_last
  obtain ⟨s', _, htells⟩ := h.reaches hreaches
  rcases htells.step with ⟨p'', _, hturn, _, _⟩ | ⟨o, f, hdone', _, hothers⟩
  · rw [hdone] at hturn
    contradiction
  · rw [hdone] at hdone'
    exact hothers q (Turn.done.inj hdone').symm

/-- Files without a status, before the first attempt. -/
theorem tells_of_fresh {jobs others' : List (Job α)} (results : List Meta)
    (hfresh : ∀ job ∈ jobs, job.file.resultStatus = none) (hothers : others'.map t.mark = others) :
    t.Tells others ⟨jobs, others', results⟩ (jobs.map t.tell, none) := by
  refine tells_rest ?_ hothers
  rw [List.map_map]
  apply List.map_congr_left
  intro job hjob
  rw [mark, key, hfresh job hjob]
  rfl

end

end Transfer

/-! ## renewals -/

namespace Renewal

variable {t : Transfer α V} {r : Renewal t}

/-- A file is tried again with new credentials exactly when its renewal obtains some. -/
theorem retriedAnew_iff {job : Job α} {url : Bool} {update : Job α → Job α} {file : Meta}
    (hrefreshes : t.Refreshes (job.attempts 0) url update)
    (hstatus : file.resultStatus = some (renewStatus url)) :
    r.RetriedAnew job (update (job.again file)) ↔
      (r.obtained job.index (job.attempts 0) (renewStatus url)).isSome = true := by
  have hstatus' : (update (job.again file)).file.resultStatus = some (renewStatus url) := by
    have hkey := congrArg Prod.snd (hrefreshes.key_eq (job.again file))
    rw [← hstatus]
    exact hkey
  constructor
  · intro ⟨status, c, hretried, hobtained, _⟩
    obtain rfl := Option.some.inj (hstatus'.symm.trans hretried)
    rw [hobtained]
    rfl
  · intro hobtained
    obtain ⟨c, hc⟩ := Option.isSome_iff_exists.mp hobtained
    exact ⟨_, c, hstatus', hc, r.uses job url update file c hrefreshes hc⟩

/-- The renewals of a loop are those that its attempts ask for. -/
theorem renewsAnew_iff {others : List (Nat × ((V × (Nat → α)) × Option ResultStatus))}
    {p : Progress α} {files : List (Nat × (V × (Nat → α)))}
    (h : t.Tells others p (files, none)) : r.RenewsAnew p ↔ r.AsksAnew files := by
  constructor
  · intro hrenews index a url ⟨v, attempts, rest, stale, hreaches, ha, hfate⟩
    obtain ⟨⟨_, others', results⟩, hreached, htells⟩ := h.reached hreaches
    obtain ⟨job, jobs, hjobs, hjob, hstale, _⟩ := htells.cons_inv
    obtain rfl := hjobs
    obtain ⟨rfl, rfl, rfl⟩ : job.index = index ∧ t.view job.file = v ∧ job.attempts = attempts :=
      ⟨congrArg Prod.fst hjob, congrArg (fun x => x.2.1) hjob, congrArg (fun x => x.2.2) hjob⟩
    rw [← ha] at hfate ⊢
    rcases Transfer.turn_cases jobs others' results hstale with
      ⟨hfate', _⟩ | ⟨url', file, update, _, hfate', hrefreshes, _, hstatus, _, hturn⟩ |
      ⟨f, file, hfate', hlists, _⟩
    · rw [hfate] at hfate'
      contradiction
    · rw [hfate] at hfate'
      obtain rfl := Fate.renews.inj hfate'
      exact (retriedAnew_iff hrefreshes hstatus).mp
        (hrenews _ _ _ _ _ _ hreached hturn rfl rfl rfl)
    · rw [hfate] at hfate'
      exact absurd hfate'.symm (hlists.not_renews url)
  · intro hasks p' p'' job jobs job' jobs' hreached hturn hresults hjobs hjobs'
    obtain ⟨⟨files', stale⟩, hreaches, htells⟩ := h.reaches hreached
    obtain ⟨_, others', results⟩ := p'
    obtain rfl := hjobs
    cases files' with
    | nil =>
        have hnil := htells.nil_inv
        contradiction
    | cons x rest =>
        obtain ⟨job, jobs, hcons, rfl, hstale, _⟩ := htells.cons_inv
        obtain ⟨rfl, rfl⟩ := List.cons.inj hcons
        rcases Transfer.turn_cases jobs others' results hstale with
          ⟨_, err, hturn'⟩ | ⟨url, file, update, _, hfate, hrefreshes, _, hstatus, _, hturn'⟩ |
          ⟨f, file, _, _, hturn'⟩
        · rw [hturn] at hturn'
          contradiction
        · rw [hturn] at hturn'
          obtain rfl := Turn.next.inj hturn'
          obtain ⟨rfl, _⟩ := List.cons.inj hjobs'
          exact (retriedAnew_iff hrefreshes hstatus).mpr
            (hasks _ _ url ⟨_, _, rest, stale, hreaches, rfl, hfate⟩)
        · rw [hturn] at hturn'
          split at hturn'
          · obtain rfl := Turn.next.inj hturn'
            have hlength := congrArg List.length hresults
            simp at hlength
          · contradiction

/-- The small files do not throw exactly when there is a loop over the large ones. -/
theorem small_ok_iff {jobs : List (Job α)} {small large : List (V × (Nat → α))}
    (hsmall : Transfer.Untried t (smallFileMetas jobs) small)
    (hlarge : Transfer.Untried t (largeFileMetas jobs) large) (hends : ¬ t.Hangs small) :
    (∃ p, EndsWith t.turn ⟨smallFileMetas jobs, largeFileMetas jobs, []⟩ (.ok p)) ↔
      ¬ t.StopsAt small .throws := by
  constructor
  · intro ⟨p, hp⟩ hthrows
    rcases Transfer.turn_stops (largeFileMetas jobs) [] hthrows hsmall with
      ⟨_, err, herr⟩ | ⟨hfails, _⟩
    · have hne := hp.unique herr
      contradiction
    · contradiction
  · intro hthrows
    obtain ⟨p, hp, _⟩ := Transfer.small_ends hsmall hlarge hends hthrows
    exact ⟨p, hp⟩

/-- A transfer of files without a status makes progress exactly when it is renewable. -/
theorem progresses_iff {jobs : List (Job α)}
    (hfresh : ∀ job ∈ jobs, job.file.resultStatus = none) :
    r.Progresses jobs ↔ r.Renewable jobs := by
  have hsmallFresh : ∀ job ∈ smallFileMetas jobs, job.file.resultStatus = none :=
    fun job hjob => hfresh job (List.mem_of_mem_filter hjob)
  have hlargeFresh : ∀ job ∈ largeFileMetas jobs, job.file.resultStatus = none :=
    fun job hjob => hfresh job (List.mem_of_mem_filter hjob)
  have hsmall : Transfer.Untried t (smallFileMetas jobs) (t.small jobs) :=
    Transfer.untried_of_fresh hsmallFresh
  have hlarge : Transfer.Untried t (largeFileMetas jobs) (t.large jobs) :=
    Transfer.untried_of_fresh hlargeFresh
  have hstart := Transfer.tells_of_fresh (t := t) [] hsmallFresh
    (Eq.refl ((largeFileMetas jobs).map t.mark))
  have hrest : ∀ p, EndsWith t.turn ⟨smallFileMetas jobs, largeFileMetas jobs, []⟩ (.ok p) →
      (r.RenewsAnew ⟨p.others, [], p.results⟩ ↔
        r.AsksAnew ((largeFileMetas jobs).map t.tell)) := by
    intro p hp
    have hothers := hstart.others_of_endsWith hp
    have hlargeTells := Transfer.tells_of_fresh (t := t) [] hlargeFresh
      (Eq.refl (([] : List (Job α)).map t.mark))
    exact renewsAnew_iff ⟨by rw [hothers]; exact hlargeTells.jobs, rfl⟩
  constructor
  · intro h
    obtain ⟨hends, hends'⟩ := (Transfer.ends_iff hsmall hlarge).mp h.ends
    refine ⟨hends, hends', (renewsAnew_iff hstart).mp h.small, ?_⟩
    intro hthrows
    obtain ⟨p, hp⟩ := (small_ok_iff hsmall hlarge hends).mpr hthrows
    exact (hrest p hp).mp (h.large p hp)
  · intro h
    refine ⟨(Transfer.ends_iff hsmall hlarge).mpr ⟨h.smallEnds, h.largeEnds⟩,
      (renewsAnew_iff hstart).mpr h.small, ?_⟩
    intro p hp
    have hthrows := (small_ok_iff hsmall hlarge h.smallEnds).mp ⟨p, hp⟩
    exact (hrest p hp).mpr (h.large hthrows)

end Renewal

end

/-! ## PUT and GET -/

/-- After an attempt at an upload, only presigned urls are asked for; `renewExpiredClient`
asks for nothing. -/
def putObtained (stageInfo : StageInfo) (index : Nat) (a : UploadAttempt) :
    ResultStatus → Option Credentials
  | .renewPresignedUrl =>
      if asksForUrls stageInfo = true then
        match a.presign with
        | .error _ => none
        | .ok urls => (urls index).map .url
      else none
  | _ => none

def putRenewal (stageInfo : StageInfo) : Renewal (putTransfer stageInfo) where
  credentials := credentials stageInfo
  obtained := putObtained stageInfo
  uses job url update file c hrefreshes hobtained := by
    cases url with
    | false => contradiction
    | true =>
        obtain ⟨hurl, _⟩ | ⟨_, hrefresh⟩ := hrefreshes
        · contradiction
        · have hobtained : putObtained stageInfo job.index (job.attempts 0) .renewPresignedUrl =
              some c := hobtained
          have hrefresh : updatePutUrls stageInfo (job.attempts 0).presign = .ok update := hrefresh
          rw [putObtained] at hobtained
          by_cases hasks : asksForUrls stageInfo = true
          · rw [if_pos hasks] at hobtained
            rw [updatePutUrls, if_pos hasks] at hrefresh
            obtain ⟨urls, hpresign, rfl⟩ := Loops.map_eq_ok_iff.mp hrefresh
            rw [hpresign] at hobtained
            obtain ⟨url, hurl, rfl⟩ := Option.map_eq_some_iff.mp hobtained
            have hlocation : stageInfo.locationType = .remote .gcs := by
              simp [asksForUrls] at hasks
              exact hasks.1
            have hfile : (Job.setPresignedUrl urls (job.again file)).file.presignedUrl = some url :=
              hurl
            rw [credentials, hlocation]
            simp only [hfile]
          · rw [if_neg hasks] at hobtained
            contradiction

/-- After an attempt at a download nothing is asked for: the urls are those of the answer to
the command once more. -/
def getRenewal (data : GetData) : Renewal (getTransfer data) where
  credentials := credentials data.stageInfo
  obtained _ _ _ := none
  uses _ _ _ _ _ _ hobtained := by contradiction

/-- A PUT or a GET comes to an end and tries each file again with credentials obtained after
its renewal, exactly when no file is renewed for ever and each renewal that is asked for
obtains new credentials. -/
theorem renewals_progress_iff (putData : PutData) (put : PutEvents) (getData : GetData)
    (get : GetEvents) :
    ((∀ jobs, putJobs putData put = .ok jobs → (putRenewal putData.stageInfo).Progresses jobs) ↔
      ∀ jobs, putJobs putData put = .ok jobs → (putRenewal putData.stageInfo).Renewable jobs) ∧
    ((∀ jobs, getJobs getData get = .ok jobs → (getRenewal getData).Progresses jobs) ↔
      ∀ jobs, getJobs getData get = .ok jobs → (getRenewal getData).Renewable jobs) := by
  constructor
  · apply forall_congr'
    intro jobs
    exact forall_congr' fun h => Renewal.progresses_iff (put_fresh h)
  · apply forall_congr'
    intro jobs
    exact forall_congr' fun h => Renewal.progresses_iff (get_fresh h)

/-! ## a token that stays expired -/

/-- An upload to S3 that is refused because the token has expired. -/
def refusedUpload : UploadAttempt where
  mkdtemp := .ok ()
  compressFileWithGZIP := .error ""
  getDigestAndSizeForFile := .ok ("digest", 10)
  copy := .ok ()
  encryptFile := .ok (⟨"", "", none⟩, "")
  tries _ := ⟨.expiredToken none none, .expiredToken none⟩
  checks _ := .notFound
  rm := .ok ()
  presign := .ok fun _ => none

/-- A PUT of one file with a token that has expired. -/
def refusedPut : PutEvents where
  fileName := "/tmp/a.csv"
  parseCommand := .ok [⟨"a.csv", "/tmp/a.csv", 10⟩]
  processFileCompressionType _ := .ok ⟨false, "a.csv", none⟩
  mkdir := .ok ()
  transferAccelerateConfig := .ok ()
  presign := .ok fun _ => none
  createClient := .ok none
  attempts _ _ := refusedUpload

/-- The file of that PUT. -/
def refusedJob : Job UploadAttempt where
  index := 0
  file := {
    srcFileName := "a.csv"
    srcFilePath := "/tmp/a.csv"
    dstFileName := "a.csv"
    srcFileSize := some 10 }
  attempts _ := refusedUpload

theorem refusedJob_renews (stale : Option Bool) :
    (putTransfer putToS3.stageInfo).fate (uploadView refusedJob.file) stale refusedUpload =
      .renews false := by
  rcases stale with _ | (_ | _) <;> rfl

theorem refusedJob_hangs :
    (putTransfer putToS3.stageInfo).Hangs ((putTransfer putToS3.stageInfo).small [refusedJob]) := by
  refine ⟨[], (uploadView refusedJob.file, fun _ => refusedUpload), [], rfl,
    Transfer.through_nil _, ?_⟩
  intro f hsettles
  refine not_endsWith (P := fun s => ∀ k, s.2 k = refusedUpload) ?_ (fun _ => rfl) hsettles
  intro ⟨stale, attempts⟩ hattempts
  have hfate := refusedJob_renews stale
  rw [← hattempts 0] at hfate
  exact ⟨_, Transfer.fateTurn_of_renews hfate, fun k => hattempts (k + 1)⟩

/-- The PUT does not come to an end: each attempt uses the token of the stage. -/
theorem expired_token_repeats :
    putJobs putToS3 refusedPut = .ok [refusedJob] ∧
      (∀ fuel, executePut putToS3 refusedPut fuel = none) ∧
      ¬ ∀ jobs, putJobs putToS3 refusedPut = .ok jobs →
        (putRenewal putToS3.stageInfo).Progresses jobs := by
  have hjobs : putJobs putToS3 refusedPut = .ok [refusedJob] := rfl
  have hends : ¬ ∃ o, Transfer.TransfersTo (putTransfer putToS3.stageInfo) [refusedJob] o := by
    rw [Transfer.ends_iff (Transfer.untried_of_fresh fun job hjob =>
        put_fresh hjobs job (List.mem_of_mem_filter hjob))
      (Transfer.untried_of_fresh fun job hjob => put_fresh hjobs job (List.mem_of_mem_filter hjob))]
    exact fun h => h.1 refusedJob_hangs
  refine ⟨hjobs, ?_, fun h => hends (h _ hjobs).ends⟩
  intro fuel
  rw [Option.eq_none_iff_forall_ne_some]
  intro o ho
  exact hends ⟨o, (executePut_iff hjobs).mp ⟨fuel, ho⟩⟩

end FileTransferAgent

end SnowflakeConnector
