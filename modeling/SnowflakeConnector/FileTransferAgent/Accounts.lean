import SnowflakeConnector.FileTransferAgent.Attempts

/-!
# SnowflakeConnector.FileTransferAgent.Accounts

What a PUT or a GET says about the files that it was asked to transfer: `execute` throws,
`result` throws, or each file is listed once with a status that is confirmed.

* `files_accounted_iff` -- a command accounts for its files exactly when no file is renewed
  for ever and, unless the command throws, none is lost.
-/

namespace SnowflakeConnector

namespace FileTransferAgent

/-- Each row is a file of the results, with a status that is confirmed. -/
def PutRow.Tells (row : PutRow) (file : Meta) : Prop :=
  row.status = file.resultStatus ∧ file.Definite

def GetRow.Tells (row : GetRow) (file : Meta) : Prop :=
  row.status = file.resultStatus ∧ file.Definite

/-- A PUT that leaves `o` accounts for its files: if neither `execute` nor `result` throws,
the rows are those of the files that were asked for. -/
def PutAccounts (e : PutEvents) (o : Except String (List Meta)) : Prop :=
  ∀ metas rows filesToPut, o = .ok metas → putResult metas = .ok rows →
    e.parseCommand = .ok filesToPut →
    (rows.map PutRow.source).Perm (filesToPut.map SrcFile.srcFileName) ∧
      List.Forall₂ (fun file row => PutRow.Tells row file) metas rows

def GetAccounts (data : GetData) (o : Except String (List Meta)) : Prop :=
  ∀ metas, o = .ok metas →
    ((getResult metas).map GetRow.file).Perm data.srcLocations ∧
      List.Forall₂ (fun file row => GetRow.Tells row file) metas (getResult metas)

/-! ## the files of a command -/

section

variable {α V : Type} {jobs : List (Job α)}

theorem perm_small_large (jobs : List (Job α)) :
    (smallFileMetas jobs ++ largeFileMetas jobs).Perm jobs :=
  List.perm_append_comm.trans (List.filter_append_perm (fun job => isLarge job) jobs)

namespace Transfer

variable (t : Transfer α V)

/-- The scripts of the small and of the large files of a command. -/
def small (jobs : List (Job α)) : List (V × (Nat → α)) := (smallFileMetas jobs).map t.script

def large (jobs : List (Job α)) : List (V × (Nat → α)) := (largeFileMetas jobs).map t.script

variable {t}

theorem untried_of_fresh (h : ∀ job ∈ jobs, job.file.resultStatus = none) :
    Untried t jobs (jobs.map t.script) := by
  rw [Untried, List.map_map]
  apply List.map_congr_left
  intro job hjob
  rw [key, h job hjob]
  rfl

/-- A command over files without a status ends well exactly when it is accountable. -/
theorem ends_well_iff_of_fresh {Q : Except String (List Meta) → Prop}
    (hfresh : ∀ job ∈ jobs, job.file.resultStatus = none)
    (hQ : Good t (t.small jobs ++ t.large jobs) Q) :
    (∃ o, TransfersTo t jobs o ∧ Q o) ↔ Accountable t (t.small jobs) (t.large jobs) :=
  ends_well_iff (untried_of_fresh fun job hjob => hfresh job (List.mem_of_mem_filter hjob))
    (untried_of_fresh fun job hjob => hfresh job (List.mem_of_mem_filter hjob)) hQ

theorem perm_scripts (jobs : List (Job α)) :
    (t.small jobs ++ t.large jobs).Perm (jobs.map t.script) := by
  rw [small, large, ← List.map_append]
  exact (perm_small_large jobs).map t.script

/-- A file that the loop gets past is listed with a definite status unless it is lost. -/
theorem Accounted.definite_iff {x : V × (Nat → α)} {file : Meta} (h : Accounted t x file) :
    file.Definite ↔ ¬ t.Settles x .lost := by
  obtain ⟨f, hsettles, hpasses, hlists⟩ := h
  cases f with
  | lost =>
      have hnot : ¬ file.Definite := hlists.lists
      exact ⟨fun h => absurd h hnot, fun h => absurd hsettles h⟩
  | definite =>
      have hdefinite := hlists.lists.1
      exact ⟨fun _ hlost => (by cases hsettles.unique hlost), fun _ => hdefinite⟩
  | fails =>
      have hstatus : file.resultStatus = some .error := hlists.lists
      have hdefinite : file.Definite := by simp [Meta.Definite, hstatus]
      exact ⟨fun _ hlost => (by cases hsettles.unique hlost), fun _ => hdefinite⟩
  | throws | renews _ => contradiction

/-- Where an error ends the loop, a file that the loop gets past is not one. -/
theorem Accounted.not_error {x : V × (Nat → α)} {file : Meta} (h : Accounted t x file)
    (hbreaks : t.breaks = true) : file.resultStatus ≠ some .error := by
  obtain ⟨f, _, hpasses, hlists⟩ := h
  rw [hbreaks] at hpasses
  cases f with
  | definite => exact hlists.lists.2 hbreaks
  | lost =>
      have hnot : ¬ file.Definite := hlists.lists
      intro hstatus
      exact hnot (by simp [Meta.Definite, hstatus])
  | fails | throws | renews _ => contradiction

/-- The files are all definite exactly when none is lost. -/
theorem definite_iff_of_accounted {files : List (V × (Nat → α))} {metas : List Meta}
    (h : List.Forall₂ (Accounted t) files metas) :
    (∀ file ∈ metas, file.Definite) ↔ ∀ x ∈ files, ¬ t.Settles x .lost := by
  constructor
  · intro hdefinite x hx
    obtain ⟨file, hfile, haccounted⟩ := Loops.exists_of_forall₂_left h x hx
    exact haccounted.definite_iff.mp (hdefinite file hfile)
  · intro hlost file hfile
    obtain ⟨x, hx, haccounted⟩ := Loops.exists_of_forall₂_right h file hfile
    exact haccounted.definite_iff.mpr (hlost x hx)

theorem map_view_of_accounted {files : List (V × (Nat → α))} {metas : List Meta}
    (h : List.Forall₂ (Accounted t) files metas) : metas.map t.view = files.map Prod.fst := by
  induction h with
  | nil => rfl
  | cons haccounted _ ih =>
      obtain ⟨_, _, _, hlists⟩ := haccounted
      rw [List.map_cons, List.map_cons, ih, hlists.view]

end Transfer

end

/-! ## PUT -/

/-- What the preparation of a file leaves alone. -/
def putKey (file : Meta) : String × Option Nat × Option ResultStatus :=
  (file.srcFileName, file.srcFileSize, file.resultStatus)

theorem map_putKey_compressed {compressions : List Compression} {files : List Meta}
    (h : compressions.length = files.length) :
    (List.zipWith Compression.apply compressions files).map putKey = files.map putKey := by
  induction files generalizing compressions with
  | nil => rw [List.zipWith_nil_right]
  | cons file files ih =>
      cases compressions with
      | nil => cases h
      | cons c compressions =>
          rw [List.zipWith_cons_cons, List.map_cons, ih (Nat.succ.inj h)]
          rfl

theorem startTransfers_files {α β : Type} {f : Meta → β}
    (hf : ∀ (client : Option Client) (file : Meta), f { file with client } = f file)
    {location : LocationType} {createClient : Except String (Option Client)}
    {jobs jobs' : List (Job α)} (h : startTransfers location createClient jobs = .ok jobs') :
    jobs'.map (fun job => f job.file) = jobs.map fun job => f job.file := by
  have hclient : ∀ client, (jobs.map (Job.setClient client)).map (fun job => f job.file) =
      jobs.map fun job => f job.file := by
    intro client
    rw [List.map_map]
    apply List.map_congr_left
    intro job _
    exact hf client job.file
  cases location with
  | other name => contradiction
  | localFs =>
      obtain rfl := Except.ok.inj h
      exact hclient none
  | remote location =>
      obtain ⟨client, _, rfl⟩ := Loops.map_eq_ok_iff.mp h
      exact hclient client

/-- What is known of the files of a PUT before the first upload. -/
theorem putJobs_files {data : PutData} {e : PutEvents} {jobs : List (Job UploadAttempt)}
    (h : putJobs data e = .ok jobs) :
    ∃ filesToPut, e.parseCommand = .ok filesToPut ∧ jobs.map (fun job => putKey job.file) =
      filesToPut.map fun file => (file.srcFileName, some file.srcFileSize, none) := by
  obtain ⟨prepared, hprepared, hstart⟩ := Loops.bind_eq_ok_iff.mp h
  obtain ⟨filesToPut, hparse, h⟩ := Loops.bind_eq_ok_iff.mp hprepared
  obtain ⟨_, _, h⟩ := Loops.bind_eq_ok_iff.mp h
  obtain ⟨compressions, hcompressions, h⟩ := Loops.bind_eq_ok_iff.mp h
  obtain ⟨_, _, h⟩ := Loops.bind_eq_ok_iff.mp h
  obtain ⟨_, _, h⟩ := Loops.bind_eq_ok_iff.mp h
  obtain ⟨update, hupdate, h⟩ := Loops.bind_eq_ok_iff.mp h
  obtain rfl := Except.ok.inj h
  refine ⟨filesToPut, hparse, ?_⟩
  have hlength : compressions.length = (initFileMetadata data filesToPut).length := by
    rw [initFileMetadata, List.length_map]
    exact (Loops.mapM_eq_ok_iff.mp hcompressions).length_eq.symm
  have hkey : ∀ job, putKey (update job).file = putKey job.file := by
    obtain rfl | ⟨urls, rfl⟩ := updatePutUrls_eq_ok hupdate <;> exact fun _ => rfl
  have hprepared' : (List.mapIdx (fun index file => update ⟨index, file, e.attempts index⟩)
      (List.zipWith Compression.apply compressions (initFileMetadata data filesToPut))).map
        (fun job => putKey job.file) =
      (List.zipWith Compression.apply compressions (initFileMetadata data filesToPut)).map putKey := by
    apply Loops.map_mapIdx_eq_map
    intro i file
    exact hkey _
  rw [startTransfers_files (fun _ _ => rfl) hstart, hprepared', map_putKey_compressed hlength,
    initFileMetadata, List.map_map]
  rfl

/-- The row of a file that is no error and has its sizes. -/
theorem putRow_eq_ok {file : Meta} (herror : file.resultStatus ≠ some .error)
    (hsrc : file.srcFileSize.isSome = true) (hdst : file.dstFileSize.isSome = true) :
    ∃ row, putRow file = .ok row := by
  obtain ⟨srcFileSize, hsrc⟩ := Option.isSome_iff_exists.mp hsrc
  obtain ⟨dstFileSize, hdst⟩ := Option.isSome_iff_exists.mp hdst
  rw [putRow, if_neg herror, hsrc, hdst]
  exact ⟨_, rfl⟩

theorem putRow_of_eq_ok {file : Meta} {row : PutRow} (h : putRow file = .ok row) :
    file.resultStatus ≠ some .error ∧ row.source = file.srcFileName ∧
      row.status = file.resultStatus := by
  unfold putRow at h
  split at h
  · contradiction
  · next herror =>
    split at h
    · obtain rfl := Except.ok.inj h
      exact ⟨herror, rfl, rfl⟩
    · contradiction

/-- The rows of the results are those of the files. -/
theorem putResult_rows {metas : List Meta} {rows : List PutRow} (h : putResult metas = .ok rows) :
    rows.map PutRow.source = metas.map Meta.srcFileName ∧
      List.Forall₂ (fun file row => row.status = file.resultStatus) metas rows := by
  have hrows := Loops.mapM_eq_ok_iff.mp h
  refine ⟨?_, hrows.imp fun file row hrow => (putRow_of_eq_ok hrow).2.2⟩
  clear h
  induction hrows with
  | nil => rfl
  | cons hrow _ ih => rw [List.map_cons, List.map_cons, ih, (putRow_of_eq_ok hrow).2.1]

/-- The files that a PUT lists have rows. -/
theorem putRow_of_accounted {data : PutData} {e : PutEvents} {jobs : List (Job UploadAttempt)}
    (h : putJobs data e = .ok jobs) {x : UploadView × (Nat → UploadAttempt)} {file : Meta}
    (hx : x ∈ jobs.map (putTransfer data.stageInfo).script)
    (haccounted : Transfer.Accounted (putTransfer data.stageInfo) x file) :
    ∃ row, putRow file = .ok row := by
  have hnot := haccounted.not_error rfl
  obtain ⟨_, _, _, hlists⟩ := haccounted
  refine putRow_eq_ok hnot ?_ hlists.dstFileSize
  obtain ⟨job, hjob, rfl⟩ := List.mem_map.mp hx
  obtain ⟨filesToPut, _, hfiles⟩ := putJobs_files h
  have hkey : putKey job.file ∈ jobs.map fun job => putKey job.file := List.mem_map_of_mem hjob
  rw [hfiles] at hkey
  obtain ⟨src, _, hsrc⟩ := List.mem_map.mp hkey
  have hsize : file.srcFileSize = job.file.srcFileSize := congrArg UploadView.srcFileSize hlists.view
  have hsome : job.file.srcFileSize = some src.srcFileSize := (congrArg (fun k => k.2.1) hsrc).symm
  rw [hsize, hsome]
  rfl

/-- What the files of a command are called does not change. -/
theorem perm_names {α V : Type} {t : Transfer α V} {jobs : List (Job α)} {metas : List Meta}
    (h : List.Forall₂ (Transfer.Accounted t) (t.small jobs ++ t.large jobs) metas) :
    (metas.map t.view).Perm (jobs.map fun job => t.view job.file) := by
  rw [Transfer.map_view_of_accounted h]
  have hperm := (Transfer.perm_scripts (t := t) jobs).map Prod.fst
  rw [List.map_map] at hperm
  exact hperm

theorem put_good {data : PutData} {e : PutEvents} {jobs : List (Job UploadAttempt)}
    (h : putJobs data e = .ok jobs) :
    Transfer.Good (putTransfer data.stageInfo)
      ((putTransfer data.stageInfo).small jobs ++ (putTransfer data.stageInfo).large jobs)
      (PutAccounts e) := by
  refine ⟨fun err metas rows filesToPut ho => (by cases ho), ?_, ?_⟩
  · intro _ metas ⟨file, hfile, hstatus⟩ metas' rows filesToPut ho hrows
    obtain rfl := Except.ok.inj ho
    obtain ⟨row, _, hrow⟩ := Loops.exists_of_forall₂_left (Loops.mapM_eq_ok_iff.mp hrows) file hfile
    exact absurd hstatus (putRow_of_eq_ok hrow).1
  · intro metas haccounted
    obtain ⟨filesToPut, hparse, hfiles⟩ := putJobs_files h
    rw [← Transfer.definite_iff_of_accounted haccounted]
    constructor
    · intro hQ
      have hrow : ∀ file ∈ metas, ∃ row, putRow file = .ok row := by
        intro file hfile
        obtain ⟨x, hx, hacc⟩ := Loops.exists_of_forall₂_right haccounted file hfile
        exact putRow_of_accounted h ((Transfer.perm_scripts jobs).mem_iff.mp hx) hacc
      obtain ⟨rows, hrows⟩ := Loops.forall₂_of_forall_exists hrow
      have htells := (hQ metas rows filesToPut rfl (Loops.mapM_eq_ok_iff.mpr hrows) hparse).2
      intro file hfile
      obtain ⟨row, _, htell⟩ := Loops.exists_of_forall₂_left htells file hfile
      exact htell.2
    · intro hdefinite metas' rows filesToPut' ho hrows hparse'
      obtain rfl := Except.ok.inj ho
      obtain rfl := Except.ok.inj (hparse.symm.trans hparse')
      obtain ⟨hsource, hstatus⟩ := putResult_rows hrows
      have hnames : (metas.map Meta.srcFileName).Perm (filesToPut.map SrcFile.srcFileName) := by
        have hjobs := congrArg (List.map Prod.fst) hfiles
        have hviews := (perm_names haccounted).map UploadView.srcFileName
        rw [List.map_map, List.map_map] at hjobs hviews
        have hjobs : jobs.map (fun job => job.file.srcFileName) =
            filesToPut.map SrcFile.srcFileName := hjobs
        rw [← hjobs]
        exact hviews
      rw [hsource]
      refine ⟨hnames, ?_⟩
      have hboth := (List.forall₂_and_left metas rows).mpr ⟨hdefinite, hstatus⟩
      exact hboth.imp fun file row htell => ⟨htell.2, htell.1⟩

/-! ## GET -/

/-- What is known of the files of a GET before the first download. -/
theorem getJobs_files {data : GetData} {e : GetEvents} {jobs : List (Job DownloadAttempt)}
    (h : getJobs data e = .ok jobs) :
    jobs.map (fun job => (job.file.dstFileName, job.file.resultStatus)) =
      data.srcLocations.map fun fileName => (fileName, none) := by
  obtain ⟨prepared, hprepared, hstart⟩ := Loops.bind_eq_ok_iff.mp h
  obtain ⟨_, _, h⟩ := Loops.bind_eq_ok_iff.mp hprepared
  obtain ⟨_, _, h⟩ := Loops.bind_eq_ok_iff.mp h
  obtain ⟨_, _, h⟩ := Loops.bind_eq_ok_iff.mp h
  obtain ⟨_, _, h⟩ := Loops.bind_eq_ok_iff.mp h
  obtain ⟨update, hupdate, h⟩ := Loops.bind_eq_ok_iff.mp h
  obtain rfl := Except.ok.inj h
  have hkey : ∀ job, ((update job).file.dstFileName, (update job).file.resultStatus) =
      (job.file.dstFileName, job.file.resultStatus) := by
    obtain rfl | ⟨urls, rfl⟩ := updateGetUrls_eq_ok hupdate <;> exact fun _ => rfl
  rw [startTransfers_files (f := fun file => (file.dstFileName, file.resultStatus))
    (fun _ _ => rfl) hstart]
  apply Loops.map_mapIdx_eq_map
  intro i fileName
  exact hkey _

theorem get_good {data : GetData} {e : GetEvents} {jobs : List (Job DownloadAttempt)}
    (h : getJobs data e = .ok jobs) :
    Transfer.Good (getTransfer data)
      ((getTransfer data).small jobs ++ (getTransfer data).large jobs) (GetAccounts data) := by
  refine ⟨fun err metas ho => (by cases ho), fun hbreaks => (by cases hbreaks), ?_⟩
  intro metas haccounted
  rw [← Transfer.definite_iff_of_accounted haccounted]
  constructor
  · intro hQ file hfile
    obtain ⟨row, _, htell⟩ := Loops.exists_of_forall₂_left (hQ metas rfl).2 file hfile
    exact htell.2
  · intro hdefinite metas' ho
    obtain rfl := Except.ok.inj ho
    have hnames : (metas.map Meta.dstFileName).Perm data.srcLocations := by
      have hjobs := congrArg (List.map Prod.fst) (getJobs_files h)
      rw [List.map_map, List.map_map] at hjobs
      have hjobs : jobs.map (fun job => job.file.dstFileName) = data.srcLocations.map id := hjobs
      rw [List.map_id] at hjobs
      rw [← hjobs]
      exact perm_names haccounted
    rw [getResult, List.map_map]
    refine ⟨hnames, ?_⟩
    rw [List.forall₂_map_right_iff, List.forall₂_same]
    exact fun file hfile => ⟨rfl, hdefinite file hfile⟩

/-! ## every file is accounted for -/

theorem executePut_iff {data : PutData} {e : PutEvents} {jobs : List (Job UploadAttempt)}
    (h : putJobs data e = .ok jobs) {o : Except String (List Meta)} :
    (∃ fuel, executePut data e fuel = some o) ↔
      Transfer.TransfersTo (putTransfer data.stageInfo) jobs o := by
  simp only [executePut, h]
  rfl

theorem executeGet_iff {data : GetData} {e : GetEvents} {jobs : List (Job DownloadAttempt)}
    (h : getJobs data e = .ok jobs) {o : Except String (List Meta)} :
    (∃ fuel, executeGet data e fuel = some o) ↔ Transfer.TransfersTo (getTransfer data) jobs o := by
  simp only [executeGet, h]
  rfl

/-- The files of a command before the first attempt at them. -/
theorem put_fresh {data : PutData} {e : PutEvents} {jobs : List (Job UploadAttempt)}
    (h : putJobs data e = .ok jobs) : ∀ job ∈ jobs, job.file.resultStatus = none := by
  intro job hjob
  obtain ⟨filesToPut, _, hfiles⟩ := putJobs_files h
  have hkey : putKey job.file ∈ jobs.map fun job => putKey job.file := List.mem_map_of_mem hjob
  rw [hfiles] at hkey
  obtain ⟨src, _, hsrc⟩ := List.mem_map.mp hkey
  exact (congrArg (fun k => k.2.2) hsrc).symm

theorem get_fresh {data : GetData} {e : GetEvents} {jobs : List (Job DownloadAttempt)}
    (h : getJobs data e = .ok jobs) : ∀ job ∈ jobs, job.file.resultStatus = none := by
  intro job hjob
  have hkey : (job.file.dstFileName, job.file.resultStatus) ∈
      jobs.map fun job => (job.file.dstFileName, job.file.resultStatus) :=
    List.mem_map_of_mem hjob
  rw [getJobs_files h] at hkey
  obtain ⟨fileName, _, hname⟩ := List.mem_map.mp hkey
  exact (congrArg Prod.snd hname).symm

theorem put_accounted_iff (data : PutData) (e : PutEvents) :
    (∃ fuel o, executePut data e fuel = some o ∧ PutAccounts e o) ↔
      ∀ jobs, putJobs data e = .ok jobs →
        Transfer.Accountable (putTransfer data.stageInfo)
          ((putTransfer data.stageInfo).small jobs) ((putTransfer data.stageInfo).large jobs) := by
  rw [exists_comm]
  simp only [exists_and_right]
  cases hjobs : putJobs data e with
  | error err =>
      constructor
      · exact fun _ jobs h => (by cases h)
      · exact fun _ => ⟨.error err, ⟨0, by rw [executePut, hjobs]⟩, fun _ _ _ ho => (by cases ho)⟩
  | ok jobs =>
      simp only [executePut_iff hjobs, Except.ok.injEq, forall_eq']
      exact Transfer.ends_well_iff_of_fresh (put_fresh hjobs) (put_good hjobs)

theorem get_accounted_iff (data : GetData) (e : GetEvents) :
    (∃ fuel o, executeGet data e fuel = some o ∧ GetAccounts data o) ↔
      ∀ jobs, getJobs data e = .ok jobs →
        Transfer.Accountable (getTransfer data)
          ((getTransfer data).small jobs) ((getTransfer data).large jobs) := by
  rw [exists_comm]
  simp only [exists_and_right]
  cases hjobs : getJobs data e with
  | error err =>
      constructor
      · exact fun _ jobs h => (by cases h)
      · exact fun _ => ⟨.error err, ⟨0, by rw [executeGet, hjobs]⟩, fun _ ho => (by cases ho)⟩
  | ok jobs =>
      simp only [executeGet_iff hjobs, Except.ok.injEq, forall_eq']
      exact Transfer.ends_well_iff_of_fresh (get_fresh hjobs) (get_good hjobs)

/-- A PUT or a GET ends and accounts for its files exactly when the attempts at them are
accountable. -/
theorem files_accounted_iff (putData : PutData) (put : PutEvents) (getData : GetData)
    (get : GetEvents) :
    ((∃ fuel o, executePut putData put fuel = some o ∧ PutAccounts put o) ↔
      ∀ jobs, putJobs putData put = .ok jobs →
        Transfer.Accountable (putTransfer putData.stageInfo)
          ((putTransfer putData.stageInfo).small jobs)
          ((putTransfer putData.stageInfo).large jobs)) ∧
    ((∃ fuel o, executeGet getData get fuel = some o ∧ GetAccounts getData o) ↔
      ∀ jobs, getJobs getData get = .ok jobs →
        Transfer.Accountable (getTransfer getData)
          ((getTransfer getData).small jobs) ((getTransfer getData).large jobs)) :=
  ⟨put_accounted_iff putData put, get_accounted_iff getData get⟩

/-! ## a file that is lost -/

/-- A PUT of one file whose compression fails. -/
def failingCompression : PutEvents where
  fileName := "/tmp/a.csv"
  parseCommand := .ok [⟨"a.csv", "/tmp/a.csv", 10⟩]
  processFileCompressionType _ := .ok ⟨true, "a.csv.gz", some "gzip"⟩
  mkdir := .ok ()
  transferAccelerateConfig := .ok ()
  presign := .ok fun _ => none
  createClient := .ok none
  attempts _ _ :=
    { mkdtemp := .ok ()
      compressFileWithGZIP := .error "Error: unexpected end of file"
      getDigestAndSizeForFile := .ok ("digest", 10)
      copy := .ok ()
      encryptFile := .ok (⟨"", "", none⟩, "")
      tries _ := ⟨.notFound, .done none⟩
      checks _ := .notFound
      rm := .ok ()
      presign := .ok fun _ => none }

def putToS3 : PutData where
  command := .upload
  stageInfo := ⟨.remote .s3, none⟩
  overwrite := false
  encryptionMaterial := none

/-- The file that could not be compressed is listed without a status. -/
theorem undefined_status_listed :
    ∃ fuel metas rows, executePut putToS3 failingCompression fuel = some (.ok metas) ∧
      putResult metas = .ok rows ∧ rows.map PutRow.status = [none] ∧
      ¬ PutAccounts failingCompression (.ok metas) := by
  have hexecute : executePut putToS3 failingCompression 2 = some (.ok
      [{ srcFileName := "a.csv"
         srcFilePath := "/tmp/a.csv"
         dstFileName := "a.csv.gz"
         realSrcFilePath := "/tmp/a.csv"
         srcFileSize := some 10
         dstFileSize := some 0
         dstCompressionType := some "gzip"
         requireCompress := true
         errorDetails := some
          "Error: unexpected end of file file=a.csv, real file=/tmp/a.csv" }]) := by decide
  refine ⟨2, _, _, hexecute, rfl, rfl, ?_⟩
  intro h
  have htells := (h _ _ _ rfl rfl rfl).2
  cases htells with
  | cons htell _ => exact htell.2

end FileTransferAgent

end SnowflakeConnector
