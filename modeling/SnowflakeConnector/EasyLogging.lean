import SnowflakeConnector.ClientConfiguration
import SnowflakeConnector.Lts

/-!
# SnowflakeConnector.EasyLogging

`init` of `lib/logger/easy_logging_starter.js`, with which every connection tries to configure the
logger while it connects, over `getClientConfig` of `lib/configuration/client_configuration.js` on
a POSIX system.  The descriptor and the text that was read are shared by the calls that are under
way, and the files are not left alone meanwhile.

* `configured_of_file` -- whose text configures the logger.
-/

namespace SnowflakeConnector

namespace EasyLogging

open ClientConfiguration Lts

/-! ## the code -/

structure File where
  stats : Stats
  content : List Char
  deriving DecidableEq, Repr

/-- What a path leads to. -/
inductive Entry
  | file (ino : Nat)
  | symlink (ino : Nat)
  deriving DecidableEq, Repr

def Entry.ino : Entry → Nat
  | .file ino | .symlink ino => ino

/-- An open descriptor; once it has been read it stands behind the text. -/
structure Handle where
  ino : Nat
  consumed : Bool
  closed : Bool
  deriving DecidableEq, Repr

/-- What the logger is configured with, and whence. -/
structure Settings where
  configPath : String
  level : Int
  filePath : String
  deriving DecidableEq, Repr

/-- What a call of `init` waits for.  A descriptor is read as it was when the reading began: which
one it is, unless it was closed already, and which version its file was of. -/
inductive Phase
  | idle
  | finding (given : Option String)
  | opening (given : Option String) (path : String)
  | stating (given : Option String) (path : String) (fd : Nat)
  | reading (given : Option String) (path : String) (openStats : Stats) (fd : Option Nat)
      (version : Nat)
  | checking (given : Option String) (path : String) (openStats : Stats)
  | closing (given : Option String) (path : String) (err : Option String)
  | preparing (given : Option String) (settings : Settings)
  | done (err : Option String)
  deriving DecidableEq, Repr

/-- The variables of the two modules and the files: the versions of each, and what was linked to
the paths, the last ones being in force.  `configured` is a history. -/
structure State (ι : Type*) where
  phase : ι → Phase
  fd : Option Nat
  configFileContents : Option (List Char)
  initTrialParameters : Option (Option String)
  handles : List Handle
  inodes : List (List File)
  entries : List (String × Option Entry)
  configured : List Settings

inductive Event (ι : Type*)
  | init (i : ι) (configFilePathFromConnectionString : Option String)
  | found (i : ι) (env : Environment)
  | opened (i : ι) (result : Except String Unit)
  | stats (i : ι) (result : Except String Stats)
  | read (i : ι) (result : Except String (List Char))
  | checked (i : ι) (result : Except String Stats)
  | closed (i : ι) (result : Except String Unit)
  | prepared (i : ι) (result : Except String Unit)
  | create (file : File)
  | write (ino : Nat) (file : File)
  | link (path : String) (entry : Option Entry)

def allowedToInitialize (initTrialParameters : Option (Option String))
    (configFilePathFromConnectionString : Option String) : Bool :=
  match initTrialParameters with
  | none => true
  | some tried => tried.isNone && configFilePathFromConnectionString.any (· ≠ "")

/-- `getLogPath` and the name of the file in it. -/
def logFile (home : String) (config : ClientConfig) : String :=
  let logPath := (config.logPath.filter (· ≠ "")).getD home
  String.ofList (PosixPath.join
    [PosixPath.join [logPath.toList, "nodejs".toList], "snowflake.log".toList])

def settings (home : String) (config : ClientConfig) : Option Settings :=
  (mapLogLevel config).map fun level => ⟨config.configPath, level, logFile home config⟩

namespace State

variable {ι : Type*}

/-- No file, and nothing tried yet. -/
def start : State ι := ⟨fun _ => .idle, none, none, none, [], [], [], []⟩

def versions (s : State ι) (ino : Nat) : List File := s.inodes.getD ino []

def entry (s : State ι) (path : String) : Option Entry :=
  (s.entries.reverse.lookup path).join

/-- The status behind a path, or `none` where there is no file. -/
def stat (s : State ι) (path : String) : Option Stats :=
  (s.entry path).bind fun e => (s.versions e.ino).getLast?.map File.stats

def fstat (s : State ι) (fd : Nat) : Option Stats :=
  s.handles[fd]?.bind fun h => (s.versions h.ino).getLast?.map File.stats

/-- The shared descriptor, unless it is closed. -/
def usable (s : State ι) : Option Nat :=
  s.fd.filter fun fd => s.handles[fd]?.any fun h => !h.closed

def versionOf (s : State ι) (fd : Option Nat) : Nat :=
  (((fd.bind fun fd => s.handles[fd]?).map fun h => (s.versions h.ino).length)).getD 0

/-- What a descriptor may give: the whole file, if it has not been read before and the file has not
been written since the reading began. -/
def Reads (s : State ι) (fd : Option Nat) (version : Nat) (text : List Char) : Prop :=
  match fd.bind fun fd => s.handles[fd]? with
  | none => False
  | some h => h.consumed = false → (s.versions h.ino).length = version →
      (s.versions h.ino).getLast?.map File.content = some text

instance (s : State ι) (fd : Option Nat) (version : Nat) (text : List Char) :
    Decidable (s.Reads fd version text) := by
  unfold Reads
  split <;> infer_instance

/-- The descriptor is the shared variable's from now on. -/
@[simps] def openFile (s : State ι) (ino : Nat) : State ι :=
  { s with fd := some s.handles.length, handles := s.handles ++ [⟨ino, false, false⟩] }

/-- The text is the shared variable's from now on. -/
@[simps] def takeText (s : State ι) (fd : Option Nat) (text : List Char) : State ι :=
  { s with
    configFileContents := some text
    handles := fd.elim s.handles fun fd =>
      s.handles.modify fd fun h => { h with consumed := true } }

/-- `fd?.close()`. -/
@[simps] def close (s : State ι) : State ι :=
  { s with handles := s.fd.elim s.handles fun fd =>
      s.handles.modify fd fun h => { h with closed := true } }

variable [DecidableEq ι]

@[simps] def goto (s : State ι) (i : ι) (phase : Phase) : State ι :=
  { s with phase := Function.update s.phase i phase }

/-- The end of a call that has not failed. -/
@[simps!] def tried (s : State ι) (i : ι) (given : Option String) : State ι :=
  { s with initTrialParameters := some given }.goto i (.done none)

/-- `finally`. -/
@[simps!] def finish (s : State ι) (i : ι) (given : Option String) (path : String)
    (err : Option String) : State ι :=
  s.close.goto i (.closing given path err)

/-- `logger.configure`. -/
@[simps] def configure (s : State ι) (settings : Settings) : State ι :=
  { s with configured := s.configured ++ [settings] }

end State

section

variable {ι : Type*} [DecidableEq ι] (home : String) (user : User)

def opened (s : State ι) (i : ι) (given : Option String) (path : String) :
    Except String Unit → Option (State ι)
  | .error _ => some (s.finish i given path (some "Fail to open the configuration file"))
  | .ok () =>
      match s.entry path with
      | some (.file ino) =>
          some ((s.openFile ino).goto i (.stating given path s.handles.length))
      -- `O_NOFOLLOW`
      | _ => none

def stated (s : State ι) (i : ι) (given : Option String) (path : String) (fd : Nat) :
    Except String Stats → Option (State ι)
  | .error message => some (s.finish i given path (some message))
  | .ok openStats =>
      if s.fstat fd = some openStats then
        match checkStats user path openStats with
        | .error message => some (s.finish i given path (some message))
        | .ok () =>
            some (s.goto i (.reading given path openStats s.usable (s.versionOf s.usable)))
      else none

def read (s : State ι) (i : ι) (given : Option String) (path : String) (openStats : Stats)
    (fd : Option Nat) (version : Nat) : Except String (List Char) → Option (State ι)
  | .error _ => some (s.finish i given path (some "Finding client configuration failed"))
  | .ok text =>
      if s.Reads fd version text then
        some ((s.takeText fd text).goto i (.checking given path openStats))
      else none

def checked (s : State ι) (i : ι) (given : Option String) (path : String) (openStats : Stats) :
    Except String Stats → Option (State ι)
  | .error message => some (s.finish i given path (some message))
  | .ok currentStat =>
      if s.stat path = some currentStat then
        if isFileModified openStats currentStat then some (s.finish i given path none)
        else some (s.finish i given path (some "The config file has been modified"))
      else none

/-- The shared text is parsed, under the path of the call. -/
def closed (s : State ι) (i : ι) (given : Option String) (path : String) (err : Option String) :
    Except String Unit → State ι
  | .error message => s.goto i (.done (some message))
  | .ok () =>
      match err, s.configFileContents with
      | some message, _ => s.goto i (.done (some message))
      | none, none => s.tried i given
      | none, some configFileContents =>
          match parseConfigFile path configFileContents with
          | .error message => s.goto i (.done (some message))
          | .ok config =>
              match settings home config with
              | none => s.goto i (.done (some
                  "Failed to convert configuration log level into internal one"))
              | some settings => s.goto i (.preparing given settings)

def step (s : State ι) : Event ι → Option (State ι)
  | .init i given =>
      match s.phase i with
      | .idle =>
          some (s.goto i
            (if allowedToInitialize s.initTrialParameters given then .finding given
            else .done none))
      | _ => none
  | .found i env =>
      match s.phase i with
      | .finding given =>
          match (findConfig env given).filter (· ≠ "") with
          | none => some (s.tried i given)
          | some path => some (s.goto i (.opening given path))
      | _ => none
  | .opened i result =>
      match s.phase i with
      | .opening given path => opened s i given path result
      | _ => none
  | .stats i result =>
      match s.phase i with
      | .stating given path fd => stated user s i given path fd result
      | _ => none
  | .read i result =>
      match s.phase i with
      | .reading given path openStats fd version =>
          read s i given path openStats fd version result
      | _ => none
  | .checked i result =>
      match s.phase i with
      | .checking given path openStats => checked s i given path openStats result
      | _ => none
  | .closed i result =>
      match s.phase i with
      | .closing given path err => some (closed home s i given path err result)
      | _ => none
  | .prepared i result =>
      match s.phase i with
      | .preparing given settings =>
          match result with
          | .error message => some (s.goto i (.done (some message)))
          | .ok () => some ((s.configure settings).tried i given)
      | _ => none
  | .create file => some { s with inodes := s.inodes ++ [[file]] }
  | .write ino file =>
      if ino < s.inodes.length then
        some { s with inodes := s.inodes.modify ino fun versions => versions ++ [file] }
      else none
  | .link path entry => some { s with entries := s.entries ++ [(path, entry)] }

end

/-! ## what is trusted -/

section

variable {ι : Type*} {s t u : State ι} {home : String} {user : User} {path : String}
  {phase : Phase}

/-- A version of a file that was behind the path, and that only the user can write. -/
structure Trusted (user : User) (s : State ι) (path : String) (ino version : Nat) (file : File) :
    Prop where
  linked : (path, some (.file ino)) ∈ s.entries
  version : (s.versions ino)[version]? = some file
  valid : checkStats user path file.stats = .ok ()

/-- The settings are those of the whole text of a version that is trusted. -/
def FromFile (home : String) (user : User) (s : State ι) (c : Settings) : Prop :=
  ∃ ino version file config, Trusted user s c.configPath ino version file ∧
    parseConfigFile c.configPath file.content = .ok config ∧ settings home config = some c

/-- Between the opening and the parsing. -/
def Phase.holds : Phase → Bool
  | .stating .. | .reading .. | .checking .. | .closing _ _ none => true
  | _ => false

def PhaseInv (home : String) (user : User) (s : State ι) : Phase → Prop
  | .stating _ path fd => s.fd = some fd ∧ ∃ h : Handle, s.handles[fd]? = some h ∧
      h.consumed = false ∧ (path, some (.file h.ino)) ∈ s.entries
  | .reading _ path openStats fd version => ∀ n ∈ fd, ∃ h v file, s.handles[n]? = some h ∧
      h.consumed = false ∧ version = v + 1 ∧ openStats = file.stats ∧
      Trusted user s path h.ino v file
  | .checking _ path openStats => ∃ ino v file text, openStats = file.stats ∧
      Trusted user s path ino v file ∧ s.configFileContents = some text ∧
      ((s.versions ino).length = v + 1 → text = file.content)
  | .closing _ path none => ∃ ino v file, Trusted user s path ino v file ∧
      s.configFileContents = some file.content
  | .preparing _ settings => FromFile home user s settings
  | _ => True

/-- Files are written and paths are linked. -/
structure Extends (s t : State ι) : Prop where
  entries : s.entries ⊆ t.entries
  versions : ∀ ino, s.versions ino <+: t.versions ino

theorem Extends.of_eq (hentries : t.entries = s.entries) (hinodes : t.inodes = s.inodes) :
    Extends s t :=
  ⟨by rw [hentries]; exact List.Subset.refl _,
    fun ino => by rw [State.versions, State.versions, hinodes]⟩

theorem Extends.getElem? {ino version : Nat} {file : File} (hst : Extends s t)
    (h : (s.versions ino)[version]? = some file) : (t.versions ino)[version]? = some file := by
  obtain ⟨later, hlater⟩ := hst.versions ino
  rw [← hlater, List.getElem?_append_left (List.getElem?_eq_some_iff.mp h).1, h]

theorem Trusted.extends {ino version : Nat} {file : File} (h : Trusted user s path ino version file)
    (hst : Extends s t) : Trusted user t path ino version file where
  linked := hst.entries h.linked
  version := hst.getElem? h.version
  valid := h.valid

theorem FromFile.extends {c : Settings} (h : FromFile home user s c) (hst : Extends s t) :
    FromFile home user t c := by
  obtain ⟨ino, version, file, config, htrusted, hparse⟩ := h
  exact ⟨ino, version, file, config, htrusted.extends hst, hparse⟩

/-- A version that is the last one later was so before. -/
theorem Extends.length_eq {ino version : Nat} {file : File} (hst : Extends s t)
    (h : (s.versions ino)[version]? = some file) (hlast : (t.versions ino).length = version + 1) :
    (s.versions ino).length = version + 1 := by
  have hlt : version < (s.versions ino).length := (List.getElem?_eq_some_iff.mp h).1
  have hle := (hst.versions ino).length_le
  omega

/-- Nothing that a call relies on is lost. -/
structure Frame (s t : State ι) : Prop extends Extends s t where
  fd : t.fd = s.fd
  contents : t.configFileContents = s.configFileContents
  handles : ∀ (n : Nat) (h : Handle), s.handles[n]? = some h →
    ∃ h' : Handle, t.handles[n]? = some h' ∧ h'.ino = h.ino ∧ h'.consumed = h.consumed

theorem Frame.of_eq (hst : Extends s t) (hfd : t.fd = s.fd)
    (hcontents : t.configFileContents = s.configFileContents) (hhandles : t.handles = s.handles) :
    Frame s t where
  toExtends := hst
  fd := hfd
  contents := hcontents
  handles n h hn := ⟨h, by rw [hhandles, hn], rfl, rfl⟩

theorem Frame.close (s : State ι) : Frame s s.close where
  toExtends := .of_eq rfl rfl
  fd := rfl
  contents := rfl
  handles n h hn := by
    rw [State.close_handles]
    cases s.fd with
    | none => exact ⟨h, hn, rfl, rfl⟩
    | some fd =>
        rw [Option.elim_some, List.getElem?_modify, hn]
        split_ifs
        · exact ⟨{ h with closed := true }, rfl, rfl, rfl⟩
        · exact ⟨h, rfl, rfl, rfl⟩

theorem PhaseInv.frame (h : PhaseInv home user s phase) (hst : Frame s t) :
    PhaseInv home user t phase := by
  match phase, h with
  | .stating _ path fd, ⟨hfd, handle, hhandle, hfresh, hlinked⟩ =>
      obtain ⟨handle', hhandle', hino, hconsumed⟩ := hst.handles fd handle hhandle
      refine ⟨hst.fd.trans hfd, handle', hhandle', hconsumed.trans hfresh, ?_⟩
      rw [hino]
      exact hst.entries hlinked
  | .reading _ path openStats fd version, h =>
      intro n hn
      obtain ⟨handle, v, file, hhandle, hfresh, hversion, hstats, htrusted⟩ := h n hn
      obtain ⟨handle', hhandle', hino, hconsumed⟩ := hst.handles n handle hhandle
      refine ⟨handle', v, file, hhandle', hconsumed.trans hfresh, hversion, hstats, ?_⟩
      rw [hino]
      exact htrusted.extends hst.toExtends
  | .checking _ path openStats, ⟨ino, v, file, text, hstats, htrusted, htext, hcontent⟩ =>
      exact ⟨ino, v, file, text, hstats, htrusted.extends hst.toExtends, hst.contents.trans htext,
        fun hlast => hcontent (hst.length_eq htrusted.version hlast)⟩
  | .closing _ path none, ⟨ino, v, file, htrusted, htext⟩ =>
      exact ⟨ino, v, file, htrusted.extends hst.toExtends, hst.contents.trans htext⟩
  | .preparing _ settings, h => exact FromFile.extends h hst.toExtends
  | .idle, _ | .finding _, _ | .opening _ _, _ | .closing _ _ (some _), _ | .done _, _ => trivial

/-- A call that holds no file relies on none. -/
theorem PhaseInv.extends (h : PhaseInv home user s phase) (hfree : phase.holds = false)
    (hst : Extends s t) : PhaseInv home user t phase := by
  match phase, h with
  | .preparing _ settings, h => exact FromFile.extends h hst
  | .idle, _ | .finding _, _ | .opening _ _, _ | .closing _ _ (some _), _ | .done _, _ => trivial

/-! ## the invariant -/

structure Inv (home : String) (user : User) (s : State ι) : Prop where
  alone : ∀ i j, (s.phase i).holds = true → (s.phase j).holds = true → i = j
  phases : ∀ i, PhaseInv home user s (s.phase i)
  configured : ∀ c ∈ s.configured, FromFile home user s c
  distinct : ∀ (m a n b : Nat) (f g : File), (s.versions m)[a]? = some f → (s.versions n)[b]? = some g →
    isFileModified f.stats g.stats = true → m = n ∧ a = b

theorem inv_start : Inv home user (State.start : State ι) where
  alone _ _ h := by cases h
  phases _ := trivial
  configured := by simp [State.start]
  distinct := by simp [State.start, State.versions]

/-- The others hold no file while a call does. -/
theorem Inv.others_free {i : ι} (h : Inv home user s)
    (hi : (s.phase i).holds = true) :
    ∀ j ≠ i, (s.phase j).holds = false := by
  intro j hj
  cases hold : (s.phase j).holds with
  | false => rfl
  | true => exact absurd (h.alone j i hold hi) hj

theorem mem_of_entry {e : Entry} (h : s.entry path = some e) : (path, some e) ∈ s.entries := by
  rw [State.entry, Option.join_eq_some_iff] at h
  obtain ⟨before, after, hsplit, -⟩ := List.lookup_eq_some_iff.mp h
  exact List.mem_reverse.mp (hsplit ▸ List.mem_append_right before (.head after))

theorem getLast?_versions {ino : Nat} {file : File}
    (h : (s.versions ino).getLast? = some file) :
    ∃ v, (s.versions ino).length = v + 1 ∧ (s.versions ino)[v]? = some file := by
  have hne : s.versions ino ≠ [] := by
    rintro hnil
    rw [hnil] at h
    cases h
  have hpos : 0 < (s.versions ino).length := List.length_pos_iff.mpr hne
  refine ⟨(s.versions ino).length - 1, by omega, ?_⟩
  rw [← List.getLast?_eq_getElem?]
  exact h

/-! ## the files -/

theorem isFileModified_comm (a b : Stats) : isFileModified a b = isFileModified b a := by
  rw [Bool.eq_iff_iff, isFileModified_iff, isFileModified_iff]
  simp only [eq_comm]

theorem mem_versions {m a : Nat} {f : File} (h : (s.versions m)[a]? = some f) :
    ∃ versions ∈ s.inodes, f ∈ versions := by
  have hmem : f ∈ s.versions m := List.mem_of_getElem? h
  rw [State.versions, List.getD_eq_getElem?_getD] at hmem
  cases hino : s.inodes[m]? with
  | none => rw [hino] at hmem; cases hmem
  | some versions =>
      rw [hino] at hmem
      exact ⟨versions, List.mem_of_getElem? hino, hmem⟩

theorem versions_create (s : State ι) (file : File) (m : Nat) :
    { s with inodes := s.inodes ++ [[file]] }.versions m =
      if m = s.inodes.length then s.versions m ++ [file] else s.versions m := by
  simp only [State.versions, List.getD_eq_getElem?_getD]
  rcases Nat.lt_trichotomy m s.inodes.length with hlt | rfl | hgt
  · rw [if_neg hlt.ne, List.getElem?_append_left hlt]
  · simp
  · rw [if_neg hgt.ne', List.getElem?_eq_none (by simp; omega), List.getElem?_eq_none hgt.le]

theorem versions_write (s : State ι) {ino : Nat} (file : File) (hlt : ino < s.inodes.length)
    (m : Nat) :
    { s with inodes := s.inodes.modify ino fun versions => versions ++ [file] }.versions m =
      if m = ino then s.versions m ++ [file] else s.versions m := by
  simp only [State.versions, List.getD_eq_getElem?_getD, List.getElem?_modify]
  by_cases hm : m = ino
  · subst hm
    simp [List.getElem?_eq_getElem hlt]
  · simp [hm, Ne.symm hm]

/-- A version is an earlier one or the one that was written. -/
theorem getElem?_written {ino m a : Nat} {f file : File}
    (hversions : ∀ m, t.versions m = if m = ino then s.versions m ++ [file] else s.versions m)
    (hf : (t.versions m)[a]? = some f) :
    (s.versions m)[a]? = some f ∨ m = ino ∧ a = (s.versions ino).length ∧ f = file := by
  rw [hversions] at hf
  split_ifs at hf with hm
  · subst hm
    rcases Nat.lt_or_ge a (s.versions m).length with hlt | hge
    · rw [List.getElem?_append_left hlt] at hf
      exact .inl hf
    · rw [List.getElem?_append_right hge, List.getElem?_singleton] at hf
      split_ifs at hf with hzero
      exact .inr ⟨rfl, by omega, (Option.some.inj hf).symm⟩
  · exact .inl hf

/-- One more version of one file, with a status that there has not been. -/
theorem Inv.write {ino : Nat} {file : File} (h : Inv home user s)
    (htraced : ∀ versions ∈ s.inodes, ∀ old ∈ versions,
      isFileModified old.stats file.stats = false)
    (hversions : ∀ m, t.versions m = if m = ino then s.versions m ++ [file] else s.versions m)
    (hentries : t.entries = s.entries) (hframe : Extends s t → Frame s t)
    (hphase : t.phase = s.phase) (hconfigured : t.configured = s.configured) :
    Inv home user t := by
  have hnew : ∀ (m a : Nat) (f : File), (s.versions m)[a]? = some f →
      isFileModified f.stats file.stats = false := by
    intro m a f hf
    obtain ⟨versions, hmem, hf⟩ := mem_versions hf
    exact htraced versions hmem f hf
  have hext : Extends s t := by
    refine ⟨by rw [hentries]; exact List.Subset.refl _, fun m => ?_⟩
    rw [hversions]
    split_ifs
    · exact List.prefix_append _ _
    · exact List.prefix_rfl
  exact {
    alone := by rw [hphase]; exact h.alone
    phases := fun i => by rw [hphase]; exact (h.phases i).frame (hframe hext)
    configured := by
      rw [hconfigured]
      exact fun c hc => (h.configured c hc).extends hext
    distinct := by
      intro m a n b f g hf hg hsame
      rcases getElem?_written hversions hf with hf | ⟨rfl, rfl, rfl⟩
      · rcases getElem?_written hversions hg with hg | ⟨rfl, rfl, rfl⟩
        · exact h.distinct m a n b f g hf hg hsame
        · rw [hnew m a f hf] at hsame
          cases hsame
      · rcases getElem?_written hversions hg with hg | ⟨rfl, rfl, rfl⟩
        · rw [isFileModified_comm, hnew n b g hg] at hsame
          cases hsame
        · exact ⟨rfl, rfl⟩ }

theorem Inv.link (h : Inv home user s) (entry : Option Entry) :
    Inv home user { s with entries := s.entries ++ [(path, entry)] } := by
  have hext : Extends s { s with entries := s.entries ++ [(path, entry)] } :=
    ⟨List.subset_append_left _ _, fun _ => List.prefix_rfl⟩
  exact {
    alone := h.alone
    phases := fun i => (h.phases i).frame (.of_eq hext rfl rfl rfl)
    configured := fun c hc => (h.configured c hc).extends hext
    distinct := h.distinct }

variable [DecidableEq ι] {i : ι} {given : Option String}

theorem Frame.goto (s : State ι) (i : ι) (phase : Phase) : Frame s (s.goto i phase) :=
  .of_eq (.of_eq rfl rfl) rfl rfl rfl

theorem configPath_of_parse {text : List Char} {config : ClientConfig} {c : Settings}
    (hparse : parseConfigFile path text = .ok config) (h : settings home config = some c) :
    c.configPath = path := by
  obtain ⟨level, -, rfl⟩ := Option.map_eq_some_iff.mp h
  exact (mapLogLevel_of_parse hparse).1

/-- A call goes on, and what it does to the shared variables is its own. -/
theorem Inv.move (h : Inv home user s) (hphase : u.phase = s.phase) (hinodes : u.inodes = s.inodes)
    (hconfigured : ∀ c ∈ u.configured, FromFile home user u c)
    (hothers : ∀ j ≠ i, PhaseInv home user u (s.phase j))
    (hp : PhaseInv home user u phase)
    (hholds : phase.holds = true → ∀ j ≠ i, (s.phase j).holds = false) :
    Inv home user (u.goto i phase) where
  alone j k hj hk := by
    simp only [State.goto_phase, hphase, Function.update_apply] at hj hk
    split_ifs at hj hk with hji hki hki
    · rw [hji, hki]
    · exact absurd hk (by simp [hholds hj k hki])
    · exact absurd hj (by simp [hholds hk j hji])
    · exact h.alone j k hj hk
  phases j := by
    simp only [State.goto_phase, hphase, Function.update_apply]
    split_ifs with hj
    · exact hp.frame (.goto u i phase)
    · exact (hothers j hj).frame (.goto u i phase)
  configured c hc := (hconfigured c hc).extends (Frame.goto u i phase).toExtends
  distinct := by
    have hversions : ∀ ino, (u.goto i phase).versions ino = s.versions ino := by
      intro ino
      rw [State.versions, State.goto_inodes, hinodes, State.versions]
    simp only [hversions]
    exact h.distinct

/-- A call goes on and leaves alone what the others rely on. -/
theorem Inv.goto (h : Inv home user s) (hst : Frame s u) (hphase : u.phase = s.phase)
    (hinodes : u.inodes = s.inodes) (hconfigured : u.configured = s.configured)
    (hp : PhaseInv home user u phase)
    (hholds : phase.holds = true → (s.phase i).holds = true) :
    Inv home user (u.goto i phase) := by
  refine h.move hphase hinodes ?_ (fun j _ => (h.phases j).frame hst) hp ?_
  · rw [hconfigured]
    exact fun c hc => (h.configured c hc).extends hst.toExtends
  · exact fun hnew => h.others_free (hholds hnew)

theorem Inv.goto_free (h : Inv home user s) (hp : PhaseInv home user s phase)
    (hfree : phase.holds = false) : Inv home user (s.goto i phase) :=
  h.goto (.of_eq (.of_eq rfl rfl) rfl rfl rfl) rfl rfl rfl hp (by simp [hfree])

theorem Inv.tried (h : Inv home user s) : Inv home user (s.tried i given) :=
  Inv.goto h (.of_eq (.of_eq rfl rfl) rfl rfl rfl) rfl rfl rfl trivial nofun

theorem Inv.fail (h : Inv home user s) (message : String) :
    Inv home user (s.finish i given path (some message)) :=
  Inv.goto h (.close s) rfl rfl rfl trivial nofun

/-! ## the steps -/

/-- No file is opened while another call still needs the one that it has opened. -/
def Alone (s : State ι) : Event ι → Prop
  | .opened _ (.ok ()) => ∀ j, (s.phase j).holds = false
  | _ => True

/-- Every version of a file has a status of its own. -/
def Traced (s : State ι) : Event ι → Prop
  | .create file | .write _ file => ∀ versions ∈ s.inodes, ∀ old ∈ versions,
      isFileModified old.stats file.stats = false
  | _ => True

theorem Inv.opened {result : Except String Unit} (h : Inv home user s)
    (halone : Alone s (.opened i result))
    (hst : opened s i given path result = some t) : Inv home user t := by
  rw [EasyLogging.opened.eq_def] at hst
  split at hst
  · cases hst
    exact h.fail _
  · split at hst
    · rename_i ino hentry
      cases hst
      have hext : Extends s (s.openFile ino) := .of_eq rfl rfl
      refine h.move rfl rfl (fun c hc => (h.configured c hc).extends hext)
        (fun j _ => (h.phases j).extends (halone j) hext) ?_ (fun _ j _ => halone j)
      refine ⟨rfl, ⟨ino, false, false⟩, ?_, rfl, mem_of_entry hentry⟩
      rw [State.openFile_handles, List.getElem?_concat_length]
    · cases hst

theorem Inv.stated {fd : Nat} {result : Except String Stats} (h : Inv home user s)
    (hphase : s.phase i = .stating given path fd)
    (hst : stated user s i given path fd result = some t) : Inv home user t := by
  rw [EasyLogging.stated.eq_def] at hst
  split at hst
  · cases hst
    exact h.fail _
  · split_ifs at hst with hstats
    split at hst
    · cases hst
      exact h.fail _
    · rename_i hvalid
      cases hst
      obtain ⟨hfd, handle, hhandle, hfresh, hlinked⟩ : PhaseInv home user s
          (.stating given path fd) := hphase ▸ h.phases i
      refine h.goto (.of_eq (.of_eq rfl rfl) rfl rfl rfl) rfl rfl rfl ?_
        (fun _ => by rw [hphase]; rfl)
      intro n husable
      obtain ⟨hn, -⟩ := Option.mem_filter_iff.mp husable
      obtain rfl : fd = n := Option.some.inj (hfd.symm.trans hn)
      rw [State.fstat, hhandle, Option.bind_some] at hstats
      obtain ⟨file, hlast, rfl⟩ := Option.map_eq_some_iff.mp hstats
      obtain ⟨v, hlength, hversion⟩ := getLast?_versions hlast
      refine ⟨handle, v, file, hhandle, hfresh, ?_, rfl, hlinked, hversion, hvalid⟩
      rw [State.versionOf, husable, Option.bind_some, hhandle, Option.map_some, Option.getD_some,
        hlength]

theorem Inv.read {openStats : Stats} {fd : Option Nat} {version : Nat}
    {result : Except String (List Char)} (h : Inv home user s)
    (hphase : s.phase i = .reading given path openStats fd version)
    (hst : read s i given path openStats fd version result = some t) : Inv home user t := by
  rw [EasyLogging.read.eq_def] at hst
  split at hst
  · cases hst
    exact h.fail _
  · rename_i text
    split_ifs at hst with hreads
    cases hst
    have hreading : PhaseInv home user s (.reading given path openStats fd version) :=
      hphase ▸ h.phases i
    have hothers := h.others_free (i := i) (by rw [hphase]; rfl)
    have hext : Extends s (s.takeText fd text) := .of_eq rfl rfl
    refine h.move rfl rfl (fun c hc => (h.configured c hc).extends hext)
      (fun j hj => (h.phases j).extends (hothers j hj) hext) ?_ (fun _ => hothers)
    cases fd with
    | none => exact hreads.elim
    | some n =>
        obtain ⟨handle, v, file, hhandle, hfresh, rfl, hstats, htrusted⟩ := hreading n rfl
        refine ⟨handle.ino, v, file, text, hstats, htrusted.extends hext, rfl, ?_⟩
        intro hlast
        rw [State.Reads, Option.bind_some, hhandle] at hreads
        have hcontent := hreads hfresh hlast
        have hlength : (s.versions handle.ino).length = v + 1 := hlast
        rw [List.getLast?_eq_getElem?, hlength, Nat.add_sub_cancel, htrusted.version] at hcontent
        exact (Option.some.inj hcontent).symm

theorem Inv.checked {openStats : Stats} {result : Except String Stats} (h : Inv home user s)
    (hphase : s.phase i = .checking given path openStats)
    (hst : checked s i given path openStats result = some t) : Inv home user t := by
  rw [EasyLogging.checked.eq_def] at hst
  split at hst
  · cases hst
    exact h.fail _
  · split_ifs at hst with hstat hsame
    · cases hst
      obtain ⟨ino, v, file, text, rfl, htrusted, htext, hcontent⟩ : PhaseInv home user s
          (.checking given path openStats) := hphase ▸ h.phases i
      refine h.goto (.close s) rfl rfl rfl ?_ (fun _ => by rw [hphase]; rfl)
      refine ⟨ino, v, file, htrusted.extends (Frame.close s).toExtends, ?_⟩
      rw [State.close_configFileContents, htext, hcontent ?_]
      -- the status is that of the version which the descriptor led to, so it is the last one
      obtain ⟨e, -, hlast⟩ := Option.bind_eq_some_iff.mp hstat
      obtain ⟨current, hcurrent, rfl⟩ := Option.map_eq_some_iff.mp hlast
      obtain ⟨w, hlength, hversion⟩ := getLast?_versions hcurrent
      obtain ⟨rfl, rfl⟩ := h.distinct _ _ _ _ _ _ htrusted.version hversion hsame
      exact hlength
    · cases hst
      exact h.fail _

theorem Inv.closed {err : Option String} {result : Except String Unit} (h : Inv home user s)
    (hphase : s.phase i = .closing given path err) :
    Inv home user (closed home s i given path err result) := by
  rw [EasyLogging.closed.eq_def]
  split
  · exact h.goto_free trivial rfl
  · split
    · exact h.goto_free trivial rfl
    · exact h.tried
    · rename_i configFileContents hcontents
      obtain ⟨ino, v, file, htrusted, htext⟩ : PhaseInv home user s (.closing given path none) :=
        hphase ▸ h.phases i
      obtain rfl : configFileContents = file.content :=
        Option.some.inj (hcontents.symm.trans htext)
      split
      · exact h.goto_free trivial rfl
      · rename_i config hconfig
        split
        · exact h.goto_free trivial rfl
        · rename_i settings hsettings
          have hpath := configPath_of_parse hconfig hsettings
          refine h.goto_free ⟨ino, v, file, config, ?_, ?_, hsettings⟩ rfl
          · rw [hpath]
            exact htrusted
          · rw [hpath]
            exact hconfig

/-- The settings of a call become those of the logger. -/
theorem Inv.prepared {settings : Settings} (h : Inv home user s)
    (hphase : s.phase i = .preparing given settings) :
    Inv home user ((s.configure settings).tried i given) := by
  have hpreparing : PhaseInv home user s (.preparing given settings) := hphase ▸ h.phases i
  have hst : Frame s ({ s.configure settings with initTrialParameters := some given }) :=
    .of_eq (.of_eq rfl rfl) rfl rfl rfl
  refine h.move rfl rfl ?_ (fun j _ => (h.phases j).frame hst) trivial nofun
  intro c hc
  rcases List.mem_append.mp hc with hc | hc
  · exact (h.configured c hc).extends hst.toExtends
  · rw [List.mem_singleton.mp hc]
    exact FromFile.extends hpreparing hst.toExtends

/-! ## every step -/

theorem Inv.step {e : Event ι} (h : Inv home user s) (hP : Alone s e ∧ Traced s e)
    (hst : step home user s e = some t) : Inv home user t := by
  cases e with
  | init i given =>
      simp only [EasyLogging.step] at hst
      split at hst
      · cases hst
        split_ifs
        · exact h.goto_free trivial rfl
        · exact h.goto_free trivial rfl
      · cases hst
  | found i env =>
      simp only [EasyLogging.step] at hst
      split at hst
      · split at hst
        · cases hst
          exact h.tried
        · cases hst
          exact h.goto_free trivial rfl
      · cases hst
  | opened i result =>
      simp only [EasyLogging.step] at hst
      split at hst
      · exact h.opened hP.1 hst
      · cases hst
  | stats i result =>
      simp only [EasyLogging.step] at hst
      split at hst
      · rename_i hphase
        exact h.stated hphase hst
      · cases hst
  | read i result =>
      simp only [EasyLogging.step] at hst
      split at hst
      · rename_i hphase
        exact h.read hphase hst
      · cases hst
  | checked i result =>
      simp only [EasyLogging.step] at hst
      split at hst
      · rename_i hphase
        exact h.checked hphase hst
      · cases hst
  | closed i result =>
      simp only [EasyLogging.step] at hst
      split at hst
      · rename_i hphase
        cases hst
        exact h.closed hphase
      · cases hst
  | prepared i result =>
      simp only [EasyLogging.step] at hst
      split at hst
      · rename_i hphase
        split at hst
        · cases hst
          exact h.goto_free trivial rfl
        · cases hst
          exact h.prepared hphase
      · cases hst
  | create file =>
      cases hst
      exact h.write hP.2 (versions_create s file) rfl (fun hext => .of_eq hext rfl rfl rfl) rfl rfl
  | write ino file =>
      simp only [EasyLogging.step] at hst
      split_ifs at hst with hlt
      cases hst
      exact h.write hP.2 (versions_write s file hlt) rfl (fun hext => .of_eq hext rfl rfl rfl)
        rfl rfl
  | link path entry =>
      cases hst
      exact h.link entry

/-- **Trust**: in every run in which no file is opened while another call still needs the one that
it has opened, and in which a file that is written shows it in its status, the logger is configured
only by the whole text of one version of the file at the path in question, which belongs to the
user, and which neither the group nor others could write. -/
theorem configured_of_file (home : String) (user : User) {es : List (Event ι)}
    (hP : Along (step home user) (fun s e => Alone s e ∧ Traced s e) State.start es)
    (h : exec (step home user) State.start es = some t) :
    ∀ c ∈ t.configured, FromFile home user t c :=
  (exec_invariant_of_along (fun _ _ _ hs hP hst => hs.step hP hst) inv_start hP h).configured

end

instance {ι : Type*} [Fintype ι] (s : State ι) (e : Event ι) : Decidable (Alone s e) := by
  unfold Alone
  split <;> infer_instance

instance {ι : Type*} (s : State ι) (e : Event ι) : Decidable (Traced s e) := by
  unfold Traced
  split <;> infer_instance

/-- A client config file that asks for a level. -/
def levelFile (mtimeMs : Rat) (level : String) : File :=
  ⟨⟨1000, 1000, 0o600, mtimeMs, mtimeMs, mtimeMs⟩,
    ("\x7b\"common\":\x7b\"log_level\":\"" ++ level ++ "\"\x7d\x7d").toList⟩

/-- The file is replaced when the logger has been configured. -/
def replacedRun : List (Event Unit) :=
  let file := levelFile 1 "debug"
  [.create file, .link "/a.json" (some (.file 0)), .init () (some "/a.json"),
    .found () ⟨none, [], fun _ => false⟩, .opened () (.ok ()), .stats () (.ok file.stats),
    .read () (.ok file.content), .checked () (.ok file.stats), .closed () (.ok ()),
    .prepared () (.ok ()), .create ⟨⟨1001, 1001, 0o666, 2, 2, 2⟩, []⟩,
    .link "/a.json" (some (.file 1))]

theorem configured_of_file_replaced :
    ∃ t, exec (step "/home/me" ⟨1000, 1000⟩) State.start replacedRun = some t ∧
      t.configured = [⟨"/a.json", 3, "/home/me/nodejs/snowflake.log"⟩] ∧
      ∀ c ∈ t.configured, FromFile "/home/me" ⟨1000, 1000⟩ t c := by
  obtain ⟨t, ht, hsettings⟩ : ∃ t, exec (step "/home/me" ⟨1000, 1000⟩) State.start replacedRun =
      some t ∧ t.configured = [⟨"/a.json", 3, "/home/me/nodejs/snowflake.log"⟩] :=
    exists_exec (by decide +kernel)
  exact ⟨t, ht, hsettings, configured_of_file _ _ (by decide +kernel) ht⟩

/-- Two connections at once: the second opens its file before the first reads, which then reads that
one and gets a level that its own file does not ask for. -/
example : (exec (step "/home/me" ⟨1000, 1000⟩) (State.start : State Bool)
    [.create (levelFile 1 "debug"), .create (levelFile 2 "trace"),
      .link "/a.json" (some (.file 0)), .link "/b.json" (some (.file 1)),
      .init false (some "/a.json"), .init true (some "/b.json"),
      .found false ⟨none, [], fun _ => false⟩, .found true ⟨none, [], fun _ => false⟩,
      .opened false (.ok ()), .opened true (.ok ()), .stats false (.ok (levelFile 1 "debug").stats),
      .read false (.ok (levelFile 2 "trace").content),
      .checked false (.ok (levelFile 1 "debug").stats), .closed false (.ok ()),
      .prepared false (.ok ())]).map (·.configured) =
    some [⟨"/a.json", 4, "/home/me/nodejs/snowflake.log"⟩] := by
  decide +kernel

end EasyLogging

end SnowflakeConnector
