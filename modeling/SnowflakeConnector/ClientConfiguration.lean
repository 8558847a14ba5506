import SnowflakeConnector.Json
import SnowflakeConnector.PosixPath

/-!
# SnowflakeConnector.ClientConfiguration

The client config file of `lib/configuration/client_configuration.js`: where it is looked for, what
makes it trustworthy, and how it is parsed.

* `isFileModified_iff` -- what two statuses that agree have in common;
* `mapLogLevel_of_parse` -- a level that is accepted is one of the logger.
-/

namespace SnowflakeConnector

namespace ClientConfiguration

/-! ## levels -/

/-- `LOG_LEVELS` of `lib/logger/core.js`; the tags are those of `Levels`. -/
def logLevels : List (List Char × Int) :=
  [("OFF".toList, -1), ("ERROR".toList, 0), ("WARN".toList, 1), ("INFO".toList, 2),
    ("DEBUG".toList, 3), ("TRACE".toList, 4)]

/-- The upper case of a character; of those outside of ASCII only these lead into it. -/
def upperChar (c : Char) : List Char :=
  if c.toNat = 0xdf then ['S', 'S']
  else if c.toNat = 0x131 then ['I']
  else if c.toNat = 0x17f then ['S']
  else if c.toNat = 0xfb00 then ['F', 'F']
  else if c.toNat = 0xfb01 then ['F', 'I']
  else if c.toNat = 0xfb02 then ['F', 'L']
  else if c.toNat = 0xfb03 then ['F', 'F', 'I']
  else if c.toNat = 0xfb04 then ['F', 'F', 'L']
  else if c.toNat = 0xfb05 ∨ c.toNat = 0xfb06 then ['S', 'T']
  else [c.toUpper]

def toUpperCase (s : String) : List Char := s.toList.flatMap upperChar

def levelFromString (value : String) : Except String (List Char) :=
  let level := toUpperCase value
  if level ∈ logLevels.map Prod.fst then .ok level else .error ("Unknown log level: " ++ value)

def logTagToLevel (logTag : String) : Option Int := logLevels.lookup (toUpperCase logTag)

/-! ## finding the file -/

/-- The environment variable, the default directories and which files there are. -/
structure Environment where
  SF_CLIENT_CONFIG_FILE : Option String
  defaultDirectories : List String
  accessible : String → Bool

def configFileIn (directory : String) : String :=
  String.ofList (PosixPath.join [directory.toList, "sf_client_config.json".toList])

def findConfig (env : Environment) (filePathFromConnectionString : Option String) :
    Option String :=
  match filePathFromConnectionString, env.SF_CLIENT_CONFIG_FILE.filter (· ≠ "") with
  | some path, _ => some path
  | none, some path => some path
  | none, none => (env.defaultDirectories.map configFileIn).find? env.accessible

/-! ## trusting the file -/

/-- What is looked at of the status of a file. -/
structure Stats where
  uid : Nat
  gid : Nat
  mode : Nat
  mtimeMs : Rat
  ctimeMs : Rat
  birthtimeMs : Rat
  deriving DecidableEq, Repr

structure User where
  uid : Nat
  gid : Nat
  deriving DecidableEq, Repr

/-- Neither the group nor others may write. -/
def isFilePermissionValid (mode : Nat) : Bool := mode &&& 1 <<< 4 = 0 && mode &&& 1 <<< 1 = 0

def validateOwnership (currentUser : User) (stats : Stats) : Bool :=
  stats.uid = currentUser.uid && stats.gid = currentUser.gid

/-- The file was *not* modified. -/
def isFileModified (openStat newStat : Stats) : Bool :=
  openStat.uid = newStat.uid && openStat.mtimeMs = newStat.mtimeMs &&
    openStat.mode = newStat.mode && openStat.birthtimeMs = newStat.birthtimeMs &&
    openStat.ctimeMs = newStat.ctimeMs

/-- The file of an open descriptor is one to read. -/
def checkStats (currentUser : User) (path : String) (openStats : Stats) : Except String Unit :=
  if !isFilePermissionValid (openStats.mode &&& 0o777) then
    .error ("Configuration file: " ++ path ++ " can be modified by group or others")
  else if !validateOwnership currentUser openStats then
    .error "Configuration file: not owned by the current user"
  else .ok ()

/-! ## parsing the file -/

structure ClientConfig where
  configPath : String
  logLevel : Option String
  logPath : Option String
  deriving DecidableEq, Repr

/-- A member of `configuration.common`, which reading throws unless there is an object; a missing
one is as good as `null`. -/
def getEntry (configuration : Json.Value) (key notString : String) :
    Except String (Option String) :=
  match configuration.get? "common" with
  | none | some .null => .error "TypeError"
  | some common =>
      match common.get? key with
      | none | some .null => .ok none
      | some (.str value) => .ok (some value)
      | some _ => .error notString

def validateLogLevel (configuration : Json.Value) : Except String (Option String) :=
  match getEntry configuration "log_level" "Log level is not a string." with
  | .ok (some logLevel) => (levelFromString logLevel).map fun _ => some logLevel
  | result => result

def validateLogPath (configuration : Json.Value) : Except String (Option String) :=
  getEntry configuration "log_path" "Log path is not a string."

def parseConfigFile (path : String) (configurationJson : List Char) :
    Except String ClientConfig :=
  match Json.parse configurationJson with
  | none => .error "Parsing client configuration failed"
  | some configuration =>
      match validateLogLevel configuration, validateLogPath configuration with
      | .ok logLevel, .ok logPath => .ok ⟨path, logLevel, logPath⟩
      | _, _ => .error "Parsing client configuration failed"

/-- `mapLogLevel` of `lib/logger/easy_logging_starter.js`; without a level the logger is off. -/
def mapLogLevel (config : ClientConfig) : Option Int :=
  logTagToLevel ((config.logLevel.filter (· ≠ "")).getD "OFF")

/-! ## what is accepted -/

theorem isFileModified_iff {openStat newStat : Stats} :
    isFileModified openStat newStat = true ↔
      openStat.uid = newStat.uid ∧ openStat.mtimeMs = newStat.mtimeMs ∧
        openStat.mode = newStat.mode ∧ openStat.birthtimeMs = newStat.birthtimeMs ∧
          openStat.ctimeMs = newStat.ctimeMs := by
  simp [isFileModified, and_assoc]

theorem logTagToLevel_isSome {logTag : String} :
    (logTagToLevel logTag).isSome ↔ toUpperCase logTag ∈ logLevels.map Prod.fst := by
  simp only [logTagToLevel, List.lookup_isSome_iff, beq_iff_eq, List.mem_map]
  exact exists_congr fun tag => and_congr_right fun _ => eq_comm

theorem levelFromString_isOk {value : String} :
    (levelFromString value).isOk = true ↔ toUpperCase value ∈ logLevels.map Prod.fst := by
  rw [levelFromString]
  split_ifs with h
  · exact ⟨fun _ => h, fun _ => rfl⟩
  · exact ⟨nofun, fun hmem => absurd hmem h⟩

theorem levelFromString_of_validate {configuration : Json.Value} {logLevel : String}
    (h : validateLogLevel configuration = .ok (some logLevel)) :
    (levelFromString logLevel).isOk = true := by
  rw [validateLogLevel] at h
  split at h
  · rename_i given _
    cases hlevel : levelFromString given with
    | error err => rw [hlevel] at h; cases h
    | ok level =>
        rw [hlevel] at h
        cases h
        rw [hlevel]
        rfl
  · rename_i hnone
    exact absurd h (hnone logLevel)

theorem off_mem : toUpperCase "OFF" ∈ logLevels.map Prod.fst := by decide

/-- What is parsed is of the file, and a level that is accepted is one of the logger. -/
theorem mapLogLevel_of_parse {path : String} {configurationJson : List Char}
    {config : ClientConfig} (h : parseConfigFile path configurationJson = .ok config) :
    config.configPath = path ∧ (mapLogLevel config).isSome := by
  rw [parseConfigFile] at h
  split at h
  · cases h
  · split at h
    · rename_i logLevel logPath hlevel _
      cases h
      refine ⟨rfl, logTagToLevel_isSome.mpr ?_⟩
      cases logLevel with
      | none => exact off_mem
      | some level =>
          by_cases hempty : level = ""
          · rw [hempty]
            exact off_mem
          · have hgiven : (some level).filter (· ≠ "") = some level := by simp [hempty]
            rw [hgiven, Option.getD_some]
            exact levelFromString_isOk.mp (levelFromString_of_validate hlevel)
    · cases h

end ClientConfiguration

end SnowflakeConnector
