import SnowflakeConnector.JsString

/-!
# SnowflakeConnector.FileTransferAgent.PutCommand

The PUT commands that are sent again for each file, to obtain its presigned url:
`getFileNameFromPutCommand` and `updateFileMetasWithPresignedUrl` of `file_transfer_agent.js`, on
texts of code units.

* `PutCommand` -- a command by the parts of its text.
* `namesFile_iff` -- when the path alone is replaced.
-/

namespace SnowflakeConnector

namespace FileTransferAgent

open JsString

/-! ## the code -/

def FILE_PROTOCOL : List UInt16 := text "file://"

def space : UInt16 := unit ' '

def quote : UInt16 := 0x27

/-- The local path of a command, up to a blank or a quote. -/
def getFileNameFromPutCommand (command : List UInt16) : List UInt16 :=
  let startIndex := indexOf command FILE_PROTOCOL + FILE_PROTOCOL.length
  let spaceIndex := indexOf (substring command startIndex command.length) [space]
  let quoteIndex := indexOf (substring command startIndex command.length) [quote]
  let endIndex := if quoteIndex ≠ -1 ∧ quoteIndex < spaceIndex then quoteIndex else spaceIndex
  substring command startIndex (startIndex + endIndex)

/-- The commands that are sent again, one for each name. -/
def singleFileCommands (command : List UInt16) (dstFileNames : List (List UInt16)) :
    List (List UInt16) :=
  let filePathToReplace := getFileNameFromPutCommand command
  dstFileNames.map fun fileNameToReplaceWith =>
    replace command filePathToReplace fileNameToReplaceWith

/-! ## commands -/

/-- A character that separates the words of a command. -/
def IsBlank (c : UInt16) : Prop := c = space ∨ c = 9 ∨ c = 10 ∨ c = 13

/-- The parts of a command: the local path, which may be enclosed in quotes with its scheme, and
what comes before the scheme and after the path. -/
structure PutCommand where
  quoted : Bool
  head : List UInt16
  path : List UInt16
  tail : List UInt16
  opened : quoted = true → head.getLast? = some quote
  closed : quoted = true → tail.head? = some quote
  separated : quoted = false → ∃ c ∈ tail.head?, IsBlank c
  unbroken : quoted = false → ∀ c ∈ path, ¬ IsBlank c

namespace PutCommand

/-- What comes before the path. -/
def start (cmd : PutCommand) : List UInt16 := cmd.head ++ FILE_PROTOCOL

/-- The text with a path. -/
def withPath (cmd : PutCommand) (path : List UInt16) : List UInt16 :=
  cmd.start ++ path ++ cmd.tail

def command (cmd : PutCommand) : List UInt16 := cmd.withPath cmd.path

/-- What is looked for is found at the path: it has no blank and no quote, one of these follows,
and neither the scheme nor the path occurs before its place. -/
structure Plain (cmd : PutCommand) : Prop where
  path : ∀ c ∈ cmd.path, c ≠ space ∧ c ≠ quote
  tail : ∃ c ∈ cmd.tail.head?, c = space ∨ c = quote
  blank : space ∈ cmd.tail
  scheme : ∀ i < cmd.head.length, ¬ FILE_PROTOCOL <+: cmd.command.drop i
  first : ∀ i < cmd.start.length, ¬ cmd.path <+: cmd.command.drop i

/-- A name that stands for itself as a replacement. -/
def Literal (cmd : PutCommand) (dstFileName : List UInt16) : Prop :=
  expand cmd.path cmd.start cmd.tail dstFileName = dstFileName

end PutCommand

/-! ## the end of the path -/

/-- The place of the first blank or quote, if there is a blank. -/
def endOf (rest : List UInt16) : Option Nat :=
  (indexOf? [space] rest).map fun spaceIndex =>
    match indexOf? [quote] rest with
    | some quoteIndex => min quoteIndex spaceIndex
    | none => spaceIndex

theorem space_ne_quote : space ≠ quote := by decide

theorem mem_take_of_lt {c : UInt16} {rest : List UInt16} {i e : Nat} (h : rest[i]? = some c)
    (hlt : i < e) : c ∈ rest.take e := by
  obtain ⟨hi, rfl⟩ := List.getElem?_eq_some_iff.mp h
  exact List.mem_take_iff_getElem.mpr ⟨i, by omega, rfl⟩

theorem endOf_eq_some_iff {rest : List UInt16} {e : Nat} :
    endOf rest = some e ↔ space ∈ rest ∧ (∃ c ∈ rest[e]?, c = space ∨ c = quote) ∧
      ∀ c ∈ rest.take e, c ≠ space ∧ c ≠ quote := by
  rw [endOf]
  cases hspace : indexOf? [space] rest with
  | none => simp [indexOf?_singleton_eq_none.mp hspace]
  | some k =>
      obtain ⟨hk, hkfirst⟩ := indexOf?_singleton.mp hspace
      have hmem : space ∈ rest := List.mem_of_getElem? hk
      simp only [Option.map_some, Option.some.injEq, hmem, true_and]
      cases hquote : indexOf? [quote] rest with
      | none =>
          have hnot := indexOf?_singleton_eq_none.mp hquote
          constructor
          · rintro rfl
            refine ⟨⟨space, hk, .inl rfl⟩, fun c hc => ⟨?_, ?_⟩⟩
            · exact fun h => hkfirst (h ▸ hc)
            · exact fun h => hnot (h ▸ List.mem_of_mem_take hc)
          · rintro ⟨⟨c, hc, rfl | rfl⟩, hfirst⟩
            · have hat : indexOf? [space] rest = some e :=
                indexOf?_singleton.mpr ⟨hc, fun h => (hfirst _ h).1 rfl⟩
              exact Option.some.inj (hspace.symm.trans hat)
            · exact absurd (List.mem_of_getElem? hc) hnot
      | some q =>
          obtain ⟨hq, hqfirst⟩ := indexOf?_singleton.mp hquote
          have hne : q ≠ k := by
            rintro rfl
            exact space_ne_quote (Option.some.inj (hk.symm.trans hq))
          dsimp only
          constructor
          · rintro rfl
            refine ⟨?_, fun c hc => ⟨?_, ?_⟩⟩
            · obtain hlt | hlt := Nat.lt_or_gt_of_ne hne
              · rw [Nat.min_eq_left hlt.le]
                exact ⟨quote, hq, .inr rfl⟩
              · rw [Nat.min_eq_right hlt.le]
                exact ⟨space, hk, .inl rfl⟩
            · rintro rfl
              exact hkfirst ((List.take_subset_take_left rest (Nat.min_le_right q k)) hc)
            · rintro rfl
              exact hqfirst ((List.take_subset_take_left rest (Nat.min_le_left q k)) hc)
          · rintro ⟨⟨c, hc, hchar⟩, hfirst⟩
            have hqe : e ≤ q := by
              by_contra hlt
              exact (hfirst _ (mem_take_of_lt hq (by omega))).2 rfl
            have hke : e ≤ k := by
              by_contra hlt
              exact (hfirst _ (mem_take_of_lt hk (by omega))).1 rfl
            obtain rfl | rfl := hchar
            · have : ¬ k > e := fun hlt => hkfirst (mem_take_of_lt hc hlt)
              omega
            · have : ¬ q > e := fun hlt => hqfirst (mem_take_of_lt hc hlt)
              omega

theorem getFileNameFromPutCommand_eq {command : List UInt16} {i : Nat}
    (h : indexOf? FILE_PROTOCOL command = some i) :
    getFileNameFromPutCommand command =
      match endOf (command.drop (i + 7)) with
      | some e => (command.drop (i + 7)).take e
      | none => (command.drop (i + 6)).take 1 := by
  have hstart : indexOf command FILE_PROTOCOL + FILE_PROTOCOL.length = ((i + 7 : Nat) : Int) := by
    rw [indexOf_of_some h]
    rfl
  have hlength : i + 7 ≤ command.length := by
    obtain ⟨hi, hprefix, _⟩ := indexOf?_eq_some_iff.mp h
    have hle := hprefix.length_le
    rw [List.length_drop, show FILE_PROTOCOL.length = 7 from rfl] at hle
    omega
  have hrest : substring command ((i + 7 : Nat) : Int) command.length = command.drop (i + 7) := by
    rw [substring_of_le command hlength, List.take_of_length_le (by simp)]
  simp only [getFileNameFromPutCommand, hstart, hrest, endOf]
  cases hspace : indexOf? [space] (command.drop (i + 7)) with
  | none =>
      -- the end lies before the start
      have hend : ¬ (indexOf (command.drop (i + 7)) [quote] ≠ -1 ∧
          indexOf (command.drop (i + 7)) [quote] < -1) := by
        cases hquote : indexOf? [quote] (command.drop (i + 7)) with
        | none => simp [indexOf_of_none hquote]
        | some q =>
            rw [indexOf_of_some hquote]
            omega
      rw [indexOf_of_none hspace, if_neg hend, substring_comm]
      have hcast : ((i + 7 : Nat) : Int) + -1 = ((i + 6 : Nat) : Int) := by omega
      rw [hcast, substring_of_le command (by omega)]
      simp
  | some k =>
      have htake : ∀ e : Nat, substring command ((i + 7 : Nat) : Int) (((i + 7 : Nat) : Int) + e) =
          (command.drop (i + 7)).take e := by
        intro e
        have hcast : ((i + 7 : Nat) : Int) + e = ((i + 7 + e : Nat) : Int) := by omega
        rw [hcast, substring_of_le command (by omega), Nat.add_sub_cancel_left]
      rw [indexOf_of_some hspace]
      cases hquote : indexOf? [quote] (command.drop (i + 7)) with
      | none =>
          rw [indexOf_of_none hquote, if_neg (by simp)]
          exact htake k
      | some q =>
          rw [indexOf_of_some hquote]
          simp only [Option.map_some]
          split_ifs with hlt
          · rw [htake, Nat.min_eq_left (by omega)]
          · rw [htake, Nat.min_eq_right (by omega)]

namespace PutCommand

variable {cmd : PutCommand}

theorem command_eq (cmd : PutCommand) : cmd.command = cmd.start ++ cmd.path ++ cmd.tail := rfl

theorem drop_start (cmd : PutCommand) :
    cmd.command.drop cmd.start.length = cmd.path ++ cmd.tail := by
  rw [command_eq, List.append_assoc, List.drop_left]

theorem length_start (cmd : PutCommand) : cmd.start.length = cmd.head.length + 7 := by
  rw [start, List.length_append]
  rfl

/-- The scheme is found at its place or before. -/
theorem exists_scheme (cmd : PutCommand) :
    ∃ i ≤ cmd.head.length, indexOf? FILE_PROTOCOL cmd.command = some i := by
  apply exists_indexOf?
  · simp [command_eq, start]
  · rw [command_eq, start, List.append_assoc, List.append_assoc, List.drop_left]
    exact List.prefix_append _ _

/-- In a plain command the path is what is replaced, at its place. -/
theorem Plain.getFileName (h : cmd.Plain) : getFileNameFromPutCommand cmd.command = cmd.path := by
  obtain ⟨i, hi, hscheme⟩ := cmd.exists_scheme
  have hplace : i = cmd.head.length := by
    by_contra hne
    exact h.scheme i (by omega) (indexOf?_eq_some_iff.mp hscheme).2.1
  have hdrop := cmd.drop_start
  rw [cmd.length_start, ← hplace] at hdrop
  have hend : endOf (cmd.path ++ cmd.tail) = some cmd.path.length := by
    refine endOf_eq_some_iff.mpr ⟨List.mem_append_right _ h.blank, ?_, ?_⟩
    · obtain ⟨c, hc, hchar⟩ := h.tail
      refine ⟨c, ?_, hchar⟩
      rw [List.getElem?_append_right le_rfl, Nat.sub_self, ← List.head?_eq_getElem?]
      exact hc
    · simpa using h.path
  rw [getFileNameFromPutCommand_eq hscheme, hdrop, hend]
  simp

theorem Plain.replace_eq (h : cmd.Plain) (dst : List UInt16) :
    replace cmd.command (getFileNameFromPutCommand cmd.command) dst =
      cmd.start ++ expand cmd.path cmd.start cmd.tail dst ++ cmd.tail := by
  rw [h.getFileName, command_eq]
  refine replace_of_indexOf? (indexOf?_eq_some_iff.mpr ⟨by simp, ?_, h.first⟩) dst
  rw [List.append_assoc, List.drop_left]
  exact List.prefix_append _ _

/-- Where a long word is put in the same text at two places, the places are the same: what comes
before the later one does not end with the word's character. -/
theorem places_eq {before after first rest : List UInt16} {c : UInt16} {n : Nat}
    (h : before ++ List.replicate n c ++ after = first ++ List.replicate n c ++ rest)
    (hle : before.length ≤ first.length) (hn : first.length ≤ n)
    (hlast : ∀ d ∈ first.getLast?, d ≠ c) : before = first ∧ after = rest := by
  have hlength : before.length = first.length := by
    by_contra hne
    -- the last character before the later place is one of the word
    have hchar := congrArg (·[first.length - 1]?) h
    simp only [List.append_assoc] at hchar
    rw [List.getElem?_append_right (by omega), List.getElem?_append_left (by simp; omega),
      List.getElem?_replicate, if_pos (by omega), List.getElem?_append_left (by omega),
      ← List.getLast?_eq_getElem?] at hchar
    exact hlast c hchar.symm rfl
  rw [List.append_assoc, List.append_assoc] at h
  obtain ⟨hbefore, htail⟩ := List.append_inj h hlength
  exact ⟨hbefore, (List.append_inj htail rfl).2⟩

/-- A text that every literal name replaces to the right effect is the path at its place. -/
theorem place_of_replace {name : List UInt16} {place : Nat}
    (hplace : indexOf? name cmd.command = some place) (hle : place ≤ cmd.start.length)
    (h : ∀ dst, cmd.Literal dst → replace cmd.command name dst = cmd.withPath dst) :
    place = cmd.start.length ∧ name = cmd.path := by
  obtain ⟨hlt, ⟨after, hafter⟩, _⟩ := indexOf?_eq_some_iff.mp hplace
  have hnot : unit '$' ∉ List.replicate cmd.start.length (unit 'a') := fun hmem =>
    absurd (List.eq_of_mem_replicate hmem) (by decide)
  have hword := h _ (expand_of_notMem hnot)
  have hdrop : cmd.command.drop (place + name.length) = after := by
    rw [← List.drop_drop, ← hafter, List.drop_left]
  simp only [replace, hplace, hdrop, expand_of_notMem hnot] at hword
  have hlast : ∀ d ∈ cmd.start.getLast?, d ≠ unit 'a' := by
    have hslash : cmd.start.getLast? = some (unit '/') := by
      rw [start, List.getLast?_append]
      rfl
    rw [hslash]
    rintro d hd
    obtain rfl := Option.some.inj hd
    decide
  have hlength : (cmd.command.take place).length = place := List.length_take_of_le hlt
  obtain ⟨hbefore, htail⟩ := places_eq hword (by omega) le_rfl hlast
  have heq : place = cmd.start.length := by rw [← hlength, hbefore]
  rw [heq, cmd.drop_start, htail] at hafter
  exact ⟨heq, List.append_cancel_right hafter⟩

/-- A command is plain where its path is found at its place. -/
theorem plain_of_place {i : Nat} (hscheme : indexOf? FILE_PROTOCOL cmd.command = some i)
    (hi : i = cmd.head.length) {e : Nat} (hend : endOf (cmd.path ++ cmd.tail) = some e)
    (hpath : (cmd.path ++ cmd.tail).take e = cmd.path)
    (hplace : indexOf? cmd.path cmd.command = some cmd.start.length) : cmd.Plain := by
  obtain ⟨hblank, ⟨c, hc, hchar⟩, hfirst⟩ := endOf_eq_some_iff.mp hend
  have he : e = cmd.path.length := by
    have hlt := (List.getElem?_eq_some_iff.mp hc).1
    have hlength := congrArg List.length hpath
    rw [List.length_take] at hlength
    omega
  rw [hpath] at hfirst
  exact
    { path := hfirst
      tail := by
        refine ⟨c, ?_, hchar⟩
        rw [he, List.getElem?_append_right le_rfl, Nat.sub_self, ← List.head?_eq_getElem?] at hc
        exact hc
      blank := by
        obtain hmem | hmem := List.mem_append.mp hblank
        · exact absurd rfl (hfirst _ hmem).1
        · exact hmem
      scheme := hi ▸ (indexOf?_eq_some_iff.mp hscheme).2.2
      first := (indexOf?_eq_some_iff.mp hplace).2.2 }

/-- What is replaced by every literal name to the right effect is the path of a plain command. -/
theorem plain_of_replace
    (h : ∀ dst, cmd.Literal dst →
      replace cmd.command (getFileNameFromPutCommand cmd.command) dst = cmd.withPath dst) :
    cmd.Plain := by
  obtain ⟨i, hi, hscheme⟩ := cmd.exists_scheme
  have hstart := cmd.length_start
  have hlength : cmd.start.length ≤ cmd.command.length := by simp [command_eq]
  rw [getFileNameFromPutCommand_eq hscheme] at h
  cases hend : endOf (cmd.command.drop (i + 7)) with
  | none =>
      -- the character before the path is looked for
      simp only [hend] at h
      obtain ⟨place, hle, hplace⟩ := exists_indexOf? (i := i + 6) (by omega)
        (List.take_prefix 1 (cmd.command.drop (i + 6)))
      have := (place_of_replace hplace (by omega) h).1
      omega
  | some e =>
      simp only [hend] at h
      obtain ⟨place, hle, hplace⟩ := exists_indexOf? (i := i + 7) (by omega)
        (List.take_prefix e (cmd.command.drop (i + 7)))
      obtain ⟨heq, hname⟩ := place_of_replace hplace (by omega) h
      have hhead : i = cmd.head.length := by omega
      rw [hname, heq] at hplace
      rw [show i + 7 = cmd.start.length by omega, cmd.drop_start] at hend hname
      exact plain_of_place hscheme hhead hend hname hplace

end PutCommand

/-- The command that is sent again for a name is the original with the name in the place of the
path. -/
def NamesFile (cmd : PutCommand) (dstFileName : List UInt16) : Prop :=
  singleFileCommands cmd.command [dstFileName] = [cmd.withPath dstFileName]

instance (cmd : PutCommand) (dstFileName : List UInt16) : Decidable (NamesFile cmd dstFileName) :=
  inferInstanceAs (Decidable (_ = _))

/-- The plain commands are those that every literal name is put into, and only literal names are
put into them. -/
theorem namesFile_iff (cmd : PutCommand) :
    ((∀ dst, cmd.Literal dst → NamesFile cmd dst) ↔ cmd.Plain) ∧
    (cmd.Plain → ∀ dst, NamesFile cmd dst ↔ cmd.Literal dst) := by
  have hplain : cmd.Plain → ∀ dst, NamesFile cmd dst ↔ cmd.Literal dst := by
    intro h dst
    simp only [NamesFile, singleFileCommands, List.map_cons, List.map_nil, List.cons.injEq,
      and_true, h.replace_eq, PutCommand.withPath, PutCommand.Literal, List.append_cancel_left_eq,
      List.append_cancel_right_eq]
  refine ⟨⟨fun h => ?_, fun h dst hdst => (hplain h dst).mpr hdst⟩, hplain⟩
  exact PutCommand.plain_of_replace fun dst hdst => List.head_eq_of_cons_eq (h dst hdst)

/-- A path with a blank, as it is enclosed in quotes. -/
def blankCommand : PutCommand where
  quoted := true
  head := text "PUT '"
  path := text "a b"
  tail := text "' @s"
  opened := fun _ => rfl
  closed := fun _ => rfl
  separated := nofun
  unbroken := nofun

/-- Only what comes before the blank is replaced. -/
theorem not_namesFile : ¬ ∀ (cmd : PutCommand) (dst : List UInt16), NamesFile cmd dst :=
  fun h => absurd (h blankCommand (text "c")) (by decide +kernel)

end FileTransferAgent

end SnowflakeConnector
