import Mathlib

/-!
# SnowflakeConnector.PosixPath

The lexical operations of Node's `path.posix` on a path as its characters, and the absolute paths
without empty, `.` or `..` segments; below them a tree of directories and files, whose calls take
written paths.

* `slash_not_mem_basename` -- a last segment is one segment;
* `join_text` -- joining one segment to an absolute path;
* `dirname_text` -- the directory of a path is what its last segment was joined to;
* `FileSystem.entries_writeFile` -- what a file that is written leaves of the tree.
-/

namespace PosixPath

/-! ## the operations -/

/-- One segment of a path, behind those that are resolved. -/
def resolveStep (allowAboveRoot : Bool) (resolved : List (List Char)) (segment : List Char) :
    List (List Char) :=
  if segment = [] ∨ segment = ['.'] then resolved
  else if segment = ['.', '.'] then
    if resolved ≠ [] ∧ resolved.getLast? ≠ some ['.', '.'] then resolved.dropLast
    else if allowAboveRoot then resolved ++ [['.', '.']]
    else resolved
  else resolved ++ [segment]

def resolveSegments (allowAboveRoot : Bool) (path : List Char) : List (List Char) :=
  (path.splitOn '/').foldl (resolveStep allowAboveRoot) []

def isAbsolute (path : List Char) : Bool := path.head? = some '/'

def normalize (path : List Char) : List Char :=
  if path = [] then ['.']
  else
    let trailingSeparator := path.getLast? = some '/'
    let body := ['/'].intercalate (resolveSegments (!isAbsolute path) path)
    if body = [] then
      if isAbsolute path then ['/'] else if trailingSeparator then ['.', '/'] else ['.']
    else
      (if isAbsolute path then ['/'] else []) ++ body ++ if trailingSeparator then ['/'] else []

def join (paths : List (List Char)) : List Char :=
  let joined := ['/'].intercalate (paths.filter (· ≠ []))
  if joined = [] then ['.'] else normalize joined

/-- What stands behind the last separator, trailing ones left aside. -/
def basename (path : List Char) : List Char :=
  ((path.reverse.dropWhile (· = '/')).takeWhile (· ≠ '/')).reverse

def dirname : List Char → List Char
  | [] => ['.']
  | c :: cs =>
      match (cs.reverse.dropWhile (· = '/')).dropWhile (· ≠ '/') with
      | [] => if c = '/' then ['/'] else ['.']
      | _ :: dir => if c = '/' ∧ dir = [] then ['/', '/'] else c :: dir.reverse

/-! ## paths without detours -/

/-- A segment that names an entry of a directory. -/
def Proper (segment : List Char) : Prop :=
  '/' ∉ segment ∧ segment ≠ [] ∧ segment ≠ ['.'] ∧ segment ≠ ['.', '.']

instance (segment : List Char) : Decidable (Proper segment) :=
  inferInstanceAs (Decidable (_ ∧ _ ∧ _ ∧ _))

/-- An absolute path by the entries on the way to it. -/
@[ext]
structure RealPath where
  segments : List (List Char)
  proper : ∀ segment ∈ segments, Proper segment
  deriving DecidableEq

namespace RealPath

def text (p : RealPath) : List Char := '/' :: ['/'].intercalate p.segments

def parent (p : RealPath) : RealPath where
  segments := p.segments.dropLast
  proper := fun segment h => p.proper segment (List.dropLast_subset _ h)

def child (p : RealPath) (segment : List Char) (h : Proper segment) : RealPath where
  segments := p.segments ++ [segment]
  proper := by
    intro s hs
    obtain hs | hs := List.mem_append.mp hs
    · exact p.proper s hs
    · exact List.mem_singleton.mp hs ▸ h

def root : RealPath := ⟨[], by simp⟩

theorem parent_child (p : RealPath) {segment : List Char} (h : Proper segment) :
    (p.child segment h).parent = p :=
  RealPath.ext List.dropLast_concat

theorem root_or_child (p : RealPath) :
    p = root ∨ ∃ (q : RealPath) (segment : List Char) (h : Proper segment),
      p = q.child segment h := by
  obtain hp | ⟨front, last, hsegments⟩ := List.eq_nil_or_concat p.segments
  · exact .inl (RealPath.ext hp)
  · have hlast : Proper last := p.proper last (by simp [hsegments])
    refine .inr ⟨p.parent, last, hlast, RealPath.ext ?_⟩
    simp [parent, child, hsegments]

/-- The segments of a written path; the first one is before the root. -/
theorem splitOn_text (p : RealPath) :
    p.text.splitOn '/' = [] :: if p.segments = [] then [[]] else p.segments := by
  have hroot : p.text.splitOn '/' = [] :: (['/'].intercalate p.segments).splitOn '/' :=
    List.splitOn_append_cons_self [] _
  rw [hroot]
  split_ifs with h
  · simp [h]
  · rw [List.splitOn_intercalate '/' (fun s hs => (p.proper s hs).1) h]

/-- Below the root a child is written behind its directory. -/
theorem text_child (p : RealPath) {segment : List Char} (h : Proper segment)
    (hp : p.segments ≠ []) : (p.child segment h).text = p.text ++ '/' :: segment := by
  have hsplit : (p.text ++ '/' :: segment).splitOn '/' = [] :: (p.segments ++ [segment]) := by
    rw [List.splitOn_append_cons_self, splitOn_text, if_neg hp, List.splitOn_eq_singleton h.1]
    rfl
  calc (p.child segment h).text
    _ = ['/'].intercalate ([] :: (p.segments ++ [segment])) := by
        rw [List.intercalate_cons_of_ne_nil (by simp)]
        rfl
    _ = ['/'].intercalate ((p.text ++ '/' :: segment).splitOn '/') := by rw [hsplit]
    _ = p.text ++ '/' :: segment := List.intercalate_splitOn '/'

theorem getLast?_text_child (p : RealPath) {segment : List Char} (h : Proper segment) :
    (p.child segment h).text.getLast? = segment.getLast? := by
  by_cases hp : p.segments = []
  · have htext : (p.child segment h).text = '/' :: segment := by simp [text, child, hp]
    rw [htext, List.getLast?_cons_of_ne_nil h.2.1]
  · rw [text_child p h hp, List.getLast?_append_cons, List.getLast?_cons_of_ne_nil h.2.1]

end RealPath

/-! ### resolving -/

theorem resolveStep_proper (allowAboveRoot : Bool) (resolved : List (List Char))
    {segment : List Char} (h : Proper segment) :
    resolveStep allowAboveRoot resolved segment = resolved ++ [segment] := by
  rw [resolveStep, if_neg (not_or.mpr ⟨h.2.1, h.2.2.1⟩), if_neg h.2.2.2]

theorem foldl_resolveStep_proper (allowAboveRoot : Bool) {segments : List (List Char)}
    (h : ∀ s ∈ segments, Proper s) (resolved : List (List Char)) :
    segments.foldl (resolveStep allowAboveRoot) resolved = resolved ++ segments := by
  induction segments generalizing resolved with
  | nil => simp
  | cons s segments ih =>
      obtain ⟨hs, hsegments⟩ := List.forall_mem_cons.mp h
      rw [List.foldl_cons, resolveStep_proper _ _ hs, ih hsegments]
      simp

/-- Above the root there is nothing, so no `..` is left. -/
theorem resolveStep_keeps {resolved : List (List Char)} (h : ∀ s ∈ resolved, Proper s)
    {segment : List Char} (hslash : '/' ∉ segment) :
    ∀ s ∈ resolveStep false resolved segment, Proper s := by
  rw [resolveStep, if_neg Bool.false_ne_true]
  split_ifs with hskip hup hpop
  · exact h
  · exact fun s hs => h s (List.dropLast_subset _ hs)
  · exact h
  · intro s hs
    obtain hs | hs := List.mem_append.mp hs
    · exact h s hs
    · rw [List.mem_singleton.mp hs]
      exact ⟨hslash, fun he => hskip (.inl he), fun he => hskip (.inr he), hup⟩

theorem slash_not_mem_of_mem_splitOn {path segment : List Char} (h : segment ∈ path.splitOn '/') :
    '/' ∉ segment := by
  induction path generalizing segment with
  | nil => simp_all
  | cons c path ih =>
      rw [List.splitOn_cons_eq_if_modifyHead] at h
      split_ifs at h with hc
      · obtain rfl | h := List.mem_cons.mp h
        · simp
        · exact ih h
      · obtain ⟨first, rest, hsplit⟩ := List.exists_cons_of_ne_nil (List.splitOn_ne_nil '/' path)
        rw [hsplit] at h ih
        obtain rfl | h := List.mem_cons.mp h
        · rw [List.mem_cons, not_or]
          exact ⟨fun he => hc (beq_iff_eq.mpr he.symm), ih (.head _)⟩
        · exact ih (.tail _ h)

/-- An absolute path with its detours resolved. -/
def resolve (path : List Char) : RealPath where
  segments := resolveSegments false path
  proper := by
    have hkeeps : ∀ segments : List (List Char), (∀ s ∈ segments, '/' ∉ s) →
        ∀ resolved : List (List Char), (∀ s ∈ resolved, Proper s) →
        ∀ s ∈ segments.foldl (resolveStep false) resolved, Proper s := by
      intro segments
      induction segments with
      | nil => exact fun _ _ h => h
      | cons s segments ih =>
          intro hslash resolved h
          obtain ⟨hs, hsegments⟩ := List.forall_mem_cons.mp hslash
          exact ih hsegments _ (resolveStep_keeps h hs)
    exact hkeeps _ (fun s => slash_not_mem_of_mem_splitOn) [] (by simp)

theorem resolve_text (p : RealPath) : resolve p.text = p := by
  refine RealPath.ext ?_
  have hstep : resolveStep false [] [] = [] := rfl
  show resolveSegments false p.text = p.segments
  rw [resolveSegments, RealPath.splitOn_text, List.foldl_cons, hstep]
  split_ifs with h
  · rw [h]
    rfl
  · rw [foldl_resolveStep_proper false p.proper, List.nil_append]

namespace RealPath

/-- Where one more segment leads. -/
def enter (p : RealPath) (segment : List Char) (h : '/' ∉ segment) : RealPath where
  segments := resolveStep false p.segments segment
  proper := resolveStep_keeps p.proper h

theorem enter_proper (p : RealPath) {segment : List Char} (h : Proper segment) :
    p.enter segment h.1 = p.child segment h :=
  RealPath.ext (resolveStep_proper false p.segments h)

theorem enter_up (p : RealPath) {segment : List Char} (hslash : '/' ∉ segment)
    (h : segment = ['.', '.']) : p.enter segment hslash = p.parent := by
  subst h
  refine RealPath.ext ?_
  show resolveStep false p.segments ['.', '.'] = p.segments.dropLast
  rw [resolveStep, if_neg (by decide), if_pos rfl, if_neg Bool.false_ne_true]
  split_ifs with hpop
  · rfl
  · obtain hnil | hlast : p.segments = [] ∨ p.segments.getLast? = some ['.', '.'] := by
      simpa [or_iff_not_imp_left] using hpop
    · rw [hnil]
      rfl
    · exact absurd rfl (p.proper _ (List.mem_of_getLast? hlast)).2.2.2

theorem enter_here (p : RealPath) {segment : List Char} (hslash : '/' ∉ segment)
    (h : segment = [] ∨ segment = ['.']) : p.enter segment hslash = p :=
  RealPath.ext (if_pos h)

end RealPath

/-- One more segment behind an absolute path. -/
theorem resolve_append (path : List Char) {segment : List Char} (h : '/' ∉ segment) :
    resolve (path ++ '/' :: segment) = (resolve path).enter segment h := by
  refine RealPath.ext ?_
  show resolveSegments false (path ++ '/' :: segment) = _
  rw [resolveSegments, List.splitOn_append_cons_self, List.splitOn_eq_singleton h,
    List.foldl_append]
  rfl

/-- What is written for an absolute path that does not end in a separator. -/
theorem normalize_absolute {path : List Char} (habsolute : isAbsolute path = true)
    (htrailing : path.getLast? ≠ some '/') : normalize path = (resolve path).text := by
  have hne : path ≠ [] := by
    rintro rfl
    cases habsolute
  have hsegments : (resolve path).segments = resolveSegments false path := rfl
  rw [normalize, if_neg hne, habsolute, RealPath.text, hsegments]
  simp only [Bool.not_true, if_neg htrailing, if_true]
  split_ifs with hbody
  · rw [hbody]
  · simp

/-! ## what is joined -/

theorem slash_not_mem_basename (path : List Char) : '/' ∉ basename path := by
  intro h
  have hne := List.mem_takeWhile_imp (List.mem_reverse.mp h)
  simp at hne

/-- A written path does not end in a separator, the root apart. -/
theorem normalize_text (p : RealPath) : normalize p.text = p.text := by
  obtain rfl | ⟨q, segment, h, rfl⟩ := p.root_or_child
  · decide
  · have htrailing : (q.child segment h).text.getLast? ≠ some '/' := by
      rw [RealPath.getLast?_text_child]
      exact fun he => h.1 (List.mem_of_getLast? he)
    rw [normalize_absolute rfl htrailing, resolve_text]

/-- A segment that is joined to an absolute path. -/
theorem join_text (p : RealPath) {segment : List Char} (h : '/' ∉ segment) :
    join [p.text, segment] = (p.enter segment h).text := by
  have hpath : p.text ≠ [] := by simp [RealPath.text]
  by_cases hsegment : segment = []
  · have hjoined : ['/'].intercalate ([p.text, segment].filter (· ≠ [])) = p.text := by
      simp [hpath, hsegment]
    rw [join, hjoined, if_neg hpath, normalize_text, p.enter_here h (.inl hsegment)]
  · have hjoined : ['/'].intercalate ([p.text, segment].filter (· ≠ [])) =
        p.text ++ '/' :: segment := by
      simp [hpath, hsegment, List.intercalate_cons_cons]
    have hlast : (p.text ++ '/' :: segment).getLast? ≠ some '/' := by
      rw [List.getLast?_append_cons, List.getLast?_cons_of_ne_nil hsegment]
      exact fun he => h (List.mem_of_getLast? he)
    rw [join, hjoined, if_neg (by simp), normalize_absolute rfl hlast, resolve_append _ h,
      resolve_text]

theorem dirname_child (p : RealPath) {segment : List Char} (h : Proper segment) :
    dirname (p.child segment h).text = p.text := by
  have hreverse : segment.reverse.dropWhile (· = '/') = segment.reverse := by
    obtain ⟨front, c, rfl⟩ := (List.eq_nil_or_concat segment).resolve_left h.2.1
    have hc : c ≠ '/' := fun he => h.1 (by simp [he])
    simp [hc]
  have hall : ∀ c ∈ segment.reverse, decide (c ≠ '/') = true := by
    intro c hc
    have hne : c ≠ '/' := fun he => h.1 (he ▸ List.mem_reverse.mp hc)
    simpa using hne
  by_cases hp : p.segments = []
  · have htext : (p.child segment h).text = '/' :: segment := by
      simp [RealPath.text, RealPath.child, hp]
    have hdrop : segment.reverse.dropWhile (· ≠ '/') = [] := List.dropWhile_eq_nil_iff.mpr hall
    rw [htext, dirname, hreverse, hdrop]
    simp [RealPath.text, hp]
  · have hnil : ['/'].intercalate p.segments ≠ [] := by
      intro hnil
      have hsplit := List.splitOn_intercalate '/' (fun s hs => (p.proper s hs).1) hp
      rw [hnil] at hsplit
      exact (p.proper [] (by simp [← hsplit])).2.1 rfl
    have hdrop : (segment.reverse ++ '/' :: (['/'].intercalate p.segments).reverse).dropWhile
        (· ≠ '/') = '/' :: (['/'].intercalate p.segments).reverse := by
      rw [List.dropWhile_append_of_pos hall]
      simp
    have hslashes : (segment.reverse ++ '/' :: (['/'].intercalate p.segments).reverse).dropWhile
        (· = '/') = segment.reverse ++ '/' :: (['/'].intercalate p.segments).reverse := by
      rw [List.dropWhile_append, hreverse, if_neg]
      simpa using h.2.1
    rw [RealPath.text_child p h hp, RealPath.text, List.cons_append, dirname, List.reverse_append,
      List.reverse_cons, List.append_assoc, List.singleton_append, hslashes, hdrop]
    simp [hnil]

theorem dirname_text (p : RealPath) : dirname p.text = p.parent.text := by
  obtain rfl | ⟨q, segment, h, rfl⟩ := p.root_or_child
  · decide
  · rw [dirname_child, RealPath.parent_child]

/-! ## directories and files -/

variable {C : Type*}

inductive Entry (C : Type*)
  | directory
  | file (content : C)

instance : (entry : Option (Entry C)) → Decidable (entry = some .directory)
  | none => .isFalse nofun
  | some .directory => .isTrue rfl
  | some (.file _) => .isFalse nofun

/-- Whatever is there is in a directory. -/
structure FileSystem (C : Type*) where
  entries : RealPath → Option (Entry C)
  closed : ∀ p, entries p ≠ none → entries p.parent = some .directory

namespace FileSystem

/-- A new entry, or a file for a file. -/
def put (fs : FileSystem C) (p : RealPath) (entry : Entry C)
    (hparent : fs.entries p.parent = some .directory) (hp : fs.entries p ≠ some .directory) :
    FileSystem C where
  entries := fun q => if q = p then some entry else fs.entries q
  closed := by
    intro q hq
    have hne : p.parent ≠ p := fun he => hp (he ▸ hparent)
    by_cases hqp : q = p
    · rw [hqp, if_neg hne, hparent]
    · rw [if_neg hqp] at hq
      have hbelow : q.parent ≠ p := by
        rintro rfl
        exact hp (fs.closed q hq)
      rw [if_neg hbelow, fs.closed q hq]

/-- `fs.mkdir` of an absolute path; an error leaves the tree as it is. -/
def mkdir (fs : FileSystem C) (path : List Char) : FileSystem C :=
  let p := resolve path
  if h : fs.entries p.parent = some .directory ∧ (fs.entries p).isNone then
    fs.put p .directory h.1 (by simp [Option.isNone_iff_eq_none.mp h.2])
  else fs

/-- `fs.writeFile` of an absolute path; an error leaves the tree as it is. -/
def writeFile (fs : FileSystem C) (path : List Char) (content : C) : FileSystem C :=
  let p := resolve path
  if h : fs.entries p.parent = some .directory ∧ fs.entries p ≠ some .directory then
    fs.put p (.file content) h.1 h.2
  else fs

/-- A directory is on the way from the root through directories. -/
theorem directory_parent {fs : FileSystem C} {p : RealPath}
    (h : fs.entries p = some .directory) : fs.entries p.parent = some .directory :=
  fs.closed p (by simp [h])

theorem mkdir_of_exists {fs : FileSystem C} {path : List Char}
    (h : fs.entries (resolve path) ≠ none) : fs.mkdir path = fs :=
  dif_neg fun he => h (Option.isNone_iff_eq_none.mp he.2)

theorem writeFile_directory {fs : FileSystem C} {path : List Char} (content : C)
    (h : fs.entries (resolve path) = some .directory) : fs.writeFile path content = fs :=
  dif_neg fun he => he.2 h

theorem entries_writeFile {fs : FileSystem C} {path : List Char} (content : C)
    (hparent : fs.entries (resolve path).parent = some .directory)
    (h : fs.entries (resolve path) ≠ some .directory) (q : RealPath) :
    (fs.writeFile path content).entries q =
      if q = resolve path then some (.file content) else fs.entries q := by
  rw [writeFile, dif_pos ⟨hparent, h⟩]
  rfl

end FileSystem

end PosixPath
