import SnowflakeConnector.JsonCredentialManager

/-!
# SnowflakeConnector.JsonCredentialManager.Store

`lib/authentication/secure_storage/json_credential_manager.js`: what `write`, `read` and
`remove` do to the file of cached credentials while they hold the lock, and the keys that
`buildCredentialCacheKey` of `lib/util.ts` makes of a host, a user and a type.

Every call to the file system may fail.  The hash of a key and the upper case of a character
are parameters.

* `holds_iff` -- the runs in which every read that is not cut short returns what the completed
  writes and removes have left.
-/

namespace SnowflakeConnector

namespace JsonCredentialManager

open Json (Value)

/-! ## keys -/

/-- Whose credential it is, and of which type. -/
structure Credential where
  host : List Char
  username : List Char
  credType : List Char
  deriving DecidableEq, Repr

def separator : List Char := ['\x7d', ':', '\x7b']

/-- `toUpperCase`, a character at a time. -/
def toUpperCase (upper : Char → List Char) (text : List Char) : List Char := text.flatMap upper

def Credential.toUpperCase (upper : Char → List Char) (c : Credential) : Credential where
  host := JsonCredentialManager.toUpperCase upper c.host
  username := JsonCredentialManager.toUpperCase upper c.username
  credType := JsonCredentialManager.toUpperCase upper c.credType

/-- The three parts with the separator between them. -/
def Credential.join (c : Credential) : List Char :=
  c.host ++ separator ++ (c.username ++ separator ++ c.credType)

/-- `buildCredentialCacheKey`. -/
def buildCredentialCacheKey (upper : Char → List Char) (c : Credential) : Option (List Char) :=
  if c.host = [] ∨ c.username = [] ∨ c.credType = [] then none
  else some ('\x7b' :: ((c.toUpperCase upper).join ++ ['\x7d']))

/-- No part of a credential can be cut at a separator so that its parts would be those of
another one. -/
structure Credential.Apart (c : Credential) : Prop where
  host : ∀ a b, c.host = a ++ separator ++ b → a = []
  username : ∀ a b, c.username = a ++ separator ++ b → a = [] ∧ b = []
  credType : ∀ a b, c.credType = a ++ separator ++ b → b = []

/-- A separator does not overlap another one. -/
theorem separator_prefix {as x y : List Char} (h : as ++ separator ++ x = separator ++ y) :
    as = [] ∧ x = y ∨ ∃ more, as = separator ++ more ∧ more ++ separator ++ x = y := by
  match as with
  | [] => exact Or.inl ⟨rfl, by simpa [separator] using h⟩
  | [a] => simp [separator] at h
  | [a, b] => simp [separator] at h
  | a :: b :: c :: more =>
      simp only [separator, List.cons_append, List.nil_append, List.append_assoc,
        List.cons.injEq] at h
      obtain ⟨rfl, rfl, rfl, h⟩ := h
      exact Or.inr ⟨more, rfl, by simpa [separator] using h⟩

/-- Two ways to cut a text at a separator. -/
theorem cut_cases {a x b y : List Char} (h : a ++ separator ++ x = b ++ separator ++ y) :
    a = b ∧ x = y ∨ (∃ more, b = a ++ separator ++ more ∧ x = more ++ separator ++ y) ∨
      ∃ more, a = b ++ separator ++ more ∧ y = more ++ separator ++ x := by
  rw [List.append_assoc, List.append_assoc, List.append_eq_append_iff] at h
  rcases h with ⟨as, hb, has⟩ | ⟨as, ha, has⟩
  · rw [← List.append_assoc] at has
    rcases separator_prefix has.symm with ⟨rfl, rfl⟩ | ⟨more, rfl, rfl⟩
    · exact Or.inl ⟨by simpa using hb.symm, rfl⟩
    · exact Or.inr (Or.inl ⟨more, by simpa using hb, rfl⟩)
  · rw [← List.append_assoc] at has
    rcases separator_prefix has.symm with ⟨rfl, rfl⟩ | ⟨more, rfl, rfl⟩
    · exact Or.inl ⟨by simpa using ha, rfl⟩
    · exact Or.inr (Or.inr ⟨more, by simpa using ha, rfl⟩)

/-- Every part has a character. -/
def Credential.Whole (c : Credential) : Prop :=
  c.host ≠ [] ∧ c.username ≠ [] ∧ c.credType ≠ []

/-- A credential that cannot be cut otherwise is the only one of its text. -/
theorem Credential.Apart.eq_of_join {c d : Credential} (h : c.Apart) (hd : d.Whole)
    (hjoin : d.join = c.join) : d = c := by
  obtain ⟨hhost, husername, htype⟩ := hd
  rcases cut_cases hjoin with ⟨h₁, h₂⟩ | ⟨more, h₁, h₂⟩ | ⟨more, h₁, h₂⟩
  · rcases cut_cases h₂ with ⟨h₃, h₄⟩ | ⟨more, h₃, h₄⟩ | ⟨more, h₃, h₄⟩
    · cases c
      cases d
      simp_all
    · exact absurd (h.username _ _ h₃).1 husername
    · exact absurd (h.credType _ _ h₄) htype
  · exact absurd (h.host _ _ h₁) hhost
  · -- the host would end behind a separator, and so the type would begin before one
    rcases cut_cases h₂ with ⟨h₃, h₄⟩ | ⟨more', h₃, h₄⟩ | ⟨more', h₃, h₄⟩
    · exact absurd (h.credType _ _ h₄) htype
    · exact absurd (h.credType _ _ h₄) (by simp [separator])
    · obtain ⟨rfl, rfl⟩ := h.username _ _ h₃
      rcases cut_cases h₄ with ⟨h₅, h₆⟩ | ⟨more', h₅, h₆⟩ | ⟨more', h₅, h₆⟩
      · exact absurd h₅ husername
      · simp [separator] at h₅
      · exact absurd (h.credType _ _ h₆) htype

def Credential.chars (c : Credential) : List Char := c.host ++ c.username ++ c.credType

/-- A credential that can be cut otherwise has the text of another one. -/
theorem Credential.exists_of_not_apart {c : Credential} (hc : c.Whole) (h : ¬ c.Apart) :
    ∃ d : Credential, d.Whole ∧ d ≠ c ∧ d.join = c.join ∧ d.chars ⊆ c.chars := by
  obtain ⟨hhost, husername, htype⟩ := hc
  obtain ⟨host, username, credType⟩ := c
  by_contra hnone
  apply h
  constructor
  · intro a b hcut
    by_contra ha
    dsimp only at hcut
    subst hcut
    apply hnone
    refine ⟨⟨a, b ++ separator ++ username, credType⟩, ⟨ha, ?_, htype⟩, ?_, ?_, ?_⟩
    · simp [separator]
    · simp [separator]
    · simp [Credential.join]
    · intro x hx
      simp only [Credential.chars, List.mem_append] at hx ⊢
      tauto
  · intro a b hcut
    dsimp only at hcut
    subst hcut
    by_contra hab
    apply hnone
    by_cases ha : a = []
    · refine ⟨⟨host ++ separator ++ a, b, credType⟩, ⟨?_, fun hb => hab ⟨ha, hb⟩, htype⟩, ?_, ?_, ?_⟩
      · simp [separator]
      · simp [separator]
      · simp [Credential.join]
      · intro x hx
        simp only [Credential.chars, List.mem_append] at hx ⊢
        tauto
    · refine ⟨⟨host, a, b ++ separator ++ credType⟩, ⟨hhost, ha, ?_⟩, ?_, ?_, ?_⟩
      · simp [separator]
      · simp [separator]
      · simp [Credential.join]
      · intro x hx
        simp only [Credential.chars, List.mem_append] at hx ⊢
        tauto
  · intro a b hcut
    by_contra hb
    dsimp only at hcut
    subst hcut
    apply hnone
    refine ⟨⟨host, username ++ separator ++ a, b⟩, ⟨hhost, ?_, hb⟩, ?_, ?_, ?_⟩
    · simp [separator]
    · simp [separator]
    · simp [Credential.join]
    · intro x hx
      simp only [Credential.chars, List.mem_append] at hx ⊢
      tauto

/-- A character becomes characters that are in upper case already. -/
structure UpperCase (upper : Char → List Char) : Prop where
  ne_nil : ∀ c, upper c ≠ []
  fixed : ∀ c, ∀ d ∈ upper c, upper d = [d]

variable {upper : Char → List Char}

theorem UpperCase.toUpperCase_eq_nil (h : UpperCase upper) (text : List Char) :
    toUpperCase upper text = [] ↔ text = [] := by
  simp only [toUpperCase, List.flatMap_eq_nil_iff]
  constructor
  · intro hall
    exact List.eq_nil_iff_forall_not_mem.mpr fun c hc => h.ne_nil c (hall c hc)
  · rintro rfl
    simp

theorem UpperCase.toUpperCase_of_fixed {text : List Char} (h : ∀ c ∈ text, upper c = [c]) :
    toUpperCase upper text = text := by
  induction text with
  | nil => rfl
  | cons c text ih =>
      have hc := h c List.mem_cons_self
      have hrest := ih fun d hd => h d (List.mem_cons_of_mem c hd)
      unfold toUpperCase at hrest ⊢
      rw [List.flatMap_cons, hc, hrest, List.singleton_append]

/-- The key of whole credentials. -/
theorem buildCredentialCacheKey_eq_some (h : UpperCase upper) {c : Credential} {key : List Char} :
    buildCredentialCacheKey upper c = some key ↔ (c.toUpperCase upper).Whole ∧
      '\x7b' :: ((c.toUpperCase upper).join ++ ['\x7d']) = key := by
  unfold buildCredentialCacheKey
  simp only [Credential.Whole, Credential.toUpperCase, ne_eq, h.toUpperCase_eq_nil]
  split_ifs with hc
  · simp only [false_iff]
    tauto
  · simp only [Option.some.injEq]
    tauto

/-- The key is one of the credential in upper case. -/
theorem buildCredentialCacheKey_congr (h : UpperCase upper) {c d : Credential}
    (heq : d.toUpperCase upper = c.toUpperCase upper) :
    buildCredentialCacheKey upper d = buildCredentialCacheKey upper c := by
  apply Option.ext
  intro key
  rw [buildCredentialCacheKey_eq_some h, buildCredentialCacheKey_eq_some h, heq]

/-- **Keys**: a credential has its key for itself exactly when its parts in upper case cannot be
cut otherwise. -/
theorem unshared_iff (h : UpperCase upper) {c : Credential} {key : List Char}
    (hkey : buildCredentialCacheKey upper c = some key) :
    (∀ d, buildCredentialCacheKey upper d = some key →
        d.toUpperCase upper = c.toUpperCase upper) ↔ (c.toUpperCase upper).Apart := by
  obtain ⟨hwhole, hjoin⟩ := (buildCredentialCacheKey_eq_some h).mp hkey
  constructor
  · intro hunshared
    by_contra hapart
    obtain ⟨d, hd, hne, hdjoin, hchars⟩ := Credential.exists_of_not_apart hwhole hapart
    have hupper : ∀ x ∈ d.chars, upper x = [x] := by
      intro x hx
      have hx := hchars hx
      simp only [Credential.chars, Credential.toUpperCase, toUpperCase, List.mem_append,
        List.mem_flatMap] at hx
      rcases hx with (⟨y, _, hy⟩ | ⟨y, _, hy⟩) | ⟨y, _, hy⟩ <;> exact h.fixed y x hy
    have hsame : d.toUpperCase upper = d := by
      obtain ⟨host, username, credType⟩ := d
      simp only [Credential.chars, List.mem_append] at hupper
      simp only [Credential.toUpperCase, Credential.mk.injEq]
      exact ⟨UpperCase.toUpperCase_of_fixed fun x hx => hupper x (Or.inl (Or.inl hx)),
        UpperCase.toUpperCase_of_fixed fun x hx => hupper x (Or.inl (Or.inr hx)),
        UpperCase.toUpperCase_of_fixed fun x hx => hupper x (Or.inr hx)⟩
    apply hne
    rw [← hsame]
    apply hunshared
    rw [buildCredentialCacheKey_eq_some h, hsame, hdjoin]
    exact ⟨hd, hjoin⟩
  · intro hapart d hd
    obtain ⟨hdwhole, hdjoin⟩ := (buildCredentialCacheKey_eq_some h).mp hd
    rw [← hjoin] at hdjoin
    exact hapart.eq_of_join hdwhole (by simpa using hdjoin)

/-! ## what the operations do to the file -/

/-- What the calls to the file system do while an operation runs: whether there is a directory
and the lock is had, which calls fail, the permission bits and the owner of the file, and how
many characters are missing when not everything is written. -/
structure Replies where
  directory : Bool := true
  locked : Bool := true
  openError : Option String := none
  statError : Option String := none
  permission : Nat := 0o600
  uid : Nat
  readFails : Bool := false
  truncateFails : Bool := false
  missing : Option Nat := none
  closeFails : Bool := false
  unlockFails : Bool := false

/-- What an operation returns or throws, and the file afterwards; there may be none. -/
structure Outcome where
  result : Except String (Option Value)
  file : Option (List Char)

/-- The member under which the tokens are. -/
def tokenMapKey : String := "tokens"

/-- What a file that is opened replies; one that does not exist may be created. -/
def Replies.fileReply (r : Replies) (creates : Bool) (file : Option (List Char)) : FileReply where
  openError :=
    r.openError.or (if file = none ∧ creates = false then some "ENOENT" else none)
  statError := r.statError
  permission := r.permission
  uid := r.uid
  content := if r.readFails = true then none else Json.parse (file.getD [])
  closeFails := r.closeFails

/-- `jsonCredential[tokenMapKey][keyHash]`, unless something on the way counts as false. -/
def tokenOf (jsonCredential : Option Value) (keyHash : String) : Option Value :=
  (jsonCredential.bind fun v => (v.get? tokenMapKey).bind fun tokens =>
    tokens.get? keyHash).filter fun token => ¬ token.isFalsy

def setMember (key : String) (v : Value) (members : List (String × Value)) :
    List (String × Value) :=
  if members.any (·.1 = key) = true then
    members.map fun m => if m.1 = key then (key, v) else m
  else members ++ [(key, v)]

/-- `value[key] = v`; an array keeps the member where `JSON.stringify` does not see it, and a
primitive value throws. -/
def withMember (key : String) (v : Value) : Value → Option Value
  | .obj members => some (.obj (setMember key v members))
  | .arr items => some (.arr items)
  | _ => none

/-- The value with a token, and with a map of tokens if it has none. -/
def setToken (jsonCredential : Value) (keyHash : String) (token : Value) : Option Value :=
  let tokens :=
    match jsonCredential.get? tokenMapKey with
    | none | some .null => .obj []
    | some tokens => tokens
  (withMember keyHash token tokens).bind fun tokens =>
    withMember tokenMapKey tokens jsonCredential

/-- `truncate`, `write` and `close`; what they throw is caught, and what is thrown without a
handle too. -/
def Replies.rewrite (r : Replies) (handle : Bool) (text : List Char) (file : Option (List Char)) :
    Option (List Char) :=
  if handle = false ∨ r.truncateFails = true then file
  else some (text.take (text.length - r.missing.getD 0))

/-- `withFileLocked`. -/
def Replies.withFileLocked (r : Replies) (file : Option (List Char)) (outcome : Outcome) :
    Outcome :=
  if r.directory = false then
    ⟨.error "Temporary credential cache directory is invalid, and the driver is unable to use the default location.\n      Please set 'credentialCacheDir' connection configuration option to enable the default credential manager.",
      file⟩
  else if r.locked = false then ⟨.ok none, file⟩
  else
    match outcome.result with
    | .error err => ⟨.error err, outcome.file⟩
    | .ok res => ⟨if r.unlockFails = true then .error "rmdir" else .ok res, outcome.file⟩

def write (cfg : Config) (r : Replies) (keyHash token : String) (file : Option (List Char)) :
    Outcome :=
  let reply := r.fileReply true file
  let opened := if reply.openError = none then some (file.getD []) else file
  r.withFileLocked file <|
    match getSecureHandle cfg reply with
    | .error err => ⟨.error err, opened⟩
    | .ok handle =>
        let jsonCredential :=
          ((readJsonCredentialFile handle reply).filter fun v => ¬ v.isFalsy).getD (.obj [])
        match setToken jsonCredential keyHash (.str token) with
        | none => ⟨.error "TypeError", opened⟩
        | some v => ⟨.ok none, r.rewrite handle (Json.stringify v) opened⟩

def read (cfg : Config) (r : Replies) (keyHash : String) (file : Option (List Char)) : Outcome :=
  let reply := r.fileReply false file
  r.withFileLocked file <|
    match getSecureHandle cfg reply with
    | .error err => ⟨.error err, file⟩
    | .ok handle =>
        let jsonCredential := readJsonCredentialFile handle reply
        if handle = true ∧ reply.closeFails = true then ⟨.error "close", file⟩
        else ⟨.ok (tokenOf jsonCredential keyHash), file⟩

/-- The entry of a token that is removed stays, without the token. -/
def remove (cfg : Config) (r : Replies) (keyHash : String) (file : Option (List Char)) : Outcome :=
  let reply := r.fileReply false file
  r.withFileLocked file <|
    match getSecureHandle cfg reply with
    | .error err => ⟨.error err, file⟩
    | .ok handle =>
        match readJsonCredentialFile handle reply with
        | none => ⟨.ok none, file⟩
        | some v =>
            if tokenOf (some v) keyHash = none then ⟨.ok none, file⟩
            else
              match setToken v keyHash .null with
              | none => ⟨.ok none, file⟩
              | some v => ⟨.ok none, r.rewrite handle (Json.stringify v) file⟩

/-! ## which calls succeed -/

/-- The lock is had, and the file is opened and verified. -/
def Replies.Opens (cfg : Config) (r : Replies) : Prop :=
  r.directory = true ∧ r.locked = true ∧ r.openError = none ∧
    (cfg.skipVerification = true ∨
      r.statError = none ∧ r.permission = 0o600 ∧ r.uid = cfg.uid)

/-- The file is emptied, if it comes to that. -/
def Replies.Empties (cfg : Config) (r : Replies) : Prop :=
  r.Opens cfg ∧ r.truncateFails = false

/-- Nothing fails. -/
def Replies.Clean (cfg : Config) (r : Replies) : Prop :=
  r.Empties cfg ∧ r.readFails = false ∧ r.missing = none ∧ r.closeFails = false ∧
    r.unlockFails = false

instance decidableOpens (cfg : Config) (r : Replies) : Decidable (r.Opens cfg) :=
  inferInstanceAs (Decidable (_ ∧ _ ∧ _ ∧ (_ ∨ _)))

instance decidableEmpties (cfg : Config) (r : Replies) : Decidable (r.Empties cfg) :=
  inferInstanceAs (Decidable (_ ∧ _))

instance decidableClean (cfg : Config) (r : Replies) : Decidable (r.Clean cfg) :=
  inferInstanceAs (Decidable (_ ∧ _ ∧ _ ∧ _ ∧ _))

theorem getSecureHandle_eq_ok_true {cfg : Config} {reply : FileReply} :
    getSecureHandle cfg reply = .ok true ↔ reply.openError = none ∧
      (cfg.skipVerification = true ∨
        reply.statError = none ∧ reply.permission = 0o600 ∧ reply.uid = cfg.uid) := by
  unfold getSecureHandle
  cases hopen : reply.openError with
  | some code => by_cases hcode : code = "ENOENT" <;> simp [hcode]
  | none =>
      by_cases hskip : cfg.skipVerification = true
      · simp [hskip]
      · cases hstat : reply.statError with
        | some code => by_cases hcode : code = "ENOENT" <;> simp [hskip, hcode]
        | none =>
            by_cases hpermission : reply.permission = 0o600
            · by_cases huid : reply.uid = cfg.uid <;> simp [hskip, hpermission, huid]
            · simp [hskip, hpermission]

variable {cfg : Config} {r : Replies} {file : Option (List Char)}

@[simp] theorem withFileLocked_file (outcome : Outcome) :
    (r.withFileLocked file outcome).file =
      if r.directory = true ∧ r.locked = true then outcome.file else file := by
  unfold Replies.withFileLocked
  by_cases hdirectory : r.directory = true
  · by_cases hlocked : r.locked = true
    · cases outcome.result <;> simp [hdirectory, hlocked]
    · simp [hdirectory, hlocked]
  · simp [hdirectory]

/-! ## what the file holds -/

/-- A value with nothing but tokens in it. -/
def ownValue (members : List (String × Value)) : Value := .obj [(tokenMapKey, .obj members)]

/-- The file holds these entries, as the store has written them, or none that can be read. -/
def Holding (file : Option (List Char)) (members : List (String × Value)) : Prop :=
  members = [] ∧ Json.parse (file.getD []) = none ∨
    file = some (Json.stringify (ownValue members)) ∧
      ∀ m ∈ members, m.2 = .null ∨ ∃ token, m.2 = .str token

/-- The token of a hash in the file. -/
def held (file : Option (List Char)) (keyHash : String) : Option Value :=
  tokenOf (Json.parse (file.getD [])) keyHash

variable {members : List (String × Value)} {keyHash : String}

theorem valid_ownValue (h : ∀ m ∈ members, m.2 = .null ∨ ∃ token, m.2 = .str token) :
    Json.Valid (ownValue members) = true := by
  have hmembers : Json.ValidMembers members = true := by
    induction members with
    | nil => rfl
    | cons m members ih =>
        have hrest := ih fun m' hm' => h m' (List.mem_cons_of_mem m hm')
        rw [Json.ValidMembers, hrest, Bool.and_true]
        rcases h m List.mem_cons_self with hm | ⟨token, hm⟩ <;> rw [hm] <;> rfl
  simp [ownValue, Json.Valid, Json.ValidMembers, hmembers]

theorem Holding.parse (h : Holding file members) :
    Json.parse (file.getD []) = none ∧ members = [] ∨
      Json.parse (file.getD []) = some (ownValue members) := by
  rcases h with ⟨hnil, hparse⟩ | ⟨rfl, hplain⟩
  · exact Or.inl ⟨hparse, hnil⟩
  · exact Or.inr (Json.parse_stringify _ (valid_ownValue hplain))

theorem Holding.held (h : Holding file members) (keyHash : String) :
    held file keyHash = ((Value.obj members).get? keyHash).filter fun token => ¬ token.isFalsy := by
  unfold JsonCredentialManager.held
  rcases h.parse with ⟨hparse, rfl⟩ | hparse
  · rw [hparse]
    rfl
  · rw [hparse]
    rfl

theorem get?_cons (m : String × Value) (members : List (String × Value)) (keyHash : String) :
    (Value.obj (m :: members)).get? keyHash =
      ((Value.obj members).get? keyHash).or (if m.1 = keyHash then some m.2 else none) := by
  simp only [Value.get?, List.reverse_cons, List.find?_append, Option.map_or]
  by_cases hm : m.1 = keyHash <;> simp [List.find?, hm]

theorem get?_eq_none_iff {members : List (String × Value)} :
    (Value.obj members).get? keyHash = none ↔ ∀ m ∈ members, m.1 ≠ keyHash := by
  simp [Value.get?]

theorem get?_append_single (members : List (String × Value)) (key keyHash : String) (v : Value) :
    (Value.obj (members ++ [(key, v)])).get? keyHash =
      if keyHash = key then some v else (Value.obj members).get? keyHash := by
  by_cases hkey : keyHash = key
  · simp [Value.get?, hkey]
  · simp [Value.get?, hkey, Ne.symm hkey]

theorem get?_map_of_mem {members : List (String × Value)} {key : String} (v : Value)
    (keyHash : String) (h : ∃ m ∈ members, m.1 = key) :
    (Value.obj (members.map fun m => if m.1 = key then (key, v) else m)).get? keyHash =
      if keyHash = key then some v else (Value.obj members).get? keyHash := by
  induction members with
  | nil => simp at h
  | cons m members ih =>
      rw [List.map_cons, get?_cons, get?_cons]
      by_cases hrest : ∃ m ∈ members, m.1 = key
      · rw [ih hrest]
        by_cases hkey : keyHash = key
        · simp [hkey]
        · by_cases hm : m.1 = key
          · simp [hkey, hm, Ne.symm hkey]
          · simp [hkey, hm]
      · have hm : m.1 = key := by
          obtain ⟨m', hm', hkey⟩ := h
          rcases List.mem_cons.mp hm' with rfl | hm'
          · exact hkey
          · exact absurd ⟨m', hm', hkey⟩ hrest
        have hsame : (members.map fun m => if m.1 = key then (key, v) else m) = members := by
          conv_rhs => rw [← List.map_id members]
          apply List.map_congr_left
          intro m' hm'
          exact if_neg fun hkey => hrest ⟨m', hm', hkey⟩
        rw [hsame, if_pos hm]
        by_cases hkey : keyHash = key
        · subst hkey
          have hnone : (Value.obj members).get? keyHash = none :=
            get?_eq_none_iff.mpr fun m' hm' hkey => hrest ⟨m', hm', hkey⟩
          simp [hnone]
        · simp [hkey, hm, Ne.symm hkey]

theorem get?_setMember (key keyHash : String) (v : Value) (members : List (String × Value)) :
    (Value.obj (setMember key v members)).get? keyHash =
      if keyHash = key then some v else (Value.obj members).get? keyHash := by
  unfold setMember
  split_ifs with hmem hkey hkey
  · rw [get?_map_of_mem v keyHash (by simpa using hmem), if_pos hkey]
  · rw [get?_map_of_mem v keyHash (by simpa using hmem), if_neg hkey]
  · rw [get?_append_single, if_pos hkey]
  · rw [get?_append_single, if_neg hkey]

theorem setToken_ownValue (members : List (String × Value)) (keyHash : String) (token : Value) :
    setToken (ownValue members) keyHash token =
      some (ownValue (setMember keyHash token members)) := by
  have htokens : (ownValue members).get? tokenMapKey = some (.obj members) := by
    simp [ownValue, Value.get?]
  simp only [setToken, htokens]
  simp [withMember, ownValue, setMember]

theorem setToken_empty (keyHash : String) (token : Value) :
    setToken (.obj []) keyHash token = some (ownValue [(keyHash, token)]) := by
  simp [setToken, Value.get?, withMember, ownValue, setMember]

/-- The members of a file after one was set. -/
theorem plain_setMember {key : String} {v : Value} (hv : v = .null ∨ ∃ token, v = .str token)
    (h : ∀ m ∈ members, m.2 = .null ∨ ∃ token, m.2 = .str token) :
    ∀ m ∈ setMember key v members, m.2 = .null ∨ ∃ token, m.2 = .str token := by
  intro m hm
  unfold setMember at hm
  split_ifs at hm
  · obtain ⟨m', hm', rfl⟩ := List.mem_map.mp hm
    split_ifs
    · exact hv
    · exact h m' hm'
  · rcases List.mem_append.mp hm with hm | hm
    · exact h m hm
    · obtain rfl := List.mem_singleton.mp hm
      exact hv

/-- What is written over the file when it is emptied and all is written, or not. -/
theorem holding_rewrite (r : Replies) (htruncate : r.truncateFails = false)
    (h : ∀ m ∈ members, m.2 = .null ∨ ∃ token, m.2 = .str token) :
    Holding (r.rewrite true (Json.stringify (ownValue members)) file)
      (if r.missing.getD 0 = 0 then members else []) := by
  have hrewrite : r.rewrite true (Json.stringify (ownValue members)) file =
      some ((Json.stringify (ownValue members)).take
        ((Json.stringify (ownValue members)).length - r.missing.getD 0)) := by
    simp [Replies.rewrite, htruncate]
  rw [hrewrite]
  split_ifs with hmissing
  · rw [hmissing, Nat.sub_zero, List.take_length]
    exact Or.inr ⟨rfl, h⟩
  · refine Or.inl ⟨rfl, ?_⟩
    have hlength : 0 < (Json.stringify (ownValue members)).length := by
      rw [ownValue, Json.stringify]
      simp
    have hrest : (Json.stringify (ownValue members)).drop
        ((Json.stringify (ownValue members)).length - r.missing.getD 0) ≠ [] := by
      rw [Ne, List.drop_eq_nil_iff]
      omega
    exact Json.parse_of_prefix (valid_ownValue h) (List.take_append_drop _ _) hrest

/-- What a write leaves of the entries. -/
def written (cfg : Config) (r : Replies) (keyHash token : String)
    (members : List (String × Value)) : List (String × Value) :=
  if r.Empties cfg then
    if r.missing.getD 0 = 0 then
      setMember keyHash (.str token) (if r.readFails = true then [] else members)
    else []
  else members

/-- There is a handle when the file is opened and verified, and exists or may be created. -/
theorem getSecureHandle_fileReply (hlock : r.directory = true ∧ r.locked = true)
    (creates : Bool) :
    getSecureHandle cfg (r.fileReply creates file) = .ok true ↔
      r.Opens cfg ∧ (creates = true ∨ file ≠ none) := by
  have hopen : (r.fileReply creates file).openError = none ↔
      r.openError = none ∧ (creates = true ∨ file ≠ none) := by
    simp only [Replies.fileReply, Option.or_eq_none_iff, ite_eq_right_iff, reduceCtorEq, imp_false,
      not_and, Bool.not_eq_false]
    tauto
  rw [getSecureHandle_eq_ok_true, hopen]
  unfold Replies.Opens Replies.fileReply
  tauto

theorem Holding.opened (h : Holding file members) : Holding (some (file.getD [])) members := by
  rcases h with ⟨hnil, hparse⟩ | ⟨rfl, hplain⟩
  · exact Or.inl ⟨hnil, hparse⟩
  · exact Or.inr ⟨rfl, hplain⟩

theorem Holding.plain (h : Holding file members) :
    ∀ m ∈ members, m.2 = .null ∨ ∃ token, m.2 = .str token := by
  rcases h with ⟨rfl, -⟩ | ⟨-, hplain⟩
  · simp
  · exact hplain

/-- What a write starts from. -/
theorem Holding.setToken_content (h : Holding file members) (r : Replies) (creates : Bool)
    (keyHash : String) (token : Value) :
    setToken (((readJsonCredentialFile true (r.fileReply creates file)).filter
        fun v => ¬ v.isFalsy).getD (.obj [])) keyHash token =
      some (ownValue (setMember keyHash token (if r.readFails = true then [] else members))) := by
  have hcontent : readJsonCredentialFile true (r.fileReply creates file) =
      if r.readFails = true then none else Json.parse (file.getD []) := rfl
  rw [hcontent]
  by_cases hread : r.readFails = true
  · simp [hread, setToken_empty, setMember]
  · rw [if_neg hread, if_neg hread]
    rcases h.parse with ⟨hparse, rfl⟩ | hparse
    · simp [hparse, setToken_empty, setMember]
    · rw [hparse, Option.filter_some, if_pos (by rfl), Option.getD_some, setToken_ownValue]

theorem Holding.write (h : Holding file members) (cfg : Config) (r : Replies)
    (keyHash token : String) :
    Holding (JsonCredentialManager.write cfg r keyHash token file).file
      (written cfg r keyHash token members) := by
  have hopened : Holding (if (r.fileReply true file).openError = none then some (file.getD [])
      else file) members := by
    split_ifs
    · exact h.opened
    · exact h
  have hsame : ¬ r.Empties cfg → written cfg r keyHash token members = members :=
    fun hempties => if_neg hempties
  unfold JsonCredentialManager.write
  rw [withFileLocked_file]
  by_cases hlock : r.directory = true ∧ r.locked = true
  · rw [if_pos hlock]
    have hopens := @getSecureHandle_fileReply cfg r file hlock true
    simp only [true_or, and_true] at hopens
    cases hhandle : getSecureHandle cfg (r.fileReply true file) with
    | error err =>
        have hclosed : ¬ r.Opens cfg := by
          rw [← hopens, hhandle]
          simp
        rw [hsame fun hempties => hclosed hempties.1]
        exact hopened
    | ok handle =>
        cases handle with
        | false =>
            have hclosed : ¬ r.Opens cfg := by
              rw [← hopens, hhandle]
              simp
            rw [hsame fun hempties => hclosed hempties.1]
            simp only [readJsonCredentialFile, Bool.false_eq_true, if_false, Option.filter_none,
              Option.getD_none, setToken_empty, Replies.rewrite, true_or, if_true]
            exact hopened
        | true =>
            simp only [h.setToken_content]
            by_cases htruncate : r.truncateFails = true
            · rw [hsame fun hempties => by simp [hempties.2] at htruncate]
              simpa only [Replies.rewrite, htruncate, or_true, if_true] using hopened
            · rw [Bool.not_eq_true] at htruncate
              have hempties : r.Empties cfg := ⟨hopens.mp hhandle, htruncate⟩
              have hplain : ∀ m ∈ if r.readFails = true then [] else members,
                  m.2 = .null ∨ ∃ token, m.2 = .str token := by
                split_ifs
                · simp
                · exact h.plain
              unfold written
              rw [if_pos hempties]
              exact holding_rewrite r htruncate (plain_setMember (Or.inr ⟨token, rfl⟩) hplain)
  · rw [if_neg hlock, hsame fun hempties => hlock ⟨hempties.1.1, hempties.1.2.1⟩]
    exact h

/-- Whether a removal writes the file. -/
def Removes (cfg : Config) (r : Replies) (keyHash : String) (file : Option (List Char)) : Prop :=
  r.Empties cfg ∧ r.readFails = false ∧ held file keyHash ≠ none

instance decidableRemoves (cfg : Config) (r : Replies) (keyHash : String)
    (file : Option (List Char)) : Decidable (Removes cfg r keyHash file) :=
  inferInstanceAs (Decidable (_ ∧ _ ∧ _))

theorem remove_file_of_not_removes (hremoves : ¬ Removes cfg r keyHash file) :
    (remove cfg r keyHash file).file = file := by
  unfold JsonCredentialManager.remove
  rw [withFileLocked_file]
  by_cases hlock : r.directory = true ∧ r.locked = true
  · rw [if_pos hlock]
    have hopens := @getSecureHandle_fileReply cfg r file hlock false
    cases hhandle : getSecureHandle cfg (r.fileReply false file) with
    | error err => rfl
    | ok handle =>
        cases hcontent : readJsonCredentialFile handle (r.fileReply false file) with
        | none => simp only [hcontent]
        | some v =>
            by_cases htoken : tokenOf (some v) keyHash = none
            · simp only [hcontent, htoken, if_true]
            · -- there is a token, and so a handle and entries
              simp only [hcontent, htoken, if_false]
              cases handle with
              | false => simp [readJsonCredentialFile] at hcontent
              | true =>
                  have hread : r.readFails = false ∧ Json.parse (file.getD []) = some v := by
                    simpa [readJsonCredentialFile, Replies.fileReply] using hcontent
                  have hheld : held file keyHash ≠ none := by
                    rw [held, hread.2]
                    exact htoken
                  have htruncate : r.truncateFails = true := by
                    by_contra htruncate
                    rw [Bool.not_eq_true] at htruncate
                    exact hremoves ⟨⟨(hopens.mp hhandle).1, htruncate⟩, hread.1, hheld⟩
                  cases setToken v keyHash .null with
                  | none => rfl
                  | some v => simp [Replies.rewrite, htruncate]
  · rw [if_neg hlock]

theorem Holding.remove (h : Holding file members) (hremoves : Removes cfg r keyHash file) :
    Holding (JsonCredentialManager.remove cfg r keyHash file).file
      (if r.missing.getD 0 = 0 then setMember keyHash .null members else []) := by
  obtain ⟨⟨hopen, htruncate⟩, hread, hheld⟩ := hremoves
  have hlock : r.directory = true ∧ r.locked = true := ⟨hopen.1, hopen.2.1⟩
  have hparse : Json.parse (file.getD []) = some (ownValue members) := by
    rcases h.parse with ⟨hparse, -⟩ | hparse
    · simp [JsonCredentialManager.held, hparse, tokenOf] at hheld
    · exact hparse
  have hfile : file ≠ none := by
    rintro rfl
    have hnone : Json.parse [] = none := rfl
    rw [Option.getD_none, hnone] at hparse
    contradiction
  have hhandle := (@getSecureHandle_fileReply cfg r file hlock false).mpr
    ⟨hopen, Or.inr hfile⟩
  have hcontent : readJsonCredentialFile true (r.fileReply false file) =
      some (ownValue members) := by
    simp [readJsonCredentialFile, Replies.fileReply, hread, hparse]
  have htoken : tokenOf (some (ownValue members)) keyHash ≠ none := by
    rwa [JsonCredentialManager.held, hparse] at hheld
  unfold JsonCredentialManager.remove
  rw [withFileLocked_file, if_pos hlock]
  simp only [hhandle, hcontent, htoken, if_false, setToken_ownValue]
  exact holding_rewrite r htruncate (plain_setMember (Or.inl rfl) h.plain)

/-- A read that nothing fails in returns what is held. -/
theorem read_result (hclean : r.Clean cfg) :
    (read cfg r keyHash file).result = .ok (held file keyHash) := by
  obtain ⟨⟨hopen, -⟩, hread, -, hclose, hunlock⟩ := hclean
  have hlock : r.directory = true ∧ r.locked = true := ⟨hopen.1, hopen.2.1⟩
  have hcontent : (r.fileReply false file).content = Json.parse (file.getD []) := by
    simp [Replies.fileReply, hread]
  have hkept : (r.fileReply false file).closeFails = false := hclose
  unfold read Replies.withFileLocked
  by_cases hfile : file = none
  · subst hfile
    have hhandle : getSecureHandle cfg (r.fileReply false none) = .ok false := by
      simp [getSecureHandle, Replies.fileReply, hopen.2.2.1]
    have hnone : Json.parse [] = none := rfl
    simp [hlock, hhandle, hunlock, readJsonCredentialFile, held, hnone]
  · have hhandle := (@getSecureHandle_fileReply cfg r file hlock false).mpr
      ⟨hopen, Or.inr hfile⟩
    simp [hlock, hhandle, hkept, hunlock, readJsonCredentialFile, held, hcontent]

theorem read_file : (read cfg r keyHash file).file = file := by
  unfold read
  rw [withFileLocked_file]
  cases getSecureHandle cfg (r.fileReply false file) with
  | error err => simp
  | ok handle =>
      dsimp only
      split_ifs <;> rfl

/-! ## sequences of calls -/

inductive Call
  | write (c : Credential) (token : String) (r : Replies)
  | read (c : Credential) (r : Replies)
  | remove (c : Credential) (r : Replies)

/-- The file, and the tokens that the completed writes and removes have left, each credential in
upper case. -/
structure Store where
  file : Option (List Char)
  tokens : Credential → Option String

def Store.empty : Store where
  file := none
  tokens _ := none

/-- What a call on a key returns and does to the file; without a key there is nothing to do. -/
def onKey (upper : Char → List Char) (hashKey : List Char → String) (c : Credential)
    (file : Option (List Char)) (op : String → Outcome) : Outcome :=
  match buildCredentialCacheKey upper c with
  | none => ⟨.ok none, file⟩
  | some key => op (hashKey key)

/-- What completed calls leave of the tokens. -/
def Store.complete (s : Store) (upper : Char → List Char) (cfg : Config) (c : Credential)
    (r : Replies) (token : Option String) : Credential → Option String :=
  if (buildCredentialCacheKey upper c).isSome = true ∧ r.Clean cfg then
    Function.update s.tokens (c.toUpperCase upper) token
  else s.tokens

/-- The next call. -/
def call (upper : Char → List Char) (hashKey : List Char → String) (cfg : Config) (s : Store) :
    Call → Option Store
  | .write c token r =>
      some ⟨(onKey upper hashKey c s.file fun keyHash =>
          write cfg r keyHash token s.file).file,
        s.complete upper cfg c r (some token)⟩
  | .read c r =>
      some ⟨(onKey upper hashKey c s.file fun keyHash => read cfg r keyHash s.file).file,
        s.tokens⟩
  | .remove c r =>
      some ⟨(onKey upper hashKey c s.file fun keyHash => remove cfg r keyHash s.file).file,
        s.complete upper cfg c r none⟩

/-- Every read in which nothing fails would return what the completed calls have left. -/
def Holds (upper : Char → List Char) (hashKey : List Char → String) (cfg : Config) (s : Store) :
    Prop :=
  ∀ c r, Replies.Clean cfg r →
    (onKey upper hashKey c s.file fun keyHash => read cfg r keyHash s.file).result =
      .ok ((s.tokens (c.toUpperCase upper)).map .str)

/-- The calls that leave every token as it should be. -/
def Harmless (upper : Char → List Char) (cfg : Config) (s : Store) : Call → Prop
  | .write c token r =>
      (buildCredentialCacheKey upper c).isSome = true → r.Empties cfg →
        if r.missing.getD 0 ≠ 0 then ∀ d : Credential, s.tokens (d.toUpperCase upper) = none
        else if r.Clean cfg then
          token ≠ "" ∧
            ((c.toUpperCase upper).Apart ∨ s.tokens (c.toUpperCase upper) = some token)
        else
          s.tokens (c.toUpperCase upper) = (if token = "" then none else some token) ∧
            (r.readFails = true → ∀ d,
              buildCredentialCacheKey upper d ≠ buildCredentialCacheKey upper c →
                s.tokens (d.toUpperCase upper) = none)
  | .read _ _ => True
  | .remove c r =>
      s.tokens (c.toUpperCase upper) ≠ none → r.Empties cfg → r.readFails = false →
        r.Clean cfg ∧ (c.toUpperCase upper).Apart

/-- The invariant: the file has been written by the store, and without a key there is no token. -/
structure Store.Inv (upper : Char → List Char) (s : Store) : Prop where
  holding : ∃ members, Holding s.file members
  keyless : ∀ c, buildCredentialCacheKey upper c = none → s.tokens (c.toUpperCase upper) = none

variable {hashKey : List Char → String} {s t : Store}

theorem holds_iff_held (hinv : s.Inv upper) : Holds upper hashKey cfg s ↔
    ∀ c key, buildCredentialCacheKey upper c = some key →
      held s.file (hashKey key) = (s.tokens (c.toUpperCase upper)).map .str := by
  have hclean : Replies.Clean cfg { uid := cfg.uid } := by
    simp [Replies.Clean, Replies.Empties, Replies.Opens]
  constructor
  · intro h c key hkey
    have hread := h c _ hclean
    simp only [onKey, hkey, read_result hclean] at hread
    exact Except.ok.inj hread
  · intro h c r hr
    unfold onKey
    cases hkey : buildCredentialCacheKey upper c with
    | none => simp [hinv.keyless c hkey]
    | some key => simp only [read_result hr, h c key hkey]

/-- The empty token counts as false. -/
theorem isFalsy_str (token : String) : (Value.str token).isFalsy = decide (token = "") := by
  unfold Value.isFalsy
  split <;> simp_all

/-- What is held after a write. -/
theorem held_written (h : Holding file members) (r : Replies) (keyHash token k : String) :
    held (write cfg r keyHash token file).file k =
      if r.Empties cfg then
        if r.missing.getD 0 = 0 then
          if k = keyHash then (if token = "" then none else some (.str token))
          else if r.readFails = true then none else held file k
        else none
      else held file k := by
  rw [(h.write cfg r keyHash token).held, h.held k, written]
  by_cases hempties : r.Empties cfg
  · by_cases hmissing : r.missing.getD 0 = 0
    · simp only [hempties, hmissing, if_true, get?_setMember]
      by_cases hk : k = keyHash
      · by_cases htoken : token = "" <;> simp [hk, htoken, isFalsy_str]
      · by_cases hread : r.readFails = true <;> simp [hk, hread, Value.get?]
    · simp [hempties, hmissing, Value.get?]
  · simp only [hempties, if_false]

/-- What is held after a removal. -/
theorem held_removed (h : Holding file members) (r : Replies) (keyHash : String) (k : String) :
    held (remove cfg r keyHash file).file k =
      if Removes cfg r keyHash file then
        if r.missing.getD 0 = 0 ∧ k ≠ keyHash then held file k else none
      else held file k := by
  split_ifs with hremoves hkept
  · rw [(h.remove hremoves).held, h.held k, if_pos hkept.1, get?_setMember, if_neg hkept.2]
  · rw [(h.remove hremoves).held]
    split_ifs with hmissing
    · have hk : k = keyHash := by
        by_contra hk
        exact hkept ⟨hmissing, hk⟩
      simp [get?_setMember, hk, Value.isFalsy]
    · simp [Value.get?]
  · rw [remove_file_of_not_removes hremoves]

theorem map_str_inj {a b : Option String} : a.map Value.str = b.map Value.str ↔ a = b := by
  have hinj : Function.Injective Value.str := fun x y h => by simpa using h
  exact (Option.map_injective hinj).eq_iff

/-- Credentials of one key have one token. -/
theorem Holds.tokens_eq (h : Holds upper hashKey cfg s) (hinv : s.Inv upper) {c d : Credential}
    {key : List Char} (hc : buildCredentialCacheKey upper c = some key)
    (hd : buildCredentialCacheKey upper d = some key) :
    s.tokens (d.toUpperCase upper) = s.tokens (c.toUpperCase upper) := by
  rw [holds_iff_held hinv] at h
  rw [← map_str_inj, ← h c key hc, ← h d key hd]

theorem Store.Inv.complete (h : s.Inv upper) {c : Credential} {token : Option String}
    (hupper : UpperCase upper) :
    ∀ d, buildCredentialCacheKey upper d = none →
      s.complete upper cfg c r token (d.toUpperCase upper) = none := by
  intro d hd
  unfold Store.complete
  split_ifs with hdone
  · obtain ⟨key, hkey⟩ := Option.isSome_iff_exists.mp hdone.1
    have hne : d.toUpperCase upper ≠ c.toUpperCase upper := by
      intro heq
      rw [buildCredentialCacheKey_congr hupper heq, hkey] at hd
      contradiction
    rw [Function.update_of_ne hne]
    exact h.keyless d hd
  · exact h.keyless d hd

/-- What one call keeps. -/
theorem Store.Inv.call (h : s.Inv upper) (hupper : UpperCase upper) {e : Call}
    (hcall : JsonCredentialManager.call upper hashKey cfg s e = some t) : t.Inv upper := by
  obtain ⟨members, hholding⟩ := h.holding
  cases e with
  | write c token r =>
      obtain rfl := Option.some.inj hcall
      constructor
      · unfold onKey
        cases buildCredentialCacheKey upper c with
        | none => exact ⟨members, hholding⟩
        | some key => exact ⟨_, hholding.write cfg r (hashKey key) token⟩
      · exact h.complete hupper
  | read c r =>
      obtain rfl := Option.some.inj hcall
      constructor
      · unfold onKey
        cases buildCredentialCacheKey upper c with
        | none => exact ⟨members, hholding⟩
        | some key =>
            dsimp only
            rw [read_file]
            exact ⟨members, hholding⟩
      · exact h.keyless
  | remove c r =>
      obtain rfl := Option.some.inj hcall
      constructor
      · unfold onKey
        cases buildCredentialCacheKey upper c with
        | none => exact ⟨members, hholding⟩
        | some key =>
            by_cases hremoves : Removes cfg r (hashKey key) s.file
            · exact ⟨_, hholding.remove hremoves⟩
            · dsimp only
              rw [remove_file_of_not_removes hremoves]
              exact ⟨members, hholding⟩
      · exact h.complete hupper

section

variable (hupper : UpperCase upper) (hinj : Function.Injective hashKey) (hinv : s.Inv upper)
  (hholds : Holds upper hashKey cfg s) {c : Credential} {key : List Char}
  (hkey : buildCredentialCacheKey upper c = some key)
include hupper hinj hinv hholds hkey

/-- A write that nothing fails in. -/
theorem holds_write_of_clean (token : String) (hclean : r.Clean cfg)
    (ht : Store.Inv upper ⟨(write cfg r (hashKey key) token s.file).file,
      s.complete upper cfg c r (some token)⟩) :
    Holds upper hashKey cfg ⟨(write cfg r (hashKey key) token s.file).file,
        s.complete upper cfg c r (some token)⟩ ↔
      token ≠ "" ∧
        ((c.toUpperCase upper).Apart ∨ s.tokens (c.toUpperCase upper) = some token) := by
  obtain ⟨members, hholding⟩ := hinv.holding
  have hheld := (holds_iff_held hinv).mp hholds
  have hread : r.readFails = false := hclean.2.1
  have hwritten : ∀ k, held (write cfg r (hashKey key) token s.file).file k =
      if k = hashKey key then (if token = "" then none else some (.str token))
      else held s.file k := by
    intro k
    rw [held_written hholding, if_pos hclean.1, if_pos (by rw [hclean.2.2.1]; rfl), hread,
      if_neg Bool.false_ne_true]
  have htokens : s.complete upper cfg c r (some token) =
      Function.update s.tokens (c.toUpperCase upper) (some token) :=
    if_pos ⟨by rw [hkey]; rfl, hclean⟩
  rw [holds_iff_held ht]
  simp only [hwritten, htokens]
  constructor
  · intro h
    have hself := h c key hkey
    rw [if_pos rfl, Function.update_self] at hself
    have htoken : token ≠ "" := by
      intro htoken
      rw [if_pos htoken] at hself
      contradiction
    refine ⟨htoken, ?_⟩
    rw [← unshared_iff hupper hkey, or_iff_not_imp_left]
    intro hshared
    push Not at hshared
    obtain ⟨d, hd, hne⟩ := hshared
    have hother := h d key hd
    rw [if_pos rfl, if_neg htoken, Function.update_of_ne hne,
      hholds.tokens_eq hinv hkey hd] at hother
    exact (map_str_inj (a := some token).mp hother).symm
  · intro ⟨htoken, hapart⟩ d k hd
    by_cases hk : k = key
    · subst hk
      rw [if_pos rfl, if_neg htoken]
      by_cases hne : d.toUpperCase upper = c.toUpperCase upper
      · rw [hne, Function.update_self]
        rfl
      · rcases hapart with hapart | hsame
        · exact absurd ((unshared_iff hupper hkey).mpr hapart d hd) hne
        · rw [Function.update_of_ne hne, hholds.tokens_eq hinv hkey hd, hsame]
          rfl
    · have hne : d.toUpperCase upper ≠ c.toUpperCase upper := by
        intro heq
        rw [buildCredentialCacheKey_congr hupper heq, hkey] at hd
        exact hk (Option.some.inj hd).symm
      rw [if_neg fun hhash => hk (hinj hhash), Function.update_of_ne hne]
      exact hheld d k hd

omit hupper in
/-- A write that fails behind the writing, or starts from nothing. -/
theorem holds_write_of_stored (token : String) (hclean : ¬ r.Clean cfg) (hempties : r.Empties cfg)
    (hmissing : r.missing.getD 0 = 0)
    (ht : Store.Inv upper ⟨(write cfg r (hashKey key) token s.file).file,
      s.complete upper cfg c r (some token)⟩) :
    Holds upper hashKey cfg ⟨(write cfg r (hashKey key) token s.file).file,
        s.complete upper cfg c r (some token)⟩ ↔
      s.tokens (c.toUpperCase upper) = (if token = "" then none else some token) ∧
        (r.readFails = true → ∀ d,
          buildCredentialCacheKey upper d ≠ buildCredentialCacheKey upper c →
            s.tokens (d.toUpperCase upper) = none) := by
  obtain ⟨members, hholding⟩ := hinv.holding
  have hheld := (holds_iff_held hinv).mp hholds
  have hwritten : ∀ k, held (write cfg r (hashKey key) token s.file).file k =
      if k = hashKey key then (if token = "" then none else some token).map .str
      else if r.readFails = true then none else held s.file k := by
    intro k
    rw [held_written hholding, if_pos hempties, if_pos hmissing, apply_ite (Option.map Value.str)]
    rfl
  have htokens : s.complete upper cfg c r (some token) = s.tokens :=
    if_neg fun h => hclean h.2
  rw [holds_iff_held ht]
  simp only [hwritten, htokens, hkey]
  constructor
  · intro h
    have hself := h c key hkey
    rw [if_pos rfl, map_str_inj] at hself
    refine ⟨hself.symm, fun hread d hd => ?_⟩
    cases hdkey : buildCredentialCacheKey upper d with
    | none => exact hinv.keyless d hdkey
    | some k =>
        have hk : k ≠ key := fun hk => hd (by rw [hdkey, hk])
        have hother := h d k hdkey
        rw [if_neg fun hhash => hk (hinj hhash), if_pos hread] at hother
        exact Option.map_eq_none_iff.mp hother.symm
  · intro ⟨hself, hothers⟩ d k hd
    by_cases hk : k = key
    · subst hk
      rw [if_pos rfl, hholds.tokens_eq hinv hkey hd, hself]
    · rw [if_neg fun hhash => hk (hinj hhash)]
      split_ifs with hread
      · rw [hothers hread d (by rw [hd]; simpa using hk)]
        rfl
      · exact hheld d k hd

/-- A write. -/
theorem holds_write (token : String) (r : Replies)
    (ht : Store.Inv upper ⟨(write cfg r (hashKey key) token s.file).file,
      s.complete upper cfg c r (some token)⟩) :
    Holds upper hashKey cfg ⟨(write cfg r (hashKey key) token s.file).file,
        s.complete upper cfg c r (some token)⟩ ↔
      Harmless upper cfg s (.write c token r) := by
  have hheld := (holds_iff_held hinv).mp hholds
  obtain ⟨members, hholding⟩ := hinv.holding
  simp only [Harmless, hkey, Option.isSome_some, true_imp_iff]
  by_cases hempties : r.Empties cfg
  · by_cases hmissing : r.missing.getD 0 = 0
    · by_cases hclean : r.Clean cfg
      · simp only [hempties, hmissing, hclean, true_imp_iff, if_true, ne_eq, not_true, if_false]
        exact holds_write_of_clean hupper hinj hinv hholds hkey token hclean ht
      · rw [holds_write_of_stored hinj hinv hholds hkey token hclean hempties hmissing ht]
        simp only [hempties, hmissing, hclean, true_imp_iff, ne_eq, not_true, if_false, hkey]
    · -- nothing that is left can be read
      have hclean : ¬ r.Clean cfg := by
        intro hclean
        exact hmissing (by rw [hclean.2.2.1]; rfl)
      have htokens : s.complete upper cfg c r (some token) = s.tokens :=
        if_neg fun h => hclean h.2
      rw [holds_iff_held ht]
      simp only [held_written hholding, hempties, hmissing, htokens, true_imp_iff, if_true,
        if_false, ne_eq, not_false_eq_true, eq_comm (a := (none : Option Value)),
        Option.map_eq_none_iff]
      constructor
      · intro h d
        cases hd : buildCredentialCacheKey upper d with
        | none => exact hinv.keyless d hd
        | some k => exact h d k hd
      · intro h d k hd
        exact h d
  · have hclean : ¬ r.Clean cfg := fun hclean => hempties hclean.1
    have htokens : s.complete upper cfg c r (some token) = s.tokens :=
      if_neg fun h => hclean h.2
    rw [holds_iff_held ht]
    simp only [held_written hholding, hempties, if_false, htokens, false_imp_iff, iff_true]
    exact hheld

/-- A removal. -/
theorem holds_remove (r : Replies)
    (ht : Store.Inv upper ⟨(remove cfg r (hashKey key) s.file).file,
      s.complete upper cfg c r none⟩) :
    Holds upper hashKey cfg ⟨(remove cfg r (hashKey key) s.file).file,
        s.complete upper cfg c r none⟩ ↔
      Harmless upper cfg s (.remove c r) := by
  have hheld := (holds_iff_held hinv).mp hholds
  obtain ⟨members, hholding⟩ := hinv.holding
  have hremoved := @held_removed cfg _ _ hholding r (hashKey key)
  have hcleaned : r.Clean cfg → s.complete upper cfg c r none =
      Function.update s.tokens (c.toUpperCase upper) none :=
    fun hclean => if_pos ⟨by rw [hkey]; rfl, hclean⟩
  have hkept : ¬ r.Clean cfg → s.complete upper cfg c r none = s.tokens :=
    fun hclean => if_neg fun h => hclean h.2
  have htoken : held s.file (hashKey key) = none ↔ s.tokens (c.toUpperCase upper) = none := by
    rw [hheld c key hkey, Option.map_eq_none_iff]
  rw [holds_iff_held ht]
  simp only [Harmless, hremoved]
  by_cases hremoves : Removes cfg r (hashKey key) s.file
  · have hsome := htoken.not.mp hremoves.2.2
    simp only [hremoves, if_true, hremoves.1, hremoves.2.1, hsome, ne_eq, not_false_eq_true,
      true_imp_iff]
    constructor
    · intro h
      have hself := h c key hkey
      rw [if_neg fun hne => hne.2 rfl] at hself
      have hclean : r.Clean cfg := by
        by_contra hclean
        rw [hkept hclean] at hself
        exact hsome (Option.map_eq_none_iff.mp hself.symm)
      refine ⟨hclean, ?_⟩
      rw [← unshared_iff hupper hkey]
      intro d hd
      by_contra hne
      have hother := h d key hd
      rw [if_neg fun hne => hne.2 rfl, hcleaned hclean, Function.update_of_ne hne,
        hholds.tokens_eq hinv hkey hd] at hother
      exact hsome (Option.map_eq_none_iff.mp hother.symm)
    · intro ⟨hclean, hapart⟩ d k hd
      have hmissing : r.missing.getD 0 = 0 := by rw [hclean.2.2.1]; rfl
      rw [hcleaned hclean]
      by_cases hk : k = key
      · subst hk
        rw [if_neg fun hne => hne.2 rfl, (unshared_iff hupper hkey).mpr hapart d hd,
          Function.update_self]
        rfl
      · have hne : d.toUpperCase upper ≠ c.toUpperCase upper := by
          intro heq
          rw [buildCredentialCacheKey_congr hupper heq, hkey] at hd
          exact hk (Option.some.inj hd).symm
        rw [if_pos ⟨hmissing, fun hhash => hk (hinj hhash)⟩, Function.update_of_ne hne]
        exact hheld d k hd
  · simp only [hremoves, if_false]
    by_cases hclean : r.Clean cfg
    · have hnone : s.tokens (c.toUpperCase upper) = none := by
        rw [← htoken]
        by_contra hsome
        exact hremoves ⟨hclean.1, hclean.2.1, hsome⟩
      have hsame : Function.update s.tokens (c.toUpperCase upper) none = s.tokens := by
        rw [← hnone, Function.update_eq_self]
      rw [hcleaned hclean, hsame]
      simp only [hnone, ne_eq, not_true, false_imp_iff, iff_true]
      exact hheld
    · rw [hkept hclean]
      constructor
      · intro _ hsome hempties hread
        exact absurd ⟨hempties, hread, htoken.not.mpr hsome⟩ hremoves
      · intro _
        exact hheld

end

/-- What one call has to be for all tokens to stay as they should be. -/
theorem holds_call (hupper : UpperCase upper) (hinj : Function.Injective hashKey)
    (hinv : s.Inv upper) (hholds : Holds upper hashKey cfg s) {e : Call}
    (hcall : call upper hashKey cfg s e = some t) :
    Holds upper hashKey cfg t ↔ Harmless upper cfg s e := by
  have ht := hinv.call hupper hcall
  cases e with
  | write c token r =>
      obtain rfl := Option.some.inj hcall
      cases hkey : buildCredentialCacheKey upper c with
      | none =>
          have htokens : s.complete upper cfg c r (some token) = s.tokens := by
            simp [Store.complete, hkey]
          simp [Harmless, onKey, hkey, htokens, hholds]
      | some key =>
          simp only [onKey, hkey] at ht ⊢
          exact holds_write hupper hinj hinv hholds hkey token r ht
  | read c r =>
      obtain rfl := Option.some.inj hcall
      have hfile : (onKey upper hashKey c s.file fun keyHash =>
          read cfg r keyHash s.file).file = s.file := by
        unfold onKey
        cases buildCredentialCacheKey upper c with
        | none => rfl
        | some key => exact read_file
      simp only [Harmless, hfile, iff_true]
      exact hholds
  | remove c r =>
      obtain rfl := Option.some.inj hcall
      cases hkey : buildCredentialCacheKey upper c with
      | none =>
          have htokens : s.complete upper cfg c r none = s.tokens := by
            simp [Store.complete, hkey]
          simp [Harmless, onKey, hkey, htokens, hholds, hinv.keyless c hkey]
      | some key =>
          simp only [onKey, hkey] at ht ⊢
          exact holds_remove hupper hinj hinv hholds hkey r ht

theorem Store.inv_empty (upper : Char → List Char) : Store.empty.Inv upper where
  holding := ⟨[], Or.inl ⟨rfl, rfl⟩⟩
  keyless _ _ := rfl

theorem holds_empty : Holds upper hashKey cfg Store.empty := by
  rw [holds_iff_held (Store.inv_empty upper)]
  intro c key hkey
  rfl

/-- **Runs**: every read in which nothing fails returns what the completed writes and removes have
left, at any time of a run, exactly when all of its calls are harmless; and a credential has its
entry for itself exactly when its parts in upper case cannot be cut otherwise. -/
theorem holds_iff (hupper : UpperCase upper) (hinj : Function.Injective hashKey) (cfg : Config)
    (calls : List Call) (t : Store)
    (h : Lts.exec (call upper hashKey cfg) Store.empty calls = some t) :
    (Lts.Always (call upper hashKey cfg) (Holds upper hashKey cfg) Store.empty calls ↔
        Lts.Along (call upper hashKey cfg) (Harmless upper cfg) Store.empty calls) ∧
      ∀ c, buildCredentialCacheKey upper c ≠ none →
        ((∀ d, (buildCredentialCacheKey upper d).map hashKey =
            (buildCredentialCacheKey upper c).map hashKey →
          d.toUpperCase upper = c.toUpperCase upper) ↔ (c.toUpperCase upper).Apart) := by
  constructor
  · exact Lts.always_iff_along
      (fun s e t (hinv : s.Inv upper) hcall => hinv.call hupper hcall)
      (fun s e t hinv hholds hcall => holds_call hupper hinj hinv hholds hcall)
      (Store.inv_empty upper) holds_empty h
  · intro c hc
    obtain ⟨key, hkey⟩ := Option.ne_none_iff_exists'.mp hc
    rw [← unshared_iff hupper hkey]
    simp only [(Option.map_injective hinj).eq_iff, hkey]

/-! ## a run -/

/-- The upper case of the letters of a keyboard. -/
def keyboard (c : Char) : List Char := [c.toUpper]

theorem upperCase_keyboard : UpperCase keyboard where
  ne_nil c := by simp [keyboard]
  fixed c d hd := by
    simp only [keyboard, List.mem_singleton] at hd ⊢
    rw [hd, Char.toUpper_toUpper_eq_toUpper]

/-- The token of a user of one account. -/
def tokenOfUser (username : String) : Credential where
  host := "acme.example".toList
  username := username.toList
  credType := "MFA_TOKEN".toList

/-- Alice's token is stored, then one of Bob's, and then his is removed; a write for Alice in
between is not allowed to open the file. -/
def quietCalls : List Call :=
  [ .write (tokenOfUser "alice") "a" { uid := 1000 },
    .write (tokenOfUser "bob") "b" { uid := 1000 },
    .write (tokenOfUser "alice") "a2" { openError := some "EACCES", uid := 1000 },
    .remove (tokenOfUser "bob") { uid := 1000 } ]

/-- Names without a brace cannot be cut otherwise. -/
theorem apart_of_not_mem {c : Credential} (h : '\x7d' ∉ c.chars) : c.Apart := by
  simp only [Credential.chars, List.mem_append, not_or] at h
  constructor
  · intro a b hcut
    exact absurd (by simp [hcut, separator]) h.1.1
  · intro a b hcut
    exact absurd (by simp [hcut, separator]) h.1.2
  · intro a b hcut
    exact absurd (by simp [hcut, separator]) h.2

theorem holds_iff_quiet :
    ∃ t, Lts.exec (call keyboard String.ofList ⟨60000, false, 1000⟩) Store.empty quietCalls =
        some t ∧
      Lts.Always (call keyboard String.ofList ⟨60000, false, 1000⟩)
        (Holds keyboard String.ofList ⟨60000, false, 1000⟩) Store.empty quietCalls := by
  have halice : ((tokenOfUser "alice").toUpperCase keyboard).Apart := apart_of_not_mem (by decide)
  have hbob : ((tokenOfUser "bob").toUpperCase keyboard).Apart := apart_of_not_mem (by decide)
  have hclean : Replies.Clean ⟨60000, false, 1000⟩ { uid := 1000 } := by decide
  have hinj : Function.Injective String.ofList := fun _ _ h => String.ofList_injective h
  refine ⟨_, rfl, (holds_iff upperCase_keyboard hinj ⟨60000, false, 1000⟩ quietCalls _ rfl).1.mpr ?_⟩
  have hfirst : ∀ s, Harmless keyboard ⟨60000, false, 1000⟩ s
      (.write (tokenOfUser "alice") "a" { uid := 1000 }) := by
    intro s _ _
    simp [hclean, halice]
  have hsecond : ∀ s, Harmless keyboard ⟨60000, false, 1000⟩ s
      (.write (tokenOfUser "bob") "b" { uid := 1000 }) := by
    intro s _ _
    simp [hclean, hbob]
  have hthird : ∀ s, Harmless keyboard ⟨60000, false, 1000⟩ s
      (.write (tokenOfUser "alice") "a2" { openError := some "EACCES", uid := 1000 }) := by
    intro s _ hempties
    exact absurd hempties (by decide)
  have hlast : ∀ s, Harmless keyboard ⟨60000, false, 1000⟩ s
      (.remove (tokenOfUser "bob") { uid := 1000 }) := fun s _ _ _ => ⟨hclean, hbob⟩
  exact ⟨hfirst _, fun s _ => ⟨hsecond s, fun s _ => ⟨hthird s, fun s _ => ⟨hlast s, fun _ _ =>
    trivial⟩⟩⟩⟩

/-- Alice's token is stored, and the disk is full when Bob's is. -/
def fullDiskCalls : List Call :=
  [ .write (tokenOfUser "alice") "a" { uid := 1000 },
    .write (tokenOfUser "bob") "b" { missing := some 1, uid := 1000 } ]

/-- Alice's token cannot be read any more. -/
theorem other_token_lost :
    ∃ t, Lts.exec (call keyboard String.ofList ⟨60000, false, 1000⟩) Store.empty fullDiskCalls =
        some t ∧
      t.tokens ((tokenOfUser "alice").toUpperCase keyboard) = some "a" ∧
      (onKey keyboard String.ofList (tokenOfUser "alice") t.file fun keyHash =>
        read ⟨60000, false, 1000⟩ { uid := 1000 } keyHash t.file).result = .ok none := by
  have hclean : Replies.Clean ⟨60000, false, 1000⟩ { uid := 1000 } := by decide
  have hholding : Holding Store.empty.file [] := Or.inl ⟨rfl, rfl⟩
  refine ⟨_, rfl, by decide, ?_⟩
  obtain ⟨key, hkey⟩ : ∃ key, buildCredentialCacheKey keyboard (tokenOfUser "alice") = some key :=
    ⟨_, rfl⟩
  obtain ⟨key', hkey'⟩ : ∃ key, buildCredentialCacheKey keyboard (tokenOfUser "bob") = some key :=
    ⟨_, rfl⟩
  simp only [onKey, hkey, hkey']
  rw [read_result hclean, held_written (hholding.write _ _ _ _), if_pos (by decide),
    if_neg (by decide)]

end JsonCredentialManager

end SnowflakeConnector
