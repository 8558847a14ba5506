import Mathlib
import SnowflakeConnector.Lts

/-!
# SnowflakeConnector.AuthOauthAuthorizationCode

`lib/authentication/auth_oauth_authorization_code.js`: connections that share the cached
tokens of one host and user, each at one of the awaited steps of `authenticate` or
`reauthenticate`, and the token endpoint, which accepts a refresh token once.

Only the callback of `authenticate` goes through `coordinateAuth`.  A read, a write and a
removal of the cache are atomic and do not fail.

* `refresh_token_kept` -- as long as nothing is stored behind the back of a refresh that
  fails, a removal takes a rejected token and the newest token is not lost.
-/

namespace SnowflakeConnector

namespace AuthOauthAuthorizationCode

/-- What a connection is configured with: the key of `PENDING_AUTHS` and whether it uses
cached tokens to authenticate. -/
structure ConnectionConfig (κ : Type*) where
  coordinatorKey : κ
  clientStoreTemporaryCredential : Bool

/-- The step that a connection awaits; `coordinated` steps are those of the callback of
`authenticate`. -/
inductive Phase (ι τ α : Type*)
  | idle
  | readingAccessToken
  | readingRefreshToken (accessTokenFromCache : Option α)
  | rereadingRefreshToken
  | refreshing (coordinated : Bool) (refreshToken : τ)
  | authorizing
  | writingAccessToken (coordinated : Bool) (accessToken : α) (refreshToken : Option τ)
  | writingRefreshToken (coordinated : Bool) (accessToken : α) (refreshToken : τ)
  | removingRefreshToken (coordinated : Bool)
  | waiting (owner : ι)
  | settling (result : Option α)
  deriving DecidableEq, Repr

/-- What a request to the token endpoint ends with; a request that fails on its way may
still have used the token. -/
inductive Grant (τ α : Type*)
  | granted (accessToken : α) (refreshToken : Option τ)
  | rejected
  | failed (used : Bool)
  deriving DecidableEq, Repr

/-- The cache, `PENDING_AUTHS`, the connections, and what the token endpoint has issued,
accepted and rejected. -/
structure State (ι κ τ α : Type*) where
  accessToken : Option α
  refreshToken : Option τ
  pendingAuths : κ → Option ι
  phase : ι → Phase ι τ α
  token : ι → Option α
  issued : List τ
  used : List τ
  rejected : List τ

inductive Event (ι τ α : Type*)
  | authenticate (i : ι)
  | reauthenticate (i : ι)
  | clearAccessTokenCache (i : ι)
  | readAccessToken (i : ι)
  | readRefreshToken (i : ι)
  | getAccessTokenUsingRefreshToken (i : ι) (grant : Grant τ α)
  | executeFullAuthorizationCodeFlow (i : ι) (grant : Grant τ α)
  | writeAccessToken (i : ι)
  | writeRefreshToken (i : ι)
  | removeRefreshToken (i : ι)
  | settle (i : ι)
  deriving DecidableEq, Repr

section

variable {ι κ τ α : Type*} [DecidableEq ι] [DecidableEq κ] [DecidableEq τ]

/-- Nobody authenticates; the cache may hold tokens of earlier connections. -/
def init (accessToken : Option α) (refreshToken : Option τ) : State ι κ τ α where
  accessToken := accessToken
  refreshToken := refreshToken
  pendingAuths _ := none
  phase _ := .idle
  token _ := none
  issued := refreshToken.toList
  used := []
  rejected := []

namespace State

variable (s : State ι κ τ α)

def goto (i : ι) (phase : Phase ι τ α) : State ι κ τ α :=
  { s with phase := Function.update s.phase i phase }

/-- `coordinateAuth`: waits for the pending authentication of the key, or starts one. -/
def coordinateAuth (cfg : ι → ConnectionConfig κ) (i : ι) : State ι κ τ α :=
  match s.pendingAuths (cfg i).coordinatorKey with
  | some owner => s.goto i (.waiting owner)
  | none =>
      { s.goto i .readingAccessToken with
        pendingAuths := Function.update s.pendingAuths (cfg i).coordinatorKey (some i) }

/-- Where the callback of `authenticate` goes with the cached tokens. -/
def afterRead (cfg : ι → ConnectionConfig κ) (i : ι) (accessTokenFromCache : Option α)
    (refreshTokenFromCache : Option τ) : Phase ι τ α :=
  if accessTokenFromCache.isSome = true ∧ (cfg i).clientStoreTemporaryCredential = true then
    .settling accessTokenFromCache
  else
    match refreshTokenFromCache with
    | some refreshToken =>
        if (cfg i).clientStoreTemporaryCredential = true then .refreshing true refreshToken
        else .authorizing
    | none => .authorizing

/-- The tokens have been stored: the callback returns, or `reauthenticate` does. -/
def finish (i : ι) (coordinated : Bool) (accessToken : α) : State ι κ τ α :=
  if coordinated then s.goto i (.settling (some accessToken))
  else { s.goto i .idle with token := Function.update s.token i (some accessToken) }

/-- The endpoint grants an access token, perhaps with a refresh token. -/
def granted (i : ι) (coordinated : Bool) (accessToken : α) (refreshToken : Option τ) :
    State ι κ τ α :=
  { s.goto i (.writingAccessToken coordinated accessToken refreshToken) with
    issued := s.issued ++ refreshToken.toList }

/-- The promise settles: its owner and those who wait for it go on, with the token if there
is one. -/
def settled (cfg : ι → ConnectionConfig κ) (i : ι) (result : Option α) : State ι κ τ α :=
  { s with
    pendingAuths := Function.update s.pendingAuths (cfg i).coordinatorKey none
    phase j := match s.phase j with
      | .waiting owner => if owner = i then .idle else .waiting owner
      | phase => if j = i then .idle else phase
    token j := match s.phase j with
      | .waiting owner => if owner = i then result.or (s.token j) else s.token j
      | _ => if j = i then result.or (s.token j) else s.token j }

end State

/-- One awaited step of a connection.  The endpoint issues no refresh token twice and
accepts none twice. -/
def step (cfg : ι → ConnectionConfig κ) (s : State ι κ τ α) : Event ι τ α → Option (State ι κ τ α)
  | .authenticate i =>
      match s.phase i with
      | .idle => some (s.coordinateAuth cfg i)
      | _ => none
  | .reauthenticate i =>
      match s.phase i with
      | .idle => some (s.goto i .rereadingRefreshToken)
      | _ => none
  | .clearAccessTokenCache i =>
      match s.phase i with
      | .idle => some { s with accessToken := none }
      | _ => none
  | .readAccessToken i =>
      match s.phase i with
      | .readingAccessToken => some (s.goto i (.readingRefreshToken s.accessToken))
      | _ => none
  | .readRefreshToken i =>
      match s.phase i with
      | .readingRefreshToken accessTokenFromCache =>
          some (s.goto i (State.afterRead cfg i accessTokenFromCache s.refreshToken))
      | .rereadingRefreshToken =>
          match s.refreshToken with
          | some refreshToken => some (s.goto i (.refreshing false refreshToken))
          | none => some (s.coordinateAuth cfg i)
      | _ => none
  | .getAccessTokenUsingRefreshToken i grant =>
      match s.phase i with
      | .refreshing coordinated refreshToken =>
          match grant with
          | .granted accessToken issued =>
              if refreshToken ∉ s.used ∧ ∀ token ∈ issued, token ∉ s.issued then
                some { s.granted i coordinated accessToken issued with used := refreshToken :: s.used }
              else none
          | .rejected =>
              some { s.goto i (.removingRefreshToken coordinated) with
                rejected := refreshToken :: s.rejected }
          | .failed used =>
              some { s.goto i (.removingRefreshToken coordinated) with
                used := if used then refreshToken :: s.used else s.used }
      | _ => none
  | .executeFullAuthorizationCodeFlow i grant =>
      match s.phase i with
      | .authorizing =>
          match grant with
          | .granted accessToken issued =>
              if ∀ token ∈ issued, token ∉ s.issued then some (s.granted i true accessToken issued)
              else none
          | _ => some (s.goto i (.settling none))
      | _ => none
  | .writeAccessToken i =>
      match s.phase i with
      | .writingAccessToken coordinated accessToken (some refreshToken) =>
          some { s.goto i (.writingRefreshToken coordinated accessToken refreshToken) with
            accessToken := some accessToken }
      | .writingAccessToken coordinated accessToken none =>
          some { s.finish i coordinated accessToken with accessToken := some accessToken }
      | _ => none
  | .writeRefreshToken i =>
      match s.phase i with
      | .writingRefreshToken coordinated accessToken refreshToken =>
          some { s.finish i coordinated accessToken with refreshToken := some refreshToken }
      | _ => none
  | .removeRefreshToken i =>
      match s.phase i with
      | .removingRefreshToken coordinated =>
          let removed := { s with refreshToken := none }
          some (if coordinated then removed.goto i .authorizing else removed.coordinateAuth cfg i)
      | _ => none
  | .settle i =>
      match s.phase i with
      | .settling result => some (s.settled cfg i result)
      | _ => none

/-! ## refresh tokens -/

/-- The refresh token that a connection has been granted and has not stored yet. -/
def Phase.carried : Phase ι τ α → Option τ
  | .writingAccessToken _ _ refreshToken => refreshToken
  | .writingRefreshToken _ _ refreshToken => some refreshToken
  | _ => none

def Phase.isRemoving : Phase ι τ α → Bool
  | .removingRefreshToken _ => true
  | _ => false

/-- The refresh token that a connection is exchanging. -/
def Phase.refreshed : Phase ι τ α → Option τ
  | .refreshing _ refreshToken => some refreshToken
  | _ => none

namespace State

variable (s : State ι κ τ α)

/-- A token that has been issued is on its way to the cache. -/
def InFlight (token : τ) : Prop := ∃ i, (s.phase i).carried = some token

/-- The newest token, if it is not this one, has been presented to the endpoint or is on
its way to the cache. -/
def Spares (token : τ) : Prop :=
  ∀ newest ∈ s.issued.getLast?,
    newest = token ∨ newest ∈ s.used ∨ newest ∈ s.rejected ∨ s.InFlight newest

/-- The cache has a refresh token as long as the newest one, once it has been stored, has
not been presented to the endpoint. -/
def NewestKept : Prop :=
  ∀ newest ∈ s.issued.getLast?, newest ∉ s.used → newest ∉ s.rejected → ¬ s.InFlight newest →
    s.refreshToken ≠ none

end State

/-- A removal takes nothing but a refresh token that the endpoint has rejected. -/
def RemovesRejected (s : State ι κ τ α) : Event ι τ α → Prop
  | .removeRefreshToken _ => ∀ token ∈ s.refreshToken, token ∈ s.rejected
  | _ => True

/-- When an exchange fails, the cache is empty, or the endpoint has rejected the token and
the cache still holds it; nothing is stored before the connection has removed it. -/
def Undisturbed (s : State ι κ τ α) : Event ι τ α → Prop
  | .getAccessTokenUsingRefreshToken i .rejected =>
      ∀ token ∈ (s.phase i).refreshed, ∀ cached ∈ s.refreshToken, cached = token ∧ s.Spares token
  | .getAccessTokenUsingRefreshToken i (.failed _) =>
      ∀ token ∈ (s.phase i).refreshed, s.refreshToken = none
  | .writeRefreshToken _ => ∀ i, (s.phase i).isRemoving = false
  | _ => True

/-! ## the invariant -/

/-- While a connection is about to remove the cached token, that has been rejected and is
not the newest one, unless the newest one is of no use; and the newest one is kept. -/
structure Inv (s : State ι κ τ α) : Prop where
  rejected : ∀ i, (s.phase i).isRemoving = true → ∀ token ∈ s.refreshToken, token ∈ s.rejected
  spared : ∀ i, (s.phase i).isRemoving = true → s.refreshToken ≠ none →
    ∀ newest ∈ s.issued.getLast?, newest ∈ s.used ∨ newest ∈ s.rejected ∨ s.InFlight newest
  kept : s.NewestKept

variable {s t : State ι κ τ α}

omit [DecidableEq ι] [DecidableEq κ] [DecidableEq τ] in
theorem inv_init (accessToken : Option α) (refreshToken : Option τ) :
    Inv (init accessToken refreshToken : State ι κ τ α) where
  rejected _ h := by simp [init, Phase.isRemoving] at h
  spared _ h := by simp [init, Phase.isRemoving] at h
  kept := by
    intro newest hnewest _ _ _ hnone
    simp only [init] at hnewest hnone
    simp [hnone] at hnewest

omit [DecidableEq ι] [DecidableEq κ] [DecidableEq τ] in
theorem State.InFlight.mono {token : τ} (h : s.InFlight token)
    (hphase : ∀ i, (s.phase i).carried = some token → (t.phase i).carried = some token) :
    t.InFlight token := by
  obtain ⟨i, hi⟩ := h
  exact ⟨i, hphase i hi⟩

omit [DecidableEq ι] [DecidableEq κ] [DecidableEq τ] in
/-- A step after which the cached refresh token is the same, no connection carries another
one, and no other connection removes one. -/
theorem Inv.frame (h : Inv s) (hcached : t.refreshToken = s.refreshToken)
    (hissued : t.issued = s.issued) (hused : ∀ token ∈ s.used, token ∈ t.used)
    (hrejected : t.rejected = s.rejected)
    (hcarried : ∀ i, (t.phase i).carried = (s.phase i).carried)
    (hremoving : ∀ i, (t.phase i).isRemoving = true → (s.phase i).isRemoving = true) : Inv t where
  rejected i hi := by
    rw [hcached, hrejected]
    exact h.rejected i (hremoving i hi)
  spared i hi := by
    rw [hcached, hissued, hrejected]
    intro hcached newest hnewest
    obtain hnewest | hnewest | hnewest := h.spared i (hremoving i hi) hcached newest hnewest
    · exact Or.inl (hused newest hnewest)
    · exact Or.inr (Or.inl hnewest)
    · exact Or.inr (Or.inr (hnewest.mono fun j hj => by rw [hcarried, hj]))
  kept := by
    unfold State.NewestKept
    rw [hcached, hissued, hrejected]
    intro newest hnewest hnotUsed hnotRejected hnotInFlight
    refine h.kept newest hnewest (fun hused' => hnotUsed (hused newest hused')) hnotRejected ?_
    exact fun hinFlight => hnotInFlight (hinFlight.mono fun j hj => by rw [hcarried, hj])

omit [DecidableEq κ] [DecidableEq τ] in
/-- One connection goes on to a step at which it carries the same token and removes none. -/
theorem Inv.frame_goto (h : Inv s) {i : ι} {phase : Phase ι τ α}
    (hphase : t.phase = Function.update s.phase i phase) (hcached : t.refreshToken = s.refreshToken)
    (hissued : t.issued = s.issued) (hused : ∀ token ∈ s.used, token ∈ t.used)
    (hrejected : t.rejected = s.rejected) (hcarried : phase.carried = (s.phase i).carried)
    (hremoving : phase.isRemoving = false) : Inv t := by
  refine h.frame hcached hissued hused hrejected (fun j => ?_) (fun j hj => ?_)
  · rw [hphase]
    by_cases hji : j = i
    · rw [hji, Function.update_self, hcarried]
    · rw [Function.update_of_ne hji]
  · rw [hphase] at hj
    by_cases hji : j = i
    · rw [hji, Function.update_self, hremoving] at hj
      cases hj
    · rwa [Function.update_of_ne hji] at hj

omit [DecidableEq τ] in
theorem Inv.coordinateAuth (h : Inv s) (cfg : ι → ConnectionConfig κ) {i : ι}
    (hcarried : (s.phase i).carried = none) : Inv (s.coordinateAuth cfg i) := by
  unfold State.coordinateAuth
  cases s.pendingAuths (cfg i).coordinatorKey with
  | some owner => exact h.frame_goto rfl rfl rfl (fun _ hused => hused) rfl hcarried.symm rfl
  | none => exact h.frame_goto rfl rfl rfl (fun _ hused => hused) rfl hcarried.symm rfl

omit [DecidableEq κ] [DecidableEq τ] in
theorem phase_finish (i : ι) (coordinated : Bool) (accessToken : α) :
    ∃ phase : Phase ι τ α, (s.finish i coordinated accessToken).phase =
      Function.update s.phase i phase ∧ phase.carried = none ∧ phase.isRemoving = false := by
  cases coordinated with
  | true => exact ⟨.settling (some accessToken), rfl, rfl, rfl⟩
  | false => exact ⟨.idle, rfl, rfl, rfl⟩

omit [DecidableEq κ] [DecidableEq τ] in
theorem finish_eq (i : ι) (coordinated : Bool) (accessToken : α) :
    (s.finish i coordinated accessToken).refreshToken = s.refreshToken ∧
      (s.finish i coordinated accessToken).issued = s.issued ∧
      (s.finish i coordinated accessToken).used = s.used ∧
      (s.finish i coordinated accessToken).rejected = s.rejected := by
  cases coordinated <;> exact ⟨rfl, rfl, rfl, rfl⟩

omit [DecidableEq κ] [DecidableEq τ] in
/-- A granted refresh token is the newest one, and on its way. -/
theorem Inv.granted (h : Inv s) {i : ι} {coordinated : Bool} {accessToken : α}
    {refreshToken : Option τ} (hcarried : (s.phase i).carried = none)
    (hphase : t.phase = (s.granted i coordinated accessToken refreshToken).phase)
    (hcached : t.refreshToken = s.refreshToken)
    (hissued : t.issued = s.issued ++ refreshToken.toList)
    (hused : ∀ token ∈ s.used, token ∈ t.used) (hrejected : t.rejected = s.rejected) : Inv t := by
  have hphase' : t.phase =
      Function.update s.phase i (.writingAccessToken coordinated accessToken refreshToken) := hphase
  cases refreshToken with
  | none =>
      rw [Option.toList_none, List.append_nil] at hissued
      exact h.frame_goto hphase' hcached hissued hused hrejected hcarried.symm rfl
  | some refreshToken =>
      have hnewest : ∀ newest ∈ t.issued.getLast?, t.InFlight newest := by
        intro newest hnewest
        rw [hissued, Option.toList_some, List.getLast?_append_of_ne_nil _ (by simp),
          List.getLast?_singleton] at hnewest
        obtain rfl := Option.some.inj hnewest
        exact ⟨i, by rw [hphase', Function.update_self]; rfl⟩
      constructor
      · intro j hj
        rw [hcached, hrejected]
        by_cases hji : j = i
        · rw [hphase', hji, Function.update_self] at hj
          cases hj
        · rw [hphase', Function.update_of_ne hji] at hj
          exact h.rejected j hj
      · exact fun j _ _ newest hmem => Or.inr (Or.inr (hnewest newest hmem))
      · exact fun newest hmem _ _ hnotInFlight => absurd (hnewest newest hmem) hnotInFlight

/-! ## steps -/

omit [DecidableEq κ] [DecidableEq τ] in
/-- An exchange that fails goes on to remove the token, which the endpoint has rejected if
it is still cached. -/
theorem Inv.fail (h : Inv s) {i : ι} {coordinated : Bool} (token : τ)
    (hphase : t.phase = Function.update s.phase i (.removingRefreshToken coordinated))
    (hcarried : (s.phase i).carried = none) (hcached : t.refreshToken = s.refreshToken)
    (hissued : t.issued = s.issued) (hused : ∀ token ∈ s.used, token ∈ t.used)
    (hrejected : ∀ token ∈ s.rejected, token ∈ t.rejected)
    (hfails : ∀ cached ∈ s.refreshToken, cached = token ∧ token ∈ t.rejected ∧ s.Spares token) :
    Inv t := by
  have hinFlight : ∀ {newest}, s.InFlight newest → t.InFlight newest := by
    refine fun hnewest => hnewest.mono fun j hj => ?_
    by_cases hji : j = i
    · rw [hji, hcarried] at hj
      cases hj
    · rw [hphase, Function.update_of_ne hji, hj]
  have hcachedRejected : ∀ cached ∈ t.refreshToken, cached ∈ t.rejected := by
    rw [hcached]
    intro cached hmem
    obtain ⟨rfl, hmem, -⟩ := hfails cached hmem
    exact hmem
  constructor
  · exact fun _ _ => hcachedRejected
  · intro _ _ hne newest hnewest
    rw [hcached] at hne
    rw [hissued] at hnewest
    obtain ⟨cached, hmem⟩ := Option.ne_none_iff_exists'.mp hne
    obtain ⟨rfl, htoken, hspares⟩ := hfails cached hmem
    obtain rfl | hnewest | hnewest | hnewest := hspares newest hnewest
    · exact Or.inr (Or.inl htoken)
    · exact Or.inl (hused newest hnewest)
    · exact Or.inr (Or.inl (hrejected newest hnewest))
    · exact Or.inr (Or.inr (hinFlight hnewest))
  · intro newest hnewest hnotUsed hnotRejected hnotInFlight
    rw [hissued] at hnewest
    rw [hcached]
    exact h.kept newest hnewest (fun hmem => hnotUsed (hused newest hmem))
      (fun hmem => hnotRejected (hrejected newest hmem)) fun hmem => hnotInFlight (hinFlight hmem)

theorem Inv.refresh (h : Inv s) {cfg : ι → ConnectionConfig κ} {i : ι} {grant : Grant τ α}
    (hundisturbed : Undisturbed s (.getAccessTokenUsingRefreshToken i grant))
    (hstep : step cfg s (.getAccessTokenUsingRefreshToken i grant) = some t) : Inv t := by
  cases hphase : s.phase i with
  | refreshing coordinated refreshToken =>
      have hcarried : (s.phase i).carried = none := by rw [hphase]; rfl
      have hrefreshed : refreshToken ∈ (s.phase i).refreshed := by rw [hphase]; rfl
      cases grant with
      | granted accessToken issued =>
          simp only [AuthOauthAuthorizationCode.step, hphase, Option.ite_none_right_eq_some,
            Option.some.injEq] at hstep
          obtain ⟨-, rfl⟩ := hstep
          exact h.granted hcarried rfl rfl rfl (fun _ hmem => List.mem_cons_of_mem _ hmem) rfl
      | rejected =>
          simp only [AuthOauthAuthorizationCode.step, hphase, Option.some.injEq] at hstep
          obtain rfl := hstep
          refine h.fail refreshToken rfl hcarried rfl rfl (fun _ hmem => hmem)
            (fun _ hmem => List.mem_cons_of_mem _ hmem) fun cached hcached => ?_
          obtain ⟨hcached, hspares⟩ := hundisturbed refreshToken hrefreshed cached hcached
          exact ⟨hcached, List.mem_cons_self, hspares⟩
      | failed used =>
          simp only [AuthOauthAuthorizationCode.step, hphase, Option.some.injEq] at hstep
          obtain rfl := hstep
          have hnone := hundisturbed refreshToken hrefreshed
          refine h.fail refreshToken rfl hcarried rfl rfl (fun token hmem => ?_)
            (fun _ hmem => hmem) fun cached hcached => ?_
          · cases used with
            | true => exact List.mem_cons_of_mem _ hmem
            | false => exact hmem
          · rw [hnone] at hcached
            cases hcached
  | _ => simp [AuthOauthAuthorizationCode.step, hphase] at hstep

theorem inv_of_write {cfg : ι → ConnectionConfig κ} {i : ι}
    (hundisturbed : Undisturbed s (.writeRefreshToken i))
    (hstep : step cfg s (.writeRefreshToken i) = some t) : Inv t := by
  cases hphase : s.phase i with
  | writingRefreshToken coordinated accessToken refreshToken =>
      simp only [AuthOauthAuthorizationCode.step, hphase, Option.some.injEq] at hstep
      obtain ⟨phase, hfinish, -, hremoving⟩ := phase_finish (s := s) i coordinated accessToken
      have hnone : ∀ j, (t.phase j).isRemoving = false := by
        intro j
        have hj : (t.phase j) = Function.update s.phase i phase j := by rw [← hstep, ← hfinish]
        rw [hj]
        by_cases hji : j = i
        · rw [hji, Function.update_self, hremoving]
        · rw [Function.update_of_ne hji]
          exact hundisturbed j
      constructor
      · intro j hj
        rw [hnone j] at hj
        cases hj
      · intro j hj
        rw [hnone j] at hj
        cases hj
      · intro newest _ _ _ _ hcached
        rw [← hstep] at hcached
        cases hcached
  | _ => simp [AuthOauthAuthorizationCode.step, hphase] at hstep

theorem Inv.remove (h : Inv s) {cfg : ι → ConnectionConfig κ} {i : ι}
    (hstep : step cfg s (.removeRefreshToken i) = some t) : Inv t := by
  cases hphase : s.phase i with
  | removingRefreshToken coordinated =>
      have hremoving : (s.phase i).isRemoving = true := by rw [hphase]; rfl
      have hremoved : Inv { s with refreshToken := none } := by
        constructor
        · intro _ _ _ hcached
          cases hcached
        · exact fun _ _ hne => absurd rfl hne
        · intro newest hnewest hnotUsed hnotRejected hnotInFlight
          by_cases hcached : s.refreshToken = none
          · exact absurd hcached (h.kept newest hnewest hnotUsed hnotRejected hnotInFlight)
          · obtain hmem | hmem | hmem := h.spared i hremoving hcached newest hnewest
            · exact absurd hmem hnotUsed
            · exact absurd hmem hnotRejected
            · exact absurd hmem hnotInFlight
      have hcarried : (s.phase i).carried = none := by rw [hphase]; rfl
      simp only [AuthOauthAuthorizationCode.step, hphase, Option.some.injEq] at hstep
      cases coordinated with
      | true =>
          obtain rfl := hstep
          exact hremoved.frame_goto rfl rfl rfl (fun _ hmem => hmem) rfl hcarried.symm rfl
      | false =>
          obtain rfl := hstep
          exact hremoved.coordinateAuth cfg hcarried
  | _ => simp [AuthOauthAuthorizationCode.step, hphase] at hstep

omit [DecidableEq τ] in
theorem Inv.settled (h : Inv s) (cfg : ι → ConnectionConfig κ) {i : ι} {result : Option α}
    (hphase : s.phase i = .settling result) : Inv (s.settled cfg i result) := by
  refine h.frame rfl rfl (fun _ hmem => hmem) rfl (fun j => ?_) (fun j hj => ?_)
  · simp only [State.settled]
    split
    · rename_i owner howner
      rw [howner]
      split <;> rfl
    · split
      · rename_i hji
        rw [hji, hphase]
        rfl
      · rfl
  · simp only [State.settled] at hj
    split at hj
    · split at hj <;> cases hj
    · split at hj
      · cases hj
      · exact hj

/-- **Step**: a step that is not disturbed keeps the invariant. -/
theorem Inv.step (h : Inv s) {cfg : ι → ConnectionConfig κ} {e : Event ι τ α}
    (hundisturbed : Undisturbed s e) (hstep : step cfg s e = some t) : Inv t := by
  cases e with
  | getAccessTokenUsingRefreshToken i grant => exact h.refresh hundisturbed hstep
  | writeRefreshToken i => exact inv_of_write hundisturbed hstep
  | removeRefreshToken i => exact h.remove hstep
  | authenticate i =>
      cases hphase : s.phase i with
      | idle =>
          simp only [AuthOauthAuthorizationCode.step, hphase, Option.some.injEq] at hstep
          obtain rfl := hstep
          exact h.coordinateAuth cfg (by rw [hphase]; rfl)
      | _ => simp [AuthOauthAuthorizationCode.step, hphase] at hstep
  | reauthenticate i =>
      cases hphase : s.phase i with
      | idle =>
          simp only [AuthOauthAuthorizationCode.step, hphase, Option.some.injEq] at hstep
          obtain rfl := hstep
          exact h.frame_goto rfl rfl rfl (fun _ hmem => hmem) rfl (by rw [hphase]; rfl) rfl
      | _ => simp [AuthOauthAuthorizationCode.step, hphase] at hstep
  | clearAccessTokenCache i =>
      cases hphase : s.phase i with
      | idle =>
          simp only [AuthOauthAuthorizationCode.step, hphase, Option.some.injEq] at hstep
          obtain rfl := hstep
          exact h.frame rfl rfl (fun _ hmem => hmem) rfl (fun _ => rfl) fun _ hj => hj
      | _ => simp [AuthOauthAuthorizationCode.step, hphase] at hstep
  | readAccessToken i =>
      cases hphase : s.phase i with
      | readingAccessToken =>
          simp only [AuthOauthAuthorizationCode.step, hphase, Option.some.injEq] at hstep
          obtain rfl := hstep
          exact h.frame_goto rfl rfl rfl (fun _ hmem => hmem) rfl (by rw [hphase]; rfl) rfl
      | _ => simp [AuthOauthAuthorizationCode.step, hphase] at hstep
  | readRefreshToken i =>
      cases hphase : s.phase i with
      | readingRefreshToken accessTokenFromCache =>
          simp only [AuthOauthAuthorizationCode.step, hphase, Option.some.injEq] at hstep
          obtain rfl := hstep
          have hafter : (State.afterRead cfg i accessTokenFromCache s.refreshToken).carried = none ∧
              (State.afterRead cfg i accessTokenFromCache s.refreshToken).isRemoving = false := by
            unfold State.afterRead
            split
            · exact ⟨rfl, rfl⟩
            · split
              · split <;> exact ⟨rfl, rfl⟩
              · exact ⟨rfl, rfl⟩
          exact h.frame_goto rfl rfl rfl (fun _ hmem => hmem) rfl (by rw [hafter.1, hphase]; rfl)
            hafter.2
      | rereadingRefreshToken =>
          have hcarried : (s.phase i).carried = none := by rw [hphase]; rfl
          cases hcached : s.refreshToken with
          | none =>
              simp only [AuthOauthAuthorizationCode.step, hphase, hcached, Option.some.injEq] at hstep
              obtain rfl := hstep
              exact h.coordinateAuth cfg hcarried
          | some refreshToken =>
              simp only [AuthOauthAuthorizationCode.step, hphase, hcached, Option.some.injEq] at hstep
              obtain rfl := hstep
              exact h.frame_goto rfl rfl rfl (fun _ hmem => hmem) rfl hcarried.symm rfl
      | _ => simp [AuthOauthAuthorizationCode.step, hphase] at hstep
  | executeFullAuthorizationCodeFlow i grant =>
      cases hphase : s.phase i with
      | authorizing =>
          have hcarried : (s.phase i).carried = none := by rw [hphase]; rfl
          cases grant with
          | granted accessToken issued =>
              simp only [AuthOauthAuthorizationCode.step, hphase, Option.ite_none_right_eq_some,
                Option.some.injEq] at hstep
              obtain ⟨-, rfl⟩ := hstep
              exact h.granted hcarried rfl rfl rfl (fun _ hmem => hmem) rfl
          | _ =>
              simp only [AuthOauthAuthorizationCode.step, hphase, Option.some.injEq] at hstep
              obtain rfl := hstep
              exact h.frame_goto rfl rfl rfl (fun _ hmem => hmem) rfl hcarried.symm rfl
      | _ => simp [AuthOauthAuthorizationCode.step, hphase] at hstep
  | writeAccessToken i =>
      cases hphase : s.phase i with
      | writingAccessToken coordinated accessToken refreshToken =>
          cases refreshToken with
          | some refreshToken =>
              simp only [AuthOauthAuthorizationCode.step, hphase, Option.some.injEq] at hstep
              obtain rfl := hstep
              exact h.frame_goto rfl rfl rfl (fun _ hmem => hmem) rfl (by rw [hphase]; rfl) rfl
          | none =>
              simp only [AuthOauthAuthorizationCode.step, hphase, Option.some.injEq] at hstep
              obtain rfl := hstep
              obtain ⟨phase, hfinish, hcarried, hremoving⟩ :=
                phase_finish (s := s) i coordinated accessToken
              obtain ⟨hcached, hissued, hused, hrejected⟩ :=
                finish_eq (s := s) i coordinated accessToken
              refine h.frame_goto hfinish hcached hissued (fun token hmem => ?_) hrejected ?_ hremoving
              · exact hused ▸ hmem
              · rw [hcarried, hphase]
                rfl
      | _ => simp [AuthOauthAuthorizationCode.step, hphase] at hstep
  | settle i =>
      cases hphase : s.phase i with
      | settling result =>
          simp only [AuthOauthAuthorizationCode.step, hphase, Option.some.injEq] at hstep
          obtain rfl := hstep
          exact h.settled cfg hphase
      | _ => simp [AuthOauthAuthorizationCode.step, hphase] at hstep

/-! ## runs -/

/-- **Runs**: in a run in which nothing is stored behind the back of a refresh that fails,
every removal takes a rejected token, and the newest token is not lost. -/
theorem refresh_token_kept (cfg : ι → ConnectionConfig κ) (accessToken : Option α)
    (refreshToken : Option τ) (es : List (Event ι τ α)) (s : State ι κ τ α)
    (hundisturbed : Lts.Along (step cfg) Undisturbed (init accessToken refreshToken) es)
    (h : Lts.exec (step cfg) (init accessToken refreshToken) es = some s) :
    Lts.Along (step cfg) RemovesRejected (init accessToken refreshToken) es ∧ s.NewestKept := by
  have hstep : ∀ (s : State ι κ τ α) e t, Inv s → Undisturbed s e → step cfg s e = some t → Inv t :=
    fun s e t hinv hundisturbed hstep => hinv.step hundisturbed hstep
  have hinit : Inv (init accessToken refreshToken : State ι κ τ α) := inv_init accessToken refreshToken
  have hremoves : ∀ (s : State ι κ τ α) e t, Inv s → Undisturbed s e → step cfg s e = some t →
      RemovesRejected s e := by
    intro s e t hinv _ hst
    cases e with
    | removeRefreshToken i =>
        cases hphase : s.phase i with
        | removingRefreshToken coordinated => exact hinv.rejected i (by rw [hphase]; rfl)
        | _ => simp [step, hphase] at hst
    | _ => trivial
  exact ⟨Lts.along_of_invariant hremoves hstep hinit hundisturbed h,
    (Lts.exec_invariant_of_along hstep hinit hundisturbed h).kept⟩

end

/-! ## two connections -/

section

variable {ι κ τ α : Type*} [DecidableEq τ] [Fintype ι]

instance decidableInFlight (s : State ι κ τ α) (token : τ) : Decidable (s.InFlight token) :=
  inferInstanceAs (Decidable (∃ i, (s.phase i).carried = some token))

instance decidableSpares (s : State ι κ τ α) (token : τ) : Decidable (s.Spares token) :=
  inferInstanceAs (Decidable (∀ newest ∈ s.issued.getLast?,
    newest = token ∨ newest ∈ s.used ∨ newest ∈ s.rejected ∨ s.InFlight newest))

instance decidableUndisturbed (s : State ι κ τ α) : ∀ e : Event ι τ α, Decidable (Undisturbed s e)
  | .getAccessTokenUsingRefreshToken _ (.granted _ _) => inferInstanceAs (Decidable True)
  | .getAccessTokenUsingRefreshToken i .rejected =>
      inferInstanceAs (Decidable (∀ token ∈ (s.phase i).refreshed, ∀ cached ∈ s.refreshToken,
        cached = token ∧ s.Spares token))
  | .getAccessTokenUsingRefreshToken i (.failed _) =>
      inferInstanceAs (Decidable (∀ token ∈ (s.phase i).refreshed, s.refreshToken = none))
  | .writeRefreshToken _ => inferInstanceAs (Decidable (∀ i, (s.phase i).isRemoving = false))
  | .authenticate _ => inferInstanceAs (Decidable True)
  | .reauthenticate _ => inferInstanceAs (Decidable True)
  | .clearAccessTokenCache _ => inferInstanceAs (Decidable True)
  | .readAccessToken _ => inferInstanceAs (Decidable True)
  | .readRefreshToken _ => inferInstanceAs (Decidable True)
  | .executeFullAuthorizationCodeFlow _ _ => inferInstanceAs (Decidable True)
  | .writeAccessToken _ => inferInstanceAs (Decidable True)
  | .removeRefreshToken _ => inferInstanceAs (Decidable True)
  | .settle _ => inferInstanceAs (Decidable True)

end

/-- Both connections authenticate under one key, with cached tokens. -/
def sharedConfig : Bool → ConnectionConfig Unit := fun _ => ⟨(), true⟩

/-- One connection refreshes; the other one finds that its token has been revoked and
authenticates from the beginning. -/
def revokedRun : List (Event Bool Nat Nat) :=
  [ .reauthenticate false, .readRefreshToken false,
    .getAccessTokenUsingRefreshToken false (.granted 10 (some 1)),
    .writeAccessToken false, .writeRefreshToken false,
    .clearAccessTokenCache true, .reauthenticate true, .readRefreshToken true,
    .getAccessTokenUsingRefreshToken true .rejected, .removeRefreshToken true,
    .readAccessToken true, .readRefreshToken true,
    .executeFullAuthorizationCodeFlow true (.granted 20 (some 2)),
    .writeAccessToken true, .writeRefreshToken true, .settle true ]

theorem refresh_token_kept_revoked :
    Lts.Along (step sharedConfig) Undisturbed (init none (some 0)) revokedRun ∧
    ∃ s, Lts.exec (step sharedConfig) (init none (some 0)) revokedRun = some s ∧
      s.rejected = [1] ∧ s.refreshToken = some 2 ∧
      Lts.Along (step sharedConfig) RemovesRejected (init none (some 0)) revokedRun ∧
      s.NewestKept := by
  have hundisturbed : Lts.Along (step sharedConfig) Undisturbed (init none (some 0)) revokedRun := by
    decide
  obtain ⟨s, hs, hrejected, hcached⟩ : ∃ s,
      Lts.exec (step sharedConfig) (init none (some 0)) revokedRun = some s ∧
        s.rejected = [1] ∧ s.refreshToken = some 2 := Lts.exists_exec (by decide)
  exact ⟨hundisturbed, s, hs, hrejected, hcached,
    refresh_token_kept sharedConfig none (some 0) revokedRun s hundisturbed hs⟩

/-- Both connections read the same refresh token; the one that comes second removes the
token that the first one has stored. -/
def racingRun : List (Event Bool Nat Nat) :=
  [ .reauthenticate false, .readRefreshToken false, .reauthenticate true, .readRefreshToken true,
    .getAccessTokenUsingRefreshToken false (.granted 10 (some 1)),
    .writeAccessToken false, .writeRefreshToken false,
    .getAccessTokenUsingRefreshToken true .rejected, .removeRefreshToken true ]

/-- The newest token, stored and unused, is gone: the one rejected was older. -/
theorem newest_token_removed :
    ∃ s, Lts.exec (step sharedConfig) (init none (some 0)) racingRun = some s ∧
      s.refreshToken = none ∧ s.issued.getLast? = some 1 ∧ 1 ∉ s.used ∧ s.rejected = [0] ∧
      ¬ s.InFlight 1 ∧ ¬ s.NewestKept := by
  obtain ⟨s, hs, hcached, hissued, hused, hrejected, hinFlight⟩ : ∃ s,
      Lts.exec (step sharedConfig) (init none (some 0)) racingRun = some s ∧
        s.refreshToken = none ∧ s.issued.getLast? = some 1 ∧ 1 ∉ s.used ∧ s.rejected = [0] ∧
        ¬ s.InFlight 1 := Lts.exists_exec (by decide)
  refine ⟨s, hs, hcached, hissued, hused, hrejected, hinFlight, fun hkept => ?_⟩
  exact hkept 1 hissued hused (by rw [hrejected]; decide) hinFlight hcached

end AuthOauthAuthorizationCode

end SnowflakeConnector
