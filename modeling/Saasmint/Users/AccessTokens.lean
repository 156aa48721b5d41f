/-
Saasmint/Users/AccessTokens.lean

The access tokens of an active user, and what a password change does to them
(`create_access_token` and `JWTAuthentication.authenticate` of
apps/users/authentication.py, `_invalidate_auth_user_cache` of
apps/users/models.py).

A token carries the second of the `password_changed_at` that its maker has
read, and is refused where the row, or the snapshot of it in the cache, has a
later one.  The steps of the requests interleave: a request that misses the
cache reads the row and puts it in the cache later, a change saves the row and
deletes the snapshot later.

The JWT library is a parameter (`Jwt`).  Times are microseconds; next to the
row and the cache the state keeps a history that no request reads.
-/
import Saasmint.Lib.Interleaving
import Saasmint.Users.Models

namespace Saasmint

/-- A time in microseconds since 1970. -/
abbrev Micros := Nat

/-- `int(t.timestamp())`. -/
def second (t : Micros) : Nat := t / 1000000

/-- The second of `password_changed_at`, 0 where it is NULL. -/
def pwdSecond (passwordChangedAt : Option Micros) : Nat :=
  match passwordChangedAt with
  | some t => second t
  | none => 0

def accessTokenMicros : Micros := 15 * 60 * 1000000

/-- `_AUTH_CACHE_TTL`. -/
def authCacheTtl : Micros := 60 * 1000000

/-! ### Tokens -/

structure AccessPayload where
  sub : UUID
  email : String
  type : String
  iat : Nat
  exp : Nat
  pwdIat : Nat
  deriving DecidableEq, Repr

/-- What `authenticate` reads of a decoded payload; a claim of another type
counts as missing. -/
structure AccessClaims where
  type : Option String
  sub : Option UUID
  pwdIat : Option Nat
  deriving DecidableEq, Repr

def AccessPayload.claims (p : AccessPayload) : AccessClaims :=
  ⟨some p.type, some p.sub, some p.pwdIat⟩

inductive JwtError
  | expiredSignature
  | invalidToken
  deriving DecidableEq, Repr

/-- The library that signs payloads and verifies tokens. -/
structure Jwt (τ : Type*) where
  encode : AccessPayload → τ
  decode : τ → Micros → Except JwtError AccessClaims

/-- A token decodes to the payload it was made of, and does so from its `iat`
until its `exp`. -/
structure Jwt.Verifies {τ : Type*} (jwt : Jwt τ) : Prop where
  decode_ok : ∀ p now, p.iat ≤ second now → now < p.exp * 1000000 →
    jwt.decode (jwt.encode p) now = .ok p.claims
  claims_eq : ∀ p now claims, jwt.decode (jwt.encode p) now = .ok claims → claims = p.claims

/-- The payload of `create_access_token`. -/
def accessPayload (user : User) (passwordChangedAt : Option Micros) (now : Micros) :
    AccessPayload where
  sub := user.id
  email := user.email
  type := "access"
  iat := second now
  exp := second (now + accessTokenMicros)
  pwdIat := pwdSecond passwordChangedAt

variable {τ ι : Type*}

/-- What `authenticate` checks before it looks for the user, who is the only
one of the table. -/
def checkToken (jwt : Jwt τ) (user : User) (token : τ) (now : Micros) :
    Except AuthError AccessClaims :=
  match jwt.decode token now with
  | .error .expiredSignature => .error .tokenExpired
  | .error .invalidToken => .error .invalidToken
  | .ok claims =>
    if claims.type ≠ some "access" then .error .invalidToken
    else match claims.sub with
      | none => .error .invalidToken
      | some sub => if sub = user.id then .ok claims else .error .userNotFound

/-- The comparison with the user that it has found. -/
def checkPwdIat (claims : AccessClaims) (passwordChangedAt : Option Micros) :
    Except AuthError Unit :=
  if claims.pwdIat.getD 0 < pwdSecond passwordChangedAt then .error .tokenRevoked else .ok ()

/-! ### The state -/

/-- A password change that has saved the row: its stamp, and the step. -/
structure PasswordSave where
  stamp : Micros
  step : Nat
  deriving DecidableEq, Repr

/-- A password change that is complete: it has deleted the snapshot as well. -/
structure CompletedChange extends PasswordSave where
  completedAt : Nat
  deriving DecidableEq, Repr

/-- An issue of a token, by a change where it is the one that answers it. -/
structure TokenIssue (τ : Type*) where
  token : τ
  pwdIat : Nat
  time : Micros
  step : Nat
  change : Option CompletedChange
  deriving DecidableEq, Repr

/-- The row and the cache, with their history. -/
structure AuthUser (τ : Type*) where
  passwordChangedAt : Option Micros
  /-- The snapshot, and when it expires. -/
  cache : Option (Option Micros × Micros)
  saves : List PasswordSave
  completed : List CompletedChange
  issues : List (TokenIssue τ)
  clock : Nat

/-- `cache.get`. -/
def AuthUser.cached (db : AuthUser τ) (now : Micros) : Option (Option Micros) :=
  (db.cache.filter fun entry => decide (now < entry.2)).map Prod.fst

inductive AccessRequest (τ : Type*)
  /-- A login, a refresh or a callback: it loads the user, then issues a token. -/
  | issue
  | changePassword
  | authenticate (token : τ)
  /-- A save of other columns, which deletes the snapshot too. -/
  | saveProfile

inductive AccessCall
  | start
  | loaded (snapshot : Option Micros) (step : Nat)
  /-- A change has stamped the user that it has in memory. -/
  | stamped (stamp : Micros)
  | saved (change : PasswordSave)
  | invalidated (change : CompletedChange)
  /-- The cache has no snapshot. -/
  | missed (claims : AccessClaims) (startedAt : Nat) (time : Micros)
  | read (claims : AccessClaims) (startedAt : Nat) (time : Micros) (snapshot : Option Micros)
      (step : Nat)
  | decided (startedAt : Nat) (time : Micros) (result : Except AuthError Unit)
  | done
  deriving DecidableEq

namespace AuthUser

variable (db : AuthUser τ)

def tick : AuthUser τ := { db with clock := db.clock + 1 }

/-- The UPDATE of a change. -/
def save (stamp : Micros) : AuthUser τ :=
  { db with
    passwordChangedAt := some stamp
    saves := db.saves ++ [⟨stamp, db.clock⟩]
    clock := db.clock + 1 }

/-- `cache.delete`, as the last step of a change. -/
def complete (change : PasswordSave) : AuthUser τ :=
  { db with
    cache := none
    completed := db.completed ++ [⟨change, db.clock⟩]
    clock := db.clock + 1 }

def deleteSnapshot : AuthUser τ := { db with cache := none, clock := db.clock + 1 }

/-- `cache.set`. -/
def setSnapshot (snapshot : Option Micros) (now : Micros) : AuthUser τ :=
  { db with cache := some (snapshot, now + authCacheTtl), clock := db.clock + 1 }

/-- `create_access_token`. -/
def issue (jwt : Jwt τ) (user : User) (snapshot : Option Micros) (now : Micros)
    (change : Option CompletedChange) : AuthUser τ :=
  { db with
    issues := db.issues ++ [{
      token := jwt.encode (accessPayload user snapshot now)
      pwdIat := pwdSecond snapshot
      time := now
      step := db.clock
      change }]
    clock := db.clock + 1 }

end AuthUser

/-- A step of the request `i` at `now`. -/
def accessAct (jwt : Jwt τ) (user : User) (requests : ι → AccessRequest τ) (i : ι)
    (db : AuthUser τ) (κ : AccessCall) (now : Micros) : Option (AuthUser τ × AccessCall) :=
  match requests i, κ with
  | .issue, .start => some (db.tick, .loaded db.passwordChangedAt db.clock)
  | .issue, .loaded snapshot _ => some (db.issue jwt user snapshot now none, .done)
  | .changePassword, .start => some (db.tick, .stamped now)
  | .changePassword, .stamped stamp => some (db.save stamp, .saved ⟨stamp, db.clock⟩)
  | .changePassword, .saved change => some (db.complete change, .invalidated ⟨change, db.clock⟩)
  | .changePassword, .invalidated change =>
    some (db.issue jwt user (some change.stamp) now (some change), .done)
  | .authenticate token, .start =>
    match checkToken jwt user token now with
    | .error e => some (db.tick, .decided db.clock now (.error e))
    | .ok claims =>
      match db.cached now with
      | some snapshot => some (db.tick, .decided db.clock now (checkPwdIat claims snapshot))
      | none => some (db.tick, .missed claims db.clock now)
  | .authenticate _, .missed claims startedAt time =>
    some (db.tick, .read claims startedAt time db.passwordChangedAt db.clock)
  | .authenticate _, .read claims startedAt time snapshot _ =>
    some (db.setSnapshot snapshot now, .decided startedAt time (checkPwdIat claims snapshot))
  | .saveProfile, .start => some (db.deleteSnapshot, .done)
  | _, _ => none

abbrev AccessSystem (τ ι : Type*) := Interleaving.State ι (AuthUser τ) AccessCall

/-- A row, and nothing in the cache. -/
def accessInit (τ ι : Type*) (passwordChangedAt : Option Micros) : AccessSystem τ ι :=
  ⟨⟨passwordChangedAt, none, [], [], [], 0⟩, fun _ => .start⟩

/-! ### What is claimed -/

/-- A password change revokes the access tokens that were issued before it, and
no token that it issues or that is issued after it, as long as it is the latest. -/
structure RevokedByChange (requests : ι → AccessRequest τ) (s : AccessSystem τ ι) : Prop where
  rejects : ∀ i token startedAt time result, requests i = .authenticate token →
    s.procs i = .decided startedAt time result →
    ∀ c ∈ s.shared.completed, c.completedAt < startedAt →
    ∀ t ∈ s.shared.issues, t.token = token → t.step < c.step → result ≠ .ok ()
  accepts : ∀ i token startedAt time result, requests i = .authenticate token →
    s.procs i = .decided startedAt time result →
    ∀ c ∈ s.shared.completed, (∀ c' ∈ s.shared.saves, c'.step ≤ c.step) →
    ∀ t ∈ s.shared.issues, t.token = token → t.change = some c ∨ c.completedAt < t.step →
    t.time ≤ time → time < second (t.time + accessTokenMicros) * 1000000 → result = .ok ()

/-- A change stamps a later second than the change before it, and no user is put
in the cache, or into a token, that was read or saved before the save of a
change that is complete. -/
def SnapshotsInOrder (_ : ι) (db : AuthUser τ) (κ : AccessCall) (_ : Micros) : Prop :=
  match κ with
  | .stamped stamp => pwdSecond db.passwordChangedAt < second stamp
  | .loaded _ step | .read _ _ _ _ step => ∀ c ∈ db.completed, c.step < step
  | .invalidated change => ∀ c ∈ db.completed, c.step ≤ change.step
  | _ => True

instance (i : ι) (db : AuthUser τ) (now : Micros) :
    ∀ κ, Decidable (SnapshotsInOrder i db κ now)
  | .stamped stamp => inferInstanceAs (Decidable (pwdSecond db.passwordChangedAt < second stamp))
  | .loaded _ step => inferInstanceAs (Decidable (∀ c ∈ db.completed, c.step < step))
  | .read _ _ _ _ step => inferInstanceAs (Decidable (∀ c ∈ db.completed, c.step < step))
  | .invalidated change => inferInstanceAs (Decidable (∀ c ∈ db.completed, c.step ≤ change.step))
  | .start | .saved _ | .missed _ _ _ | .decided _ _ _ | .done => isTrue trivial

/-! ### The steps -/

/-- The steps, by what they do to the state. -/
inductive AccessStep (jwt : Jwt τ) (user : User) (r : AccessRequest τ) (now : Micros)
    (db db' : AuthUser τ) (κ κ' : AccessCall) : Prop
  | load (hdb : db' = db.tick) (hκ' : κ' = .loaded db.passwordChangedAt db.clock)
  | issue (snapshot : Option Micros) (step : Nat) (hκ : κ = .loaded snapshot step)
      (hdb : db' = db.issue jwt user snapshot now none) (hκ' : κ' = .done)
  | stamp (hdb : db' = db.tick) (hκ' : κ' = .stamped now)
  | save (stamp : Micros) (hκ : κ = .stamped stamp) (hdb : db' = db.save stamp)
      (hκ' : κ' = .saved ⟨stamp, db.clock⟩)
  | complete (change : PasswordSave) (hκ : κ = .saved change) (hdb : db' = db.complete change)
      (hκ' : κ' = .invalidated ⟨change, db.clock⟩)
  | answer (change : CompletedChange) (hκ : κ = .invalidated change)
      (hdb : db' = db.issue jwt user (some change.stamp) now (some change)) (hκ' : κ' = .done)
  | refuse (token : τ) (e : AuthError) (hr : r = .authenticate token)
      (he : checkToken jwt user token now = .error e) (hdb : db' = db.tick)
      (hκ' : κ' = .decided db.clock now (.error e))
  | hit (token : τ) (claims : AccessClaims) (snapshot : Option Micros)
      (hr : r = .authenticate token) (hclaims : checkToken jwt user token now = .ok claims)
      (hcached : db.cached now = some snapshot) (hdb : db' = db.tick)
      (hκ' : κ' = .decided db.clock now (checkPwdIat claims snapshot))
  | miss (token : τ) (claims : AccessClaims) (hr : r = .authenticate token)
      (hclaims : checkToken jwt user token now = .ok claims) (hdb : db' = db.tick)
      (hκ' : κ' = .missed claims db.clock now)
  | read (claims : AccessClaims) (startedAt : Nat) (time : Micros)
      (hκ : κ = .missed claims startedAt time) (hdb : db' = db.tick)
      (hκ' : κ' = .read claims startedAt time db.passwordChangedAt db.clock)
  | fill (claims : AccessClaims) (startedAt : Nat) (time : Micros) (snapshot : Option Micros)
      (step : Nat) (hκ : κ = .read claims startedAt time snapshot step)
      (hdb : db' = db.setSnapshot snapshot now)
      (hκ' : κ' = .decided startedAt time (checkPwdIat claims snapshot))
  | delete (hdb : db' = db.deleteSnapshot) (hκ' : κ' = .done)

theorem accessAct_cases {jwt : Jwt τ} {user : User} {requests : ι → AccessRequest τ} {i : ι}
    {db db' : AuthUser τ} {κ κ' : AccessCall} {now : Micros}
    (h : accessAct jwt user requests i db κ now = some (db', κ')) :
    AccessStep jwt user (requests i) now db db' κ κ' := by
  unfold accessAct at h
  split at h
  · obtain ⟨rfl, rfl⟩ := Prod.mk.inj (Option.some.inj h)
    exact .load rfl rfl
  · obtain ⟨rfl, rfl⟩ := Prod.mk.inj (Option.some.inj h)
    exact .issue _ _ rfl rfl rfl
  · obtain ⟨rfl, rfl⟩ := Prod.mk.inj (Option.some.inj h)
    exact .stamp rfl rfl
  · obtain ⟨rfl, rfl⟩ := Prod.mk.inj (Option.some.inj h)
    exact .save _ rfl rfl rfl
  · obtain ⟨rfl, rfl⟩ := Prod.mk.inj (Option.some.inj h)
    exact .complete _ rfl rfl rfl
  · obtain ⟨rfl, rfl⟩ := Prod.mk.inj (Option.some.inj h)
    exact .answer _ rfl rfl rfl
  · -- a request starts
    rename_i token hr
    split at h
    · rename_i e he
      obtain ⟨rfl, rfl⟩ := Prod.mk.inj (Option.some.inj h)
      exact .refuse token e hr he rfl rfl
    · rename_i claims hclaims
      split at h
      · rename_i snapshot hcached
        obtain ⟨rfl, rfl⟩ := Prod.mk.inj (Option.some.inj h)
        exact .hit token claims snapshot hr hclaims hcached rfl rfl
      · obtain ⟨rfl, rfl⟩ := Prod.mk.inj (Option.some.inj h)
        exact .miss token claims hr hclaims rfl rfl
  · obtain ⟨rfl, rfl⟩ := Prod.mk.inj (Option.some.inj h)
    exact .read _ _ _ rfl rfl rfl
  · obtain ⟨rfl, rfl⟩ := Prod.mk.inj (Option.some.inj h)
    exact .fill _ _ _ _ _ rfl rfl rfl
  · obtain ⟨rfl, rfl⟩ := Prod.mk.inj (Option.some.inj h)
    exact .delete rfl rfl
  · cases h

/-! ### The invariant -/

/-- A snapshot that was read at a step: it has no later second than the row, and
no earlier one than the changes saved by then. -/
structure AuthUser.ReadAt (db : AuthUser τ) (snapshot : Option Micros) (step : Nat) : Prop where
  before : pwdSecond snapshot ≤ pwdSecond db.passwordChangedAt
  early : step < db.clock
  after : ∀ c ∈ db.saves, c.step < step → second c.stamp ≤ pwdSecond snapshot

/-- What a token says lies between the changes before it and those after. -/
structure AuthUser.Issued (jwt : Jwt τ) (user : User) (db : AuthUser τ) (t : TokenIssue τ) :
    Prop where
  token : ∃ snapshot, pwdSecond snapshot = t.pwdIat ∧
    t.token = jwt.encode (accessPayload user snapshot t.time)
  before : t.pwdIat ≤ pwdSecond db.passwordChangedAt
  early : t.step < db.clock
  change : ∀ c, t.change = some c → c ∈ db.completed
  revoked : ∀ c ∈ db.saves, t.step < c.step → t.pwdIat < second c.stamp
  kept : ∀ c ∈ db.completed, t.change = some c ∨ c.completedAt < t.step →
    second c.stamp ≤ t.pwdIat

/-- The row is the latest save's, a completed change has been saved, and the
snapshot in the cache is no older than a completed change. -/
structure AuthUser.Ordered (jwt : Jwt τ) (user : User) (db : AuthUser τ) : Prop where
  saved : ∀ c ∈ db.saves, c.step < db.clock ∧ second c.stamp ≤ pwdSecond db.passwordChangedAt
  mono : ∀ c ∈ db.saves, ∀ c' ∈ db.saves, c.step ≤ c'.step → second c.stamp ≤ second c'.stamp
  latest : ∀ c ∈ db.saves, (∀ c' ∈ db.saves, c'.step ≤ c.step) →
    db.passwordChangedAt = some c.stamp
  completed : ∀ c ∈ db.completed, c.toPasswordSave ∈ db.saves ∧ c.completedAt < db.clock
  cache : ∀ snapshot expiresAt, db.cache = some (snapshot, expiresAt) →
    pwdSecond snapshot ≤ pwdSecond db.passwordChangedAt ∧
      ∀ c ∈ db.completed, second c.stamp ≤ pwdSecond snapshot
  issues : ∀ t ∈ db.issues, db.Issued jwt user t

/-- What a request knows. -/
def AccessAssertion (jwt : Jwt τ) (user : User) (requests : ι → AccessRequest τ) (i : ι)
    (db : AuthUser τ) : AccessCall → Prop
  | .start | .stamped _ | .done => True
  | .loaded snapshot step => db.ReadAt snapshot step
  | .saved change => change ∈ db.saves
  | .invalidated change => change ∈ db.completed
  | .missed claims startedAt time =>
    startedAt < db.clock ∧ ∃ token, requests i = .authenticate token ∧
      checkToken jwt user token time = .ok claims
  | .read claims startedAt time snapshot step =>
    startedAt < step ∧ db.ReadAt snapshot step ∧ ∃ token, requests i = .authenticate token ∧
      checkToken jwt user token time = .ok claims
  | .decided startedAt time result =>
    startedAt < db.clock ∧ ∃ token snapshot, requests i = .authenticate token ∧
      result = (checkToken jwt user token time >>= fun claims => checkPwdIat claims snapshot) ∧
      pwdSecond snapshot ≤ pwdSecond db.passwordChangedAt ∧
      ∀ c ∈ db.completed, c.completedAt < startedAt → second c.stamp ≤ pwdSecond snapshot

/-- What every step in order leaves of the history. -/
structure AuthUser.Later (db db' : AuthUser τ) : Prop where
  row : pwdSecond db.passwordChangedAt ≤ pwdSecond db'.passwordChangedAt
  clock : db'.clock = db.clock + 1
  saves : ∀ c ∈ db'.saves, c ∈ db.saves ∨ c.step = db.clock
  completed : ∀ c ∈ db'.completed, c ∈ db.completed ∨ c.completedAt = db.clock
  saves_subset : ∀ c ∈ db.saves, c ∈ db'.saves
  completed_subset : ∀ c ∈ db.completed, c ∈ db'.completed

variable {jwt : Jwt τ} {user : User} {requests : ι → AccessRequest τ} {db db' : AuthUser τ}

theorem AuthUser.ReadAt.later {snapshot : Option Micros} {step : Nat} (h : db.ReadAt snapshot step)
    (hl : db.Later db') : db'.ReadAt snapshot step where
  before := Nat.le_trans h.before hl.row
  early := by
    rw [hl.clock]
    exact Nat.lt_succ_of_lt h.early
  after c hc hlt := by
    rcases hl.saves c hc with hc | hnew
    · exact h.after c hc hlt
    · rw [hnew] at hlt
      exact absurd h.early (Nat.not_lt.mpr (Nat.le_of_lt hlt))

/-- No step in order disturbs what another request knows. -/
theorem AccessAssertion.later {j : ι} {κ : AccessCall}
    (h : AccessAssertion jwt user requests j db κ) (hl : db.Later db') :
    AccessAssertion jwt user requests j db' κ := by
  have hclock : ∀ {n}, n < db.clock → n < db'.clock := by
    intro n hn
    rw [hl.clock]
    exact Nat.lt_succ_of_lt hn
  cases κ with
  | start | stamped _ | done => trivial
  | loaded snapshot step => exact (show db.ReadAt snapshot step from h).later hl
  | saved change => exact hl.saves_subset change h
  | invalidated change => exact hl.completed_subset change h
  | missed claims startedAt time => exact ⟨hclock h.1, h.2⟩
  | read claims startedAt time snapshot step => exact ⟨h.1, h.2.1.later hl, h.2.2⟩
  | decided startedAt time result =>
    obtain ⟨hstart, token, snapshot, hr, hresult, hbefore, hafter⟩ := h
    refine ⟨hclock hstart, token, snapshot, hr, hresult, Nat.le_trans hbefore hl.row, ?_⟩
    intro c hc hlt
    rcases hl.completed c hc with hc | hnew
    · exact hafter c hc hlt
    · rw [hnew] at hlt
      exact absurd hstart (Nat.not_lt.mpr (Nat.le_of_lt hlt))

/-! ### The operations keep the invariant -/

theorem AuthUser.Later.of_same (hrow : db'.passwordChangedAt = db.passwordChangedAt)
    (hsaves : db'.saves = db.saves) (hcompleted : db'.completed = db.completed)
    (hclock : db'.clock = db.clock + 1) : db.Later db' where
  row := Nat.le_of_eq (by rw [hrow])
  clock := hclock
  saves c hc := Or.inl (hsaves ▸ hc)
  completed c hc := Or.inl (hcompleted ▸ hc)
  saves_subset c hc := hsaves ▸ hc
  completed_subset c hc := hcompleted ▸ hc

theorem AuthUser.later_save {stamp : Micros} (h : pwdSecond db.passwordChangedAt < second stamp) :
    db.Later (db.save stamp) where
  row := Nat.le_of_lt h
  clock := rfl
  saves c hc := by
    rcases List.mem_append.mp hc with hc | hc
    · exact Or.inl hc
    · obtain rfl := List.mem_singleton.mp hc
      exact Or.inr rfl
  completed c hc := Or.inl hc
  saves_subset c hc := List.mem_append_left _ hc
  completed_subset c hc := hc

theorem AuthUser.later_complete (db : AuthUser τ) (change : PasswordSave) :
    db.Later (db.complete change) where
  row := Nat.le_refl _
  clock := rfl
  saves c hc := Or.inl hc
  completed c hc := by
    rcases List.mem_append.mp hc with hc | hc
    · exact Or.inl hc
    · obtain rfl := List.mem_singleton.mp hc
      exact Or.inr rfl
  saves_subset c hc := hc
  completed_subset c hc := List.mem_append_left _ hc

/-- A statement on the cache. -/
theorem AuthUser.Ordered.of_cache (h : db.Ordered jwt user)
    {cache : Option (Option Micros × Micros)}
    (hcache : ∀ snapshot expiresAt, cache = some (snapshot, expiresAt) →
      pwdSecond snapshot ≤ pwdSecond db.passwordChangedAt ∧
        ∀ c ∈ db.completed, second c.stamp ≤ pwdSecond snapshot) :
    AuthUser.Ordered jwt user { db with cache, clock := db.clock + 1 } where
  saved c hc := ⟨Nat.lt_succ_of_lt (h.saved c hc).1, (h.saved c hc).2⟩
  mono := h.mono
  latest := h.latest
  completed c hc := ⟨(h.completed c hc).1, Nat.lt_succ_of_lt (h.completed c hc).2⟩
  cache := hcache
  issues t ht :=
    have hi := h.issues t ht
    ⟨hi.token, hi.before, Nat.lt_succ_of_lt hi.early, hi.change, hi.revoked, hi.kept⟩

/-- An issue from a user that is no older than the completed changes. -/
theorem AuthUser.Ordered.issue (h : db.Ordered jwt user) {snapshot : Option Micros} {now : Micros}
    {change : Option CompletedChange}
    (hbefore : pwdSecond snapshot ≤ pwdSecond db.passwordChangedAt)
    (hchange : ∀ c, change = some c → c ∈ db.completed)
    (hafter : ∀ c ∈ db.completed, second c.stamp ≤ pwdSecond snapshot) :
    (db.issue jwt user snapshot now change).Ordered jwt user where
  saved c hc := ⟨Nat.lt_succ_of_lt (h.saved c hc).1, (h.saved c hc).2⟩
  mono := h.mono
  latest := h.latest
  completed c hc := ⟨(h.completed c hc).1, Nat.lt_succ_of_lt (h.completed c hc).2⟩
  cache := h.cache
  issues t ht := by
    rcases List.mem_append.mp ht with ht | ht
    · have hi := h.issues t ht
      exact ⟨hi.token, hi.before, Nat.lt_succ_of_lt hi.early, hi.change, hi.revoked, hi.kept⟩
    · obtain rfl := List.mem_singleton.mp ht
      refine ⟨⟨snapshot, rfl, rfl⟩, hbefore, Nat.lt_succ_self _, hchange, ?_,
        fun c hc _ => hafter c hc⟩
      intro c hc hlt
      exact absurd (h.saved c hc).1 (Nat.not_lt.mpr (Nat.le_of_lt hlt))

theorem AuthUser.Ordered.save (h : db.Ordered jwt user) {stamp : Micros}
    (hlt : pwdSecond db.passwordChangedAt < second stamp) : (db.save stamp).Ordered jwt user where
  saved c hc := by
    rcases List.mem_append.mp hc with hc | hc
    · obtain ⟨hstep, hrow⟩ := h.saved c hc
      exact ⟨Nat.lt_succ_of_lt hstep, Nat.le_trans hrow (Nat.le_of_lt hlt)⟩
    · obtain rfl := List.mem_singleton.mp hc
      exact ⟨Nat.lt_succ_self _, Nat.le_refl _⟩
  mono c hc c' hc' hle := by
    rcases List.mem_append.mp hc with hc | hc <;> rcases List.mem_append.mp hc' with hc' | hc'
    · exact h.mono c hc c' hc' hle
    · obtain rfl := List.mem_singleton.mp hc'
      exact Nat.le_trans (h.saved c hc).2 (Nat.le_of_lt hlt)
    · obtain rfl := List.mem_singleton.mp hc
      exact absurd (h.saved c' hc').1 (Nat.not_lt.mpr hle)
    · obtain rfl := List.mem_singleton.mp hc
      obtain rfl := List.mem_singleton.mp hc'
      exact Nat.le_refl _
  latest c hc hlast := by
    rcases List.mem_append.mp hc with hc | hc
    · -- the new save is later
      have hle := hlast ⟨stamp, db.clock⟩ (List.mem_append_right _ (List.mem_singleton.mpr rfl))
      exact absurd (h.saved c hc).1 (Nat.not_lt.mpr hle)
    · obtain rfl := List.mem_singleton.mp hc
      rfl
  completed c hc :=
    ⟨List.mem_append_left _ (h.completed c hc).1, Nat.lt_succ_of_lt (h.completed c hc).2⟩
  cache snapshot expiresAt hcache := by
    obtain ⟨hrow, hafter⟩ := h.cache snapshot expiresAt hcache
    exact ⟨Nat.le_trans hrow (Nat.le_of_lt hlt), hafter⟩
  issues t ht := by
    have hi := h.issues t ht
    refine ⟨hi.token, Nat.le_trans hi.before (Nat.le_of_lt hlt), Nat.lt_succ_of_lt hi.early,
      hi.change, ?_, hi.kept⟩
    intro c hc hstep
    rcases List.mem_append.mp hc with hc | hc
    · exact hi.revoked c hc hstep
    · obtain rfl := List.mem_singleton.mp hc
      exact Nat.lt_of_le_of_lt hi.before hlt

theorem AuthUser.Ordered.complete (h : db.Ordered jwt user) {change : PasswordSave}
    (hchange : change ∈ db.saves) : (db.complete change).Ordered jwt user where
  saved c hc := ⟨Nat.lt_succ_of_lt (h.saved c hc).1, (h.saved c hc).2⟩
  mono := h.mono
  latest := h.latest
  completed c hc := by
    rcases List.mem_append.mp hc with hc | hc
    · exact ⟨(h.completed c hc).1, Nat.lt_succ_of_lt (h.completed c hc).2⟩
    · obtain rfl := List.mem_singleton.mp hc
      exact ⟨hchange, Nat.lt_succ_self _⟩
  cache := nofun
  issues t ht := by
    have hi := h.issues t ht
    refine ⟨hi.token, hi.before, Nat.lt_succ_of_lt hi.early,
      fun c hc => List.mem_append_left _ (hi.change c hc), hi.revoked, ?_⟩
    intro c hc hby
    rcases List.mem_append.mp hc with hc | hc
    · exact hi.kept c hc hby
    · -- a token that is there already was not issued by the change, nor after it
      obtain rfl := List.mem_singleton.mp hc
      rcases hby with hby | hlt
      · exact absurd (h.completed _ (hi.change _ hby)).2 (Nat.lt_irrefl _)
      · exact absurd hi.early (Nat.not_lt.mpr (Nat.le_of_lt hlt))

/-- What the cache holds was read before now. -/
theorem AuthUser.Ordered.cached (h : db.Ordered jwt user) {snapshot : Option Micros} {now : Micros}
    (hc : db.cached now = some snapshot) :
    pwdSecond snapshot ≤ pwdSecond db.passwordChangedAt ∧
      ∀ c ∈ db.completed, second c.stamp ≤ pwdSecond snapshot := by
  obtain ⟨⟨snapshot', expiresAt⟩, hentry, rfl⟩ := Option.map_eq_some_iff.mp hc
  obtain ⟨hcache, -⟩ := Option.filter_eq_some_iff.mp hentry
  exact h.cache snapshot' expiresAt hcache

/-! ### Steps in order -/

theorem AccessStep.later {r : AccessRequest τ} {now : Micros} {κ κ' : AccessCall} {i : ι}
    (h : AccessStep jwt user r now db db' κ κ') (hC : SnapshotsInOrder i db κ now) :
    db.Later db' := by
  cases h with
  | save stamp hκ hdb _ =>
    subst hκ hdb
    exact AuthUser.later_save hC
  | complete change _ hdb _ =>
    subst hdb
    exact db.later_complete change
  | load hdb _ | stamp hdb _ | delete hdb _ =>
    subst hdb
    exact .of_same rfl rfl rfl rfl
  | issue _ _ _ hdb _ | answer _ _ hdb _ | miss _ _ _ _ hdb _ =>
    subst hdb
    exact .of_same rfl rfl rfl rfl
  | refuse _ _ _ _ hdb _ | read _ _ _ _ hdb _ =>
    subst hdb
    exact .of_same rfl rfl rfl rfl
  | hit _ _ _ _ _ _ hdb _ | fill _ _ _ _ _ _ hdb _ =>
    subst hdb
    exact .of_same rfl rfl rfl rfl

/-- The row as it is now. -/
theorem AuthUser.Ordered.readAt (h : db.Ordered jwt user) :
    db.tick.ReadAt db.passwordChangedAt db.clock :=
  ⟨Nat.le_refl _, Nat.lt_succ_self _, fun c hc _ => (h.saved c hc).2⟩

theorem AuthUser.Ordered.tick (h : db.Ordered jwt user) : db.tick.Ordered jwt user :=
  h.of_cache h.cache

/-- A step in order keeps the invariant, and what its request knows. -/
theorem AccessStep.own {now : Micros} {κ κ' : AccessCall} {i : ι} (hG : db.Ordered jwt user)
    (hL : AccessAssertion jwt user requests i db κ)
    (h : AccessStep jwt user (requests i) now db db' κ κ') (hC : SnapshotsInOrder i db κ now) :
    db'.Ordered jwt user ∧ AccessAssertion jwt user requests i db' κ' := by
  cases h with
  | load hdb hκ' =>
    subst hdb hκ'
    exact ⟨hG.tick, hG.readAt⟩
  | issue snapshot step hκ hdb hκ' =>
    subst hκ hdb hκ'
    have hread : db.ReadAt snapshot step := hL
    exact ⟨hG.issue hread.before nofun
      fun c hc => hread.after c.toPasswordSave (hG.completed c hc).1 (hC c hc), trivial⟩
  | stamp hdb hκ' =>
    subst hdb hκ'
    exact ⟨hG.tick, trivial⟩
  | save stamp hκ hdb hκ' =>
    subst hκ hdb hκ'
    exact ⟨hG.save hC, List.mem_append_right _ (List.mem_singleton.mpr rfl)⟩
  | complete change hκ hdb hκ' =>
    subst hκ hdb hκ'
    exact ⟨hG.complete hL, List.mem_append_right _ (List.mem_singleton.mpr rfl)⟩
  | answer change hκ hdb hκ' =>
    subst hκ hdb hκ'
    have hmem : change ∈ db.completed := hL
    have hsaved := (hG.completed change hmem).1
    refine ⟨hG.issue (hG.saved _ hsaved).2 ?_ fun c hc => ?_, trivial⟩
    · rintro c ⟨rfl⟩
      exact hmem
    · exact hG.mono _ (hG.completed c hc).1 _ hsaved (hC c hc)
  | refuse token e hr he hdb hκ' =>
    subst hdb hκ'
    refine ⟨hG.tick, Nat.lt_succ_self _, token, db.passwordChangedAt, hr, ?_, Nat.le_refl _, ?_⟩
    · rw [he]
      rfl
    · exact fun c hc _ => (hG.saved _ (hG.completed c hc).1).2
  | hit token claims snapshot hr hclaims hcached hdb hκ' =>
    subst hdb hκ'
    obtain ⟨hrow, hafter⟩ := hG.cached hcached
    refine ⟨hG.tick, Nat.lt_succ_self _, token, snapshot, hr, ?_, hrow, fun c hc _ => hafter c hc⟩
    rw [hclaims]
    rfl
  | miss token claims hr hclaims hdb hκ' =>
    subst hdb hκ'
    exact ⟨hG.tick, Nat.lt_succ_self _, token, hr, hclaims⟩
  | read claims startedAt time hκ hdb hκ' =>
    subst hκ hdb hκ'
    exact ⟨hG.tick, hL.1, hG.readAt, hL.2⟩
  | fill claims startedAt time snapshot step hκ hdb hκ' =>
    subst hκ hdb hκ'
    obtain ⟨hstart, hread, token, hr, hclaims⟩ := hL
    -- no completed change is later than the snapshot
    have hafter : ∀ c ∈ db.completed, second c.stamp ≤ pwdSecond snapshot := fun c hc =>
      hread.after c.toPasswordSave (hG.completed c hc).1 (hC c hc)
    refine ⟨hG.of_cache ?_, ?_, token, snapshot, hr, ?_, hread.before, fun c hc _ => hafter c hc⟩
    · rintro _ _ ⟨rfl⟩
      exact ⟨hread.before, hafter⟩
    · exact Nat.lt_succ_of_lt (Nat.lt_trans hstart hread.early)
    · rw [hclaims]
      rfl
  | delete hdb hκ' =>
    subst hdb hκ'
    exact ⟨hG.of_cache nofun, trivial⟩

/-! ### The decisions -/

/-- What the library verifies is the payload of the issue. -/
theorem checkToken_issued (hjwt : jwt.Verifies) {t : TokenIssue τ} (ht : db.Issued jwt user t)
    {time : Micros} {claims : AccessClaims}
    (h : checkToken jwt user t.token time = .ok claims) : claims.pwdIat.getD 0 = t.pwdIat := by
  obtain ⟨snapshot, hsecond, htoken⟩ := ht.token
  unfold checkToken at h
  rcases hd : jwt.decode t.token time with e | claims' <;> rw [hd] at h
  · cases e <;> cases h
  · have hclaims : claims' = (accessPayload user snapshot t.time).claims := by
      rw [htoken] at hd
      exact hjwt.claims_eq _ _ _ hd
    subst hclaims
    have : (AccessPayload.claims (accessPayload user snapshot t.time)) = claims := by
      simpa [AccessPayload.claims, accessPayload] using h
    rw [← this, ← hsecond]
    rfl

/-- An issued token passes the checks until it expires. -/
theorem checkToken_ok (hjwt : jwt.Verifies) {t : TokenIssue τ} (ht : db.Issued jwt user t)
    {time : Micros} (hiat : t.time ≤ time)
    (hexp : time < second (t.time + accessTokenMicros) * 1000000) :
    ∃ claims, checkToken jwt user t.token time = .ok claims := by
  obtain ⟨snapshot, -, htoken⟩ := ht.token
  have hd := hjwt.decode_ok (accessPayload user snapshot t.time) time
    (Nat.div_le_div_right hiat) hexp
  refine ⟨(accessPayload user snapshot t.time).claims, ?_⟩
  unfold checkToken
  rw [htoken, hd]
  simp [AccessPayload.claims, accessPayload]

theorem revokedByChange_of_inv (hjwt : jwt.Verifies) {s : AccessSystem τ ι}
    (h : Interleaving.Inv (AuthUser.Ordered jwt user) (AccessAssertion jwt user requests) s) :
    RevokedByChange requests s where
  rejects i token startedAt time result hr hi c hc hstart t ht htoken hstep := by
    have hL := h.procs i
    rw [hi] at hL
    obtain ⟨-, token', snapshot, hr', hresult, -, hafter⟩ := hL
    obtain rfl := AccessRequest.authenticate.inj (hr.symm.trans hr')
    subst htoken
    have hissued := h.shared.issues t ht
    rintro rfl
    rcases hclaims : checkToken jwt user t.token time with e | claims <;> rw [hclaims] at hresult
    · cases hresult
    · -- the token says an earlier second than the change, the snapshot none earlier
      have hlt : claims.pwdIat.getD 0 < pwdSecond snapshot := by
        rw [checkToken_issued hjwt hissued hclaims]
        exact Nat.lt_of_lt_of_le (hissued.revoked _ (h.shared.completed c hc).1 hstep)
          (hafter c hc hstart)
      have : checkPwdIat claims snapshot = .error .tokenRevoked := if_pos hlt
      rw [show (Except.ok claims >>= fun claims => checkPwdIat claims snapshot)
        = checkPwdIat claims snapshot from rfl, this] at hresult
      cases hresult
  accepts i token startedAt time result hr hi c hc hlatest t ht htoken hby hiat hexp := by
    have hL := h.procs i
    rw [hi] at hL
    obtain ⟨-, token', snapshot, hr', hresult, hbefore, -⟩ := hL
    obtain rfl := AccessRequest.authenticate.inj (hr.symm.trans hr')
    subst htoken
    have hissued := h.shared.issues t ht
    obtain ⟨claims, hclaims⟩ := checkToken_ok hjwt hissued hiat hexp
    rw [hclaims] at hresult
    -- the token says no earlier second than the latest change, which is the row's
    have hrow := h.shared.latest _ (h.shared.completed c hc).1 hlatest
    have hle : ¬ claims.pwdIat.getD 0 < pwdSecond snapshot := by
      rw [checkToken_issued hjwt hissued hclaims, Nat.not_lt]
      calc pwdSecond snapshot ≤ pwdSecond s.shared.passwordChangedAt := hbefore
        _ = second c.stamp := by rw [hrow]; rfl
        _ ≤ t.pwdIat := hissued.kept c hc hby
    rw [hresult]
    exact if_neg hle

variable [DecidableEq ι]

/-- **A password change revokes the access tokens issued before it and no
other**, over every run in which changes stamp later seconds and no older user
outlives a complete change in the cache or in a token. -/
theorem password_change_revokes (hjwt : jwt.Verifies) (user : User)
    (requests : ι → AccessRequest τ) (passwordChangedAt : Option Micros) (ls : List (ι × Micros))
    (hC : Runs.EachStep (Interleaving.step (accessAct jwt user requests))
      (fun s l => SnapshotsInOrder l.1 s.shared (s.procs l.1) l.2)
      (accessInit τ ι passwordChangedAt) ls) :
    Runs.Always (Interleaving.step (accessAct jwt user requests)) (RevokedByChange requests)
      (accessInit τ ι passwordChangedAt) ls := by
  have hinit : Interleaving.Inv (AuthUser.Ordered jwt user) (AccessAssertion jwt user requests)
      (accessInit τ ι passwordChangedAt) :=
    ⟨⟨nofun, nofun, nofun, nofun, nofun, nofun⟩, fun _ => trivial⟩
  have hown : ∀ i db κ now db' κ', AuthUser.Ordered jwt user db →
      AccessAssertion jwt user requests i db κ → SnapshotsInOrder i db κ now →
      accessAct jwt user requests i db κ now = some (db', κ') →
      AuthUser.Ordered jwt user db' ∧ AccessAssertion jwt user requests i db' κ' :=
    fun i db κ now db' κ' hG hL hC hact => (accessAct_cases hact).own hG hL hC
  have hother : ∀ i db κ now db' κ', AuthUser.Ordered jwt user db →
      AccessAssertion jwt user requests i db κ → SnapshotsInOrder i db κ now →
      accessAct jwt user requests i db κ now = some (db', κ') →
      ∀ j κⱼ, j ≠ i → AccessAssertion jwt user requests j db κⱼ →
        AccessAssertion jwt user requests j db' κⱼ :=
    fun i db κ now db' κ' _ _ hC hact j κⱼ _ hj => hj.later ((accessAct_cases hact).later hC)
  exact (Interleaving.always_inv_of hown hother hinit hC).mono fun s hs =>
    revokedByChange_of_inv hjwt hs

/-! ### A snapshot that outlives a change -/

/-- A library whose tokens are the payloads. -/
def plainJwt : Jwt AccessPayload where
  encode := id
  decode p now :=
    if p.exp * 1000000 ≤ now then .error .expiredSignature
    else if second now < p.iat then .error .invalidToken
    else .ok p.claims

theorem plainJwt_verifies : plainJwt.Verifies where
  decode_ok p now hiat hexp := by
    show (if p.exp * 1000000 ≤ now then _ else if second now < p.iat then _ else _) = _
    rw [if_neg (Nat.not_le.mpr hexp), if_neg (Nat.not_lt.mpr hiat)]
    rfl
  claims_eq p now claims h := by
    have h' : (if p.exp * 1000000 ≤ now then Except.error JwtError.expiredSignature
      else if second now < p.iat then .error .invalidToken else .ok p.claims)
        = Except.ok claims := h
    split at h'
    · cases h'
    · split at h'
      · cases h'
      · exact (Except.ok.inj h').symm

def annTokens : User := ⟨1, "ann@acme.io"⟩

/-- The token that a login issues in the first second. -/
def annToken : AccessPayload := accessPayload annTokens none 1000000

/-- A login, a request with its token, a change, and another request. -/
def changeDuringRequest : Fin 4 → AccessRequest AccessPayload
  | 0 => .issue
  | 1 => .authenticate annToken
  | 2 => .changePassword
  | 3 => .authenticate annToken

/-- The change completes before the first request begins. -/
def changeThenRequest : List (Fin 4 × Micros) :=
  [(0, 1000000), (0, 1000000), (2, 3000000), (2, 3000000), (2, 3000000), (2, 3000000),
   (1, 4000000), (1, 4000000), (1, 4000000), (3, 5000000)]

/-- The first request reads the row before the change and fills the cache after it. -/
def fillAfterChange : List (Fin 4 × Micros) :=
  [(0, 1000000), (0, 1000000), (1, 2000000), (1, 2000000), (2, 3000000), (2, 3000000),
   (2, 3000000), (1, 4000000), (3, 5000000)]

theorem password_change_revokes_ann :
    Runs.Always (Interleaving.step (accessAct plainJwt annTokens changeDuringRequest))
      (RevokedByChange changeDuringRequest) (accessInit AccessPayload (Fin 4) none)
      changeThenRequest :=
  password_change_revokes plainJwt_verifies annTokens changeDuringRequest none changeThenRequest
    (by decide)

/-- A request accepts the token two seconds after the change. -/
theorem fill_outlives_change :
    ((Runs.run (Interleaving.step (accessAct plainJwt annTokens changeDuringRequest))
        (accessInit AccessPayload (Fin 4) none) fillAfterChange).map fun s =>
          (s.shared.completed, s.shared.issues, s.procs 3)) =
      some ([⟨⟨3000000, 5⟩, 6⟩], [⟨annToken, 0, 1000000, 1, none⟩],
        .decided 8 5000000 (.ok ())) ∧
    ¬ Runs.Always (Interleaving.step (accessAct plainJwt annTokens changeDuringRequest))
      (RevokedByChange changeDuringRequest) (accessInit AccessPayload (Fin 4) none)
      fillAfterChange := by
  have hrun : ((Runs.run (Interleaving.step (accessAct plainJwt annTokens changeDuringRequest))
        (accessInit AccessPayload (Fin 4) none) fillAfterChange).map fun s =>
          (s.shared.completed, s.shared.issues, s.procs 3)) =
      some ([⟨⟨3000000, 5⟩, 6⟩], [⟨annToken, 0, 1000000, 1, none⟩],
        .decided 8 5000000 (.ok ())) := by decide
  refine ⟨hrun, fun h => ?_⟩
  obtain ⟨s, hs, hlast⟩ := Option.map_eq_some_iff.mp hrun
  obtain ⟨hcompleted, hrest⟩ := Prod.mk.inj hlast
  obtain ⟨hissues, hdecided⟩ := Prod.mk.inj hrest
  refine (h.last hs).rejects 3 annToken 8 5000000 (.ok ()) rfl hdecided ⟨⟨3000000, 5⟩, 6⟩ ?_
    (by decide) ⟨annToken, 0, 1000000, 1, none⟩ ?_ rfl (by decide) rfl
  · rw [hcompleted]
    exact List.mem_singleton.mpr rfl
  · rw [hissues]
    exact List.mem_singleton.mpr rfl

end Saasmint
