/-
Saasmint/Users/Navigations.lean

The navigations of one browser: its cookie jar, the proxy of the app
(src/proxy.ts) and the rotation of the backend (`rotate_refresh_token`), any
number of requests at a time.

A request carries the cookies that the jar had when it was sent.  The proxy
refreshes where the access token is missing or about to expire, the backend
rotates one call at a time, and the answer sets or deletes the cookies when it
arrives.  Requests that overlap so that two of them refresh with one token are
what the reuse detection of the backend takes for theft: the session is kept
exactly where each token is refreshed with once (`parallel_navigations`).
-/
import Mathlib.Data.Fintype.Basic
import Mathlib.Data.List.Sort
import Saasmint.Users.Sessions

namespace Saasmint

/-! ### The rotation as one call -/

/-- `rotate_refresh_token`: the tables after it, and the new raw token. -/
def AuthTables.rotateRefreshToken (t : AuthTables) (token : Token) (now : Timestamp) :
    AuthTables × Except AuthError Token :=
  match t.refreshToken token with
  | none => (t, .error .invalidToken)
  | some rt =>
    if rt.revokedAt.isSome then (t.revokeAllRefreshTokens rt.user now, .error .tokenRevoked)
    else if rt.expiresAt ≤ now then (t, .error .tokenExpired)
    else match t.account rt.user with
      | none => (t, .error .invalidToken)
      | some user =>
        if user.isActive then
          ((t.saveRevokedAt rt.token now).createRefreshToken rt.user now, .ok t.nextToken)
        else (t, .error .userNotFound)

/-! ### The proxy -/

def accessTokenLifetime : Timestamp := 15 * 60

/-- The access token of a cookie, by the `exp` that its payload has. -/
structure AccessToken where
  exp : Option Timestamp
  deriving DecidableEq, Repr

structure Cookies where
  access : Option AccessToken
  refresh : Option Token
  deriving DecidableEq, Repr

def locales : List String :=
  ["en", "es", "fr", "de", "pt-BR", "it", "ja", "zh-CN", "nl", "ar", "ko", "ru", "pl", "tr", "sv",
   "id", "zh-TW", "da", "nb", "pt-PT"]

def startsWith (s p : String) : Bool := p.toList.isPrefixOf s.toList

/-- The locales, the longest first. -/
def localesByLengthDesc : List String := locales.insertionSort fun a b => b.length ≤ a.length

def stripLocalePrefix (pathname : String) : String :=
  match localesByLengthDesc.find? fun l =>
      startsWith pathname ("/" ++ l ++ "/") || pathname = "/" ++ l with
  | none => pathname
  | some locale =>
    let stripped := pathname.toList.drop (locale.length + 1)
    if stripped = [] then "/" else String.ofList stripped

def protectedPrefixes : List String :=
  ["/dashboard", "/subscription", "/profile", "/org", "/admin", "/feature1", "/feature2"]

def anonymousPrefixes : List String :=
  ["/login", "/signup", "/forgot-password", "/reset-password", "/verify-email", "/auth/callback",
   "/auth/error", "/invitations"]

def needsUser (pathnameWithoutLocale : String) : Bool :=
  !anonymousPrefixes.any (startsWith pathnameWithoutLocale)

/-- An access token counts as expired 30 seconds early. -/
def isTokenExpired (now : Timestamp) (token : AccessToken) : Bool :=
  match token.exp with
  | none => true
  | some exp => decide (exp < now + 30)

/-- The token that the proxy refreshes with, where `shouldRefresh`. -/
def tokenToRefresh (pathname : String) (c : Cookies) (now : Timestamp) : Option Token :=
  if needsUser (stripLocalePrefix pathname) && c.access.all (isTokenExpired now) then c.refresh
  else none

/-- What the fetch of the refresh endpoint comes to. -/
inductive RefreshResult
  | ok (access : AccessToken) (refresh : Token)
  /-- A body without the two tokens. -/
  | malformed
  | rejected (e : AuthError)
  | unreachable
  deriving DecidableEq, Repr

/-- The response of RefreshView. -/
def refreshResult (now : Timestamp) : Except AuthError Token → RefreshResult
  | .ok token => .ok ⟨some (now + accessTokenLifetime)⟩ token
  | .error e => .rejected e

/-- What a response does to the cookies. -/
inductive CookieChange
  | keep
  | set (access : AccessToken) (refresh : Token)
  | delete
  deriving DecidableEq, Repr

structure ProxyResponse where
  /-- The redirect to the login page. -/
  redirect : Bool
  cookies : CookieChange
  deriving DecidableEq, Repr

def RefreshResult.failed : RefreshResult → Bool
  | .malformed | .rejected _ => true
  | .ok _ _ | .unreachable => false

/-- The response of the proxy, given the refresh where there was one. -/
def proxyResponse (pathname : String) (c : Cookies) (now : Timestamp) :
    Option RefreshResult → ProxyResponse
  | some (.ok access refresh) => ⟨false, .set access refresh⟩
  | result =>
    let refreshRejected := result.any RefreshResult.failed
    let access := if refreshRejected then none else c.access
    if protectedPrefixes.any (startsWith (stripLocalePrefix pathname))
        && access.all (isTokenExpired now) then
      ⟨true, .keep⟩
    else ⟨false, if refreshRejected then .delete else .keep⟩

/-- Without a refresh the cookies stay. -/
theorem proxyResponse_none (pathname : String) (c : Cookies) (now : Timestamp) :
    (proxyResponse pathname c now none).cookies = .keep := by
  unfold proxyResponse
  simp only [Option.any_none, Bool.false_eq_true, if_false]
  split <;> rfl

def Cookies.apply (c : Cookies) : CookieChange → Cookies
  | .keep => c
  | .set access refresh => ⟨some access, some refresh⟩
  | .delete => ⟨none, none⟩

/-- A response sets the cookies that the refresh has brought. -/
theorem proxyResponse_set {pathname : String} {c : Cookies} {now : Timestamp}
    {result : Option RefreshResult} {access : AccessToken} {token : Token}
    (h : (proxyResponse pathname c now result).cookies = .set access token) :
    result = some (.ok access token) := by
  unfold proxyResponse at h
  split at h
  · cases h
    rfl
  · dsimp only at h
    split at h
    · split at h <;> cases h
    · split at h <;> cases h

theorem Cookies.refresh_apply {c : Cookies} {change : CookieChange} {token : Token}
    (h : (c.apply change).refresh = some token) :
    c.refresh = some token ∨ ∃ access, change = .set access token := by
  cases change with
  | keep => exact Or.inl h
  | set access t =>
    cases h
    exact Or.inr ⟨access, rfl⟩
  | delete => cases h

/-! ### The browser and the backend -/

/-- The tables of the backend, the jar, and the time of the last step. -/
structure Web where
  tables : AuthTables
  jar : Cookies
  clock : Timestamp
  deriving DecidableEq, Repr

/-- Where a request of the browser is. -/
inductive Navigation
  | idle
  | sent (cookies : Cookies)
  /-- The proxy has called the refresh endpoint. -/
  | refreshing (cookies : Cookies) (token : Token)
  /-- The backend has answered, where it was called. -/
  | answered (cookies : Cookies) (refresh : Option (Token × RefreshResult))
  /-- The response has arrived; `presented` is what the proxy refreshed with. -/
  | arrived (presented : Option Token) (redirected : Bool)
  deriving DecidableEq, Repr

/-- What a step gets from outside: the time, and whether the cookie of the
access token has run out. -/
structure NavigationInput where
  now : Timestamp
  lapsed : Bool
  deriving DecidableEq, Repr

variable {ι : Type*}

/-- A step of the navigation `i` to `pathname i`. -/
def navigate (pathname : ι → String) (i : ι) (w : Web) (n : Navigation) (input : NavigationInput) :
    Option (Web × Navigation) :=
  let now := input.now
  match n with
  | .idle =>
    let jar := if input.lapsed then { w.jar with access := none } else w.jar
    some ({ w with jar, clock := now }, .sent jar)
  | .sent c =>
    match tokenToRefresh (pathname i) c now with
    | some token => some ({ w with clock := now }, .refreshing c token)
    | none => some ({ w with clock := now }, .answered c none)
  | .refreshing c token =>
    let (tables, result) := w.tables.rotateRefreshToken token now
    some ({ w with tables, clock := now }, .answered c (some (token, refreshResult now result)))
  | .answered c refresh =>
    let response := proxyResponse (pathname i) c now (refresh.map Prod.snd)
    some ({ w with jar := w.jar.apply response.cookies, clock := now },
      .arrived (refresh.map Prod.fst) response.redirect)
  | .arrived _ _ => none

abbrev Browser (ι : Type*) := Interleaving.State ι Web Navigation

def browserInit (ι : Type*) (w : Web) : Browser ι := ⟨w, fun _ => .idle⟩

/-! ### What is claimed -/

/-- The navigation waits for nothing. -/
def Navigation.Done : Navigation → Bool
  | .idle | .arrived _ _ => true
  | _ => false

/-- The token that the proxy has refreshed with. -/
def Navigation.presented : Navigation → Option Token
  | .refreshing _ token => some token
  | .answered _ refresh => refresh.map Prod.fst
  | .arrived presented _ => presented
  | _ => none

/-- The session is kept: no refresh is answered as reuse, which is where the
backend revokes all of the user's tokens, and once nothing is under way the jar
has a live token. -/
structure SessionKept (s : Browser ι) : Prop where
  noReuse : ∀ i c t, s.procs i ≠ .answered c (some (t, .rejected .tokenRevoked))
  live : (∀ i, (s.procs i).Done = true) →
    ∃ rt ∈ s.shared.tables.refreshTokens, s.shared.jar.refresh = some rt.token ∧
      rt.isValid s.shared.clock = true

/-- The step does not refresh with a token that another navigation has
refreshed with. -/
def FirstRefresh (pathname : ι → String) (s : Browser ι) (l : ι × NavigationInput) : Prop :=
  ∀ c t, s.procs l.1 = .sent c → tokenToRefresh (pathname l.1) c l.2.now = some t →
    ∀ j, (s.procs j).presented ≠ some t

instance [Fintype ι] (pathname : ι → String) (s : Browser ι) (l : ι × NavigationInput) :
    Decidable (FirstRefresh pathname s l) :=
  match h : s.procs l.1 with
  | .sent c =>
    decidable_of_iff (∀ t ∈ tokenToRefresh (pathname l.1) c l.2.now,
        ∀ j, (s.procs j).presented ≠ some t) (by
      constructor
      · intro hall c' t hi ht
        obtain rfl := Navigation.sent.inj (h.symm.trans hi)
        exact hall t ht
      · exact fun hC t ht => hC c t h ht)
  | .idle | .refreshing _ _ | .answered _ _ | .arrived _ _ =>
    isTrue fun _ _ hi => by rw [h] at hi; cases hi

/-- The navigation was sent with the token, refreshes with it, or gets it. -/
def Navigation.Holds (n : Navigation) (t : Token) : Prop :=
  (∃ c, n = .sent c ∧ c.refresh = some t) ∨ (∃ c, n = .refreshing c t) ∨
    ∃ c old a, n = .answered c (some (old, .ok a t))

instance (n : Navigation) (t : Token) : Decidable (n.Holds t) :=
  match n with
  | .sent c => decidable_of_iff (c.refresh = some t) (by simp [Navigation.Holds])
  | .refreshing _ token => decidable_of_iff (token = t) (by simp [Navigation.Holds])
  | .answered _ (some (_, .ok _ token)) =>
    decidable_of_iff (token = t) (by simp [Navigation.Holds])
  | .idle | .answered _ none | .answered _ (some (_, .malformed))
  | .answered _ (some (_, .rejected _)) | .answered _ (some (_, .unreachable)) | .arrived _ _ =>
    isFalse (by simp [Navigation.Holds])

/-- A token that the browser has, or is about to get. -/
def Browser.Knows (s : Browser ι) (t : Token) : Prop :=
  s.shared.jar.refresh = some t ∨ ∃ i, (s.procs i).Holds t

/-- The tokens that the browser knows have not expired. -/
def InTime (s : Browser ι) (l : ι × NavigationInput) : Prop :=
  ∀ rt ∈ s.shared.tables.refreshTokens, s.Knows rt.token → rt.revokedAt = none →
    l.2.now < rt.expiresAt

instance [Fintype ι] (s : Browser ι) (t : Token) : Decidable (s.Knows t) :=
  inferInstanceAs (Decidable (_ ∨ _))

instance [Fintype ι] (s : Browser ι) (l : ι × NavigationInput) : Decidable (InTime s l) :=
  inferInstanceAs (Decidable (∀ rt ∈ s.shared.tables.refreshTokens, _))

/-- The browser starts with a live token of an active account. -/
structure Web.LiveSession (w : Web) : Prop where
  fresh : w.tables.FreshTokens
  live : ∃ rt ∈ w.tables.refreshTokens, w.jar.refresh = some rt.token ∧ rt.isValid w.clock = true ∧
    ∃ a, w.tables.account rt.user = some a ∧ a.isActive = true

/-! ### What a rotation does to the tables -/

/-- Tables that statements on refresh tokens have changed: a row stays, and
stays revoked, and what is new has a new token. -/
structure AuthTables.Advance (t t' : AuthTables) : Prop where
  fresh : t.FreshTokens → t'.FreshTokens
  next : t.nextToken ≤ t'.nextToken
  accounts : t'.accounts = t.accounts
  later : ∀ rt ∈ t'.refreshTokens, (∃ r ∈ t.refreshTokens, r.Later rt) ∨ t.nextToken ≤ rt.token
  row : ∀ r ∈ t.refreshTokens, ∃ rt ∈ t'.refreshTokens, r.Later rt

namespace AuthTables

variable {t t' t'' : AuthTables} {token : Token} {now : Timestamp}

theorem Advance.refl (t : AuthTables) : t.Advance t :=
  ⟨id, Nat.le_refl _, rfl, fun rt h => Or.inl ⟨rt, h, .refl rt⟩, fun r h => ⟨r, h, .refl r⟩⟩

theorem Advance.trans (h : t.Advance t') (h' : t'.Advance t'') : t.Advance t'' where
  fresh hf := h'.fresh (h.fresh hf)
  next := Nat.le_trans h.next h'.next
  accounts := h'.accounts.trans h.accounts
  later rt hrt := by
    rcases h'.later rt hrt with ⟨r', hr', hlater'⟩ | hnew
    · rcases h.later r' hr' with ⟨r, hr, hlater⟩ | hnew
      · exact Or.inl ⟨r, hr, hlater.trans hlater'⟩
      · right
        rw [hlater'.1]
        exact hnew
    · exact Or.inr (Nat.le_trans h.next hnew)
  row r hr := by
    obtain ⟨r', hr', hlater⟩ := h.row r hr
    obtain ⟨rt, hrt, hlater'⟩ := h'.row r' hr'
    exact ⟨rt, hrt, hlater.trans hlater'⟩

theorem advance_saveRevokedAt (t : AuthTables) (token : Token) (now : Timestamp) :
    t.Advance (t.saveRevokedAt token now) where
  fresh hf := hf.of_map (map_token_saveRevokedAt token) rfl
  next := Nat.le_refl _
  accounts := rfl
  later rt hrt := by
    obtain ⟨r, hr, hlater, -⟩ := later_of_saveRevokedAt hrt
    exact Or.inl ⟨r, hr, hlater⟩
  row r hr := by
    by_cases htoken : r.token = token
    · refine ⟨{ r with revokedAt := some now }, ?_, rfl, rfl, fun _ => by simp⟩
      exact mem_saveRevokedAt.mpr (Or.inr ⟨r, hr, htoken, rfl⟩)
    · exact ⟨r, mem_saveRevokedAt.mpr (Or.inl ⟨hr, htoken⟩), .refl r⟩

theorem advance_revokeWhere (t : AuthTables) (p : RefreshToken → Bool) (now : Timestamp) :
    t.Advance (t.revokeWhere p now) where
  fresh hf := hf.of_map (map_token_revokeWhere p) rfl
  next := Nat.le_refl _
  accounts := rfl
  later rt hrt := Or.inl (later_of_revokeWhere hrt)
  row r hr := by
    refine ⟨_, mem_revokeWhere.mpr ⟨r, hr, rfl⟩, ?_⟩
    split
    · exact ⟨rfl, rfl, fun _ => by simp⟩
    · exact .refl r

theorem advance_createRefreshToken (t : AuthTables) (user : UUID) (now : Timestamp) :
    t.Advance (t.createRefreshToken user now) where
  fresh hf := hf.createRefreshToken user now
  next := Nat.le_succ _
  accounts := rfl
  later rt hrt := by
    rcases mem_createRefreshToken.mp hrt with hrt | rfl
    · exact Or.inl ⟨rt, hrt, .refl rt⟩
    · exact Or.inr (Nat.le_refl _)
  row r hr := ⟨r, mem_createRefreshToken.mpr (Or.inl hr), .refl r⟩

theorem advance_rotateRefreshToken (t : AuthTables) (token : Token) (now : Timestamp) :
    t.Advance (t.rotateRefreshToken token now).1 := by
  unfold rotateRefreshToken
  split
  · exact .refl t
  · split
    · exact advance_revokeWhere t _ now
    · split
      · exact .refl t
      · split
        · exact .refl t
        · split
          · apply (advance_saveRevokedAt t _ now).trans
            exact advance_createRefreshToken _ _ now
          · exact .refl t

/-- The row of a token, where tokens are unique. -/
theorem FreshTokens.refreshToken_eq (h : t.FreshTokens) {rt : RefreshToken}
    (hrt : rt ∈ t.refreshTokens) : t.refreshToken rt.token = some rt := by
  have hunique : Table.Unique (fun r : RefreshToken => some r.token) t.refreshTokens :=
    Table.unique_some_iff.mpr h.unique
  refine (?_ : t.refreshToken rt.token = _).trans
    ((Table.find?_eq_some_iff hunique (a := rt) (v := rt.token)).mpr ⟨hrt, rfl⟩)
  show t.refreshTokens.find? _ = t.refreshTokens.find? _
  congr 1
  funext r
  simp

/-- A live token of an active account is rotated. -/
theorem FreshTokens.rotate_live (h : t.FreshTokens) {rt : RefreshToken}
    (hrt : rt ∈ t.refreshTokens) (hlive : rt.isValid now = true) {a : Account}
    (ha : t.account rt.user = some a) (hactive : a.isActive = true) :
    t.rotateRefreshToken rt.token now =
      ((t.saveRevokedAt rt.token now).createRefreshToken rt.user now, .ok t.nextToken) := by
  obtain ⟨hnone, hlt⟩ := RefreshToken.isValid_iff.mp hlive
  unfold rotateRefreshToken
  rw [h.refreshToken_eq hrt]
  simp [hnone, Int.not_le.mpr hlt, ha, hactive]

/-- The token that a rotation gives has a row, of an active account. -/
theorem rotateRefreshToken_ok {t : AuthTables} {new : Token}
    (h : (t.rotateRefreshToken token now).2 = .ok new) :
    ∃ rt ∈ (t.rotateRefreshToken token now).1.refreshTokens, rt.token = new ∧
      ∃ a, (t.rotateRefreshToken token now).1.account rt.user = some a ∧ a.isActive = true := by
  unfold rotateRefreshToken at h ⊢
  rcases hrt : t.refreshToken token with - | rt <;> rw [hrt] at h
  · cases h
  · dsimp only at h ⊢
    split at h
    · cases h
    · split at h
      · cases h
      · rename_i hlive hnow
        rcases ha : t.account rt.user with - | a <;> rw [ha] at h
        · cases h
        · dsimp only at h ⊢
          split at h
          · rename_i hactive
            obtain rfl := Except.ok.inj h
            rw [if_neg hlive, if_neg hnow, if_pos hactive]
            exact ⟨_, mem_createRefreshToken.mpr (Or.inr rfl), rfl, a, ha, hactive⟩
          · cases h

/-- A rotation finds reuse exactly where the row of its token is revoked. -/
theorem FreshTokens.rotate_reuse_iff (h : t.FreshTokens) {rt : RefreshToken}
    (hrt : rt ∈ t.refreshTokens) :
    (t.rotateRefreshToken rt.token now).2 = .error .tokenRevoked ↔ rt.revokedAt ≠ none := by
  unfold rotateRefreshToken
  rw [h.refreshToken_eq hrt]
  cases hrev : rt.revokedAt with
  | some r => simp [hrev]
  | none =>
    simp only [hrev, Option.isSome_none, Bool.false_eq_true, if_false, ne_eq, not_true, iff_false]
    split
    · simp
    · split
      · simp
      · split <;> simp

end AuthTables

/-! ### The rotation as one call, and as its statements -/

/-- What the SELECT finds decides what the rest of the call does. -/
theorem rotateRefreshToken_cases (t : AuthTables) (token : Token) (now : Timestamp) :
    (∃ rt, t.checkRefreshToken token now = .checked rt ∧ t.rotateRefreshToken token now =
      ((t.saveRevokedAt rt.token now).createRefreshToken rt.user now, .ok t.nextToken)) ∨
    (∃ user, t.checkRefreshToken token now = .reused user ∧ t.rotateRefreshToken token now =
      (t.revokeAllRefreshTokens user now, .error .tokenRevoked)) ∨
    ∃ e, t.checkRefreshToken token now = .failed e ∧
      t.rotateRefreshToken token now = (t, .error e) := by
  unfold AuthTables.rotateRefreshToken AuthTables.checkRefreshToken
  cases t.refreshToken token with
  | none => exact Or.inr (Or.inr ⟨_, rfl, rfl⟩)
  | some rt =>
    by_cases hrevoked : rt.revokedAt.isSome = true
    · exact Or.inr
        (Or.inl ⟨rt.user, by simp only [hrevoked, if_true], by simp only [hrevoked, if_true]⟩)
    · by_cases hexpired : rt.expiresAt ≤ now
      · refine Or.inr (Or.inr ⟨.tokenExpired, ?_, ?_⟩) <;> simp [hrevoked, hexpired]
      · rcases ha : t.account rt.user with - | user
        · refine Or.inr (Or.inr ⟨.invalidToken, ?_, ?_⟩) <;> simp [hrevoked, hexpired, ha]
        · by_cases hactive : user.isActive = true
          · refine Or.inl ⟨rt, ?_, ?_⟩ <;> simp [hrevoked, hexpired, ha, hactive]
          · refine Or.inr (Or.inr ⟨.userNotFound, ?_, ?_⟩) <;>
              simp [hrevoked, hexpired, ha, hactive]

/-- A refresh of which no other request disturbs the statements does what the
one call does. -/
theorem refresh_alone [DecidableEq ι] {requests : ι → SessionRequest} {i : ι} {token : Token}
    (hi : requests i = .refresh token) (db : SessionDb ι) {procs : ι → SessionCall}
    (hs : procs i = .start) (input : SessionInput) :
    ∃ n db' κ', Runs.run (Interleaving.step (sessionAct requests)) ⟨db, procs⟩
        (List.replicate n (i, input)) = some ⟨db', Function.update procs i κ'⟩ ∧
      db'.tables = (db.tables.rotateRefreshToken token input.now).1 ∧
      κ' = match (db.tables.rotateRefreshToken token input.now).2 with
        | .ok new => .refreshed new
        | .error e => .failed e := by
  have hfirst : sessionAct requests i db .start input =
      some (db.tick, db.tables.checkRefreshToken token input.now) := by
    unfold sessionAct
    rw [hi]
  -- the statements after the SELECT, as `run_alone` wants them
  let moves := fun x y : SessionDb ι × SessionCall => sessionAct requests i x.1 x.2 input = some y
  suffices h : ∃ db' κ', Relation.ReflTransGen moves
      (db.tick, db.tables.checkRefreshToken token input.now) (db', κ') ∧
      db'.tables = (db.tables.rotateRefreshToken token input.now).1 ∧
      κ' = match (db.tables.rotateRefreshToken token input.now).2 with
        | .ok new => .refreshed new
        | .error e => .failed e by
    obtain ⟨db', κ', hrest, ht, hκ⟩ := h
    have hall : Relation.ReflTransGen moves (db, .start) (db', κ') := hrest.head hfirst
    obtain ⟨n, hn⟩ := Interleaving.run_alone procs hall hs
    exact ⟨n, db', κ', hn, ht, hκ⟩
  rcases rotateRefreshToken_cases db.tables token input.now
    with ⟨rt, hq, hr⟩ | ⟨user, hq, hr⟩ | ⟨e, hq, hr⟩ <;> rw [hq, hr]
  · let saved := db.tick.write (db.tables.saveRevokedAt rt.token input.now)
    have hsave : moves (db.tick, .checked rt) (saved, .rotated rt) := by
      show sessionAct _ _ _ _ _ = _
      unfold sessionAct
      rw [hi]
      rfl
    have hinsert : moves (saved, .rotated rt)
        (saved.insertSuccessor rt input.now, .refreshed saved.tables.nextToken) := by
      show sessionAct _ _ _ _ _ = _
      unfold sessionAct
      rw [hi]
    exact ⟨_, _, (Relation.ReflTransGen.single hsave).tail hinsert, rfl, rfl⟩
  · have hrevoke : moves (db.tick, .reused user)
        (db.tick.write (db.tables.revokeAllRefreshTokens user input.now),
          .failed .tokenRevoked) := by
      show sessionAct _ _ _ _ _ = _
      unfold sessionAct
      rw [hi]
      rfl
    exact ⟨_, _, Relation.ReflTransGen.single hrevoke, rfl, rfl⟩
  · exact ⟨_, _, .refl, rfl, rfl⟩

end Saasmint
