/-
Saasmint/Users/OneTimeTokens.lean

The tokens that are redeemed once: those by mail (`_consume_one_time_token`) and
the exchange codes of OAuthCallbackView (`_store_oauth_exchange` and
`_consume_oauth_exchange` of apps/users/auth_views.py), each request as its
statements and its calls of the cache, any number of them interleaved, while
time passes.

A redemption reads the clock before its SELECT, and its UPDATE uses what it has
read.  An exchange code is kept in the cache; the first to add the mark
`<key>:consumed` next to it reads it.  Nobody can present a code before it has
been given out.

Next to the tables and the cache the state keeps a history that no request
reads: the redemptions, the users whose tokens were renewed, the codes and who
has marked them.
-/
import Saasmint.Lib.Cache
import Saasmint.Users.TokenSteps

namespace Saasmint

variable {ι : Type*}

/-! ### Codes -/

/-- `secrets.token_urlsafe`: texts that are all different, of characters of URLs. -/
structure Secrets where
  text : Token → String
  /-- The token with this text. -/
  index : String → Option Token
  index_text : ∀ n, index (text n) = some n
  urlsafe : ∀ n, ':' ∉ (text n).toList

/-- `_OAUTH_EXCHANGE_TTL`, in seconds. -/
def oauthExchangeTtl : Timestamp := 60

/-- The key of a code. -/
def exchangeKey (code : String) : String := "oauth_exchange:" ++ code

/-- The key of the mark of a code. -/
def exchangeMark (code : String) : String := exchangeKey code ++ ":consumed"

inductive CacheValue
  /-- The pair with this refresh token. -/
  | tokens (refresh : Token)
  | consumed
  deriving DecidableEq, Repr

/-! ### The state -/

/-- A token that was redeemed: when its request has read the clock, and when the
UPDATE was. -/
structure Redemption (ι : Type*) where
  request : ι
  token : Token
  askedAt : Timestamp
  updatedAt : Timestamp

/-- A code that was redeemed. -/
structure Exchange (ι : Type*) where
  request : ι
  code : String
  time : Timestamp

structure TokenWorld (ι : Type*) where
  accounts : AccountDb ι
  cache : Cache.Entries String CacheValue Timestamp
  clock : Timestamp
  redeemed : List (Redemption ι)
  /-- Whose tokens of a kind were invalidated and one inserted. -/
  renewed : List (TokenKind × UUID)
  /-- Each code, and when it expires. -/
  codes : List (String × Timestamp)
  /-- Who has marked a code. -/
  marks : List (String × ι)
  exchanged : List (Exchange ι)

inductive TokenRequest
  | account (r : AccountRequest)
  /-- OAuthExchangeView. -/
  | exchange (code : String)
  deriving DecidableEq, Repr

inductive ExchangeCall
  | start
  | marked
  | read (data : Option CacheValue)
  | exchanged (refresh : Token)
  | invalidCode
  /-- What was read is no pair. -/
  | typeError
  deriving DecidableEq, Repr

/-- Where a request is; `askedAt` is when it last read the clock. -/
inductive TokenCall
  | account (κ : AccountCall) (askedAt : Timestamp)
  /-- A callback has stored its code. -/
  | coded
  | exchange (κ : ExchangeCall)
  deriving DecidableEq, Repr

def TokenRequest.initial : TokenRequest → TokenCall
  | account r => .account r.initial 0
  | exchange _ => .exchange .start

/-- The time since the last step, and the snapshot of the user in the cache. -/
structure TokenInput where
  elapsed : Nat
  cached : Option Account

/-! ### Steps -/

namespace TokenWorld

abbrev tables (w : TokenWorld ι) : AuthTables := w.accounts.tables

/-- Time passes. -/
def wait (w : TokenWorld ι) (elapsed : Nat) : TokenWorld ι := { w with clock := w.clock + elapsed }

/-- `_store_oauth_exchange`. -/
def storeOauthExchange (secrets : Secrets) (w : TokenWorld ι) (refresh : Token) : TokenWorld ι :=
  let t := w.tables
  let code := secrets.text t.nextToken
  let expires := w.clock + oauthExchangeTtl
  { w with
    accounts := { w.accounts with
      sessions := { w.accounts.sessions with tables := { t with nextToken := t.nextToken + 1 } } }
    cache := Cache.set w.cache (exchangeKey code) (.tokens refresh) expires
    codes := w.codes ++ [(code, expires)] }

/-- A statement of an endpoint has led from `κ` to `κ'`. -/
def afterStatement (w : TokenWorld ι) (i : ι) (accounts : AccountDb ι) (κ κ' : AccountCall)
    (askedAt : Timestamp) : TokenWorld ι :=
  { w with
    accounts
    redeemed := w.redeemed ++
      ((consumedBy κ κ').map fun token => ⟨i, token, askedAt, w.clock⟩).toList
    renewed := w.renewed ++ (renewedBy κ κ').toList }

/-- The code is none that is still to come. -/
def presentable (secrets : Secrets) (w : TokenWorld ι) (code : String) : Bool :=
  (secrets.index code).all fun n => n < w.tables.nextToken

/-- `_consume_oauth_exchange`, one call of the cache after the other. -/
def consumeOauthExchange (secrets : Secrets) (i : ι) (code : String) (w : TokenWorld ι) :
    ExchangeCall → Option (TokenWorld ι × ExchangeCall)
  | .start =>
    if w.presentable secrets code then
      match Cache.add w.cache w.clock (exchangeMark code) .consumed
        (w.clock + oauthExchangeTtl) with
      | none => some (w, .invalidCode)
      | some cache => some ({ w with cache, marks := w.marks ++ [(code, i)] }, .marked)
    else none
  | .marked =>
    match Cache.get w.cache w.clock (exchangeKey code) with
    | some (.tokens refresh) =>
      some ({ w with exchanged := w.exchanged ++ [⟨i, code, w.clock⟩] },
        .read (some (.tokens refresh)))
    | data => some (w, .read data)
  | .read data =>
    some ({ w with cache := Cache.delete w.cache (exchangeKey code) },
      match data with
      | none => .invalidCode
      | some (.tokens refresh) => .exchanged refresh
      | some .consumed => .typeError)
  | _ => none

end TokenWorld

/-- The time that a statement gets: the UPDATE of a redemption gets the one that
its SELECT got. -/
def AccountCall.timeOf (κ : AccountCall) (askedAt clock : Timestamp) : Timestamp :=
  if κ.foundToken.isSome then askedAt else clock

/-- A step of the request `i`. -/
def tokenAct (p : Platform) (secrets : Secrets) (requests : ι → TokenRequest) (i : ι)
    (w : TokenWorld ι) (κ : TokenCall) (input : TokenInput) : Option (TokenWorld ι × TokenCall) :=
  let w := w.wait input.elapsed
  match requests i, κ with
  | .account (.social (.callback _ _)), .account (.social (.signedIn _ refresh)) _ =>
    some (w.storeOauthExchange secrets refresh, .coded)
  | .account r, .account κ askedAt =>
    let now := κ.timeOf askedAt w.clock
    (accountAct p (fun _ => r) i w.accounts κ ⟨now, input.cached⟩).map fun x =>
      (w.afterStatement i x.1 κ x.2 askedAt, .account x.2 now)
  | .exchange code, .exchange κ =>
    (w.consumeOauthExchange secrets i code κ).map fun x => (x.1, .exchange x.2)
  | _, _ => none

abbrev TokenSystem (ι : Type*) := Interleaving.State ι (TokenWorld ι) TokenCall

/-- Tables from before, and no exchange codes. -/
def tokenInit (requests : ι → TokenRequest) (t : AuthTables) (clock : Timestamp) : TokenSystem ι :=
  ⟨{ accounts := ⟨.init ι t, [], [], [], []⟩, cache := Cache.empty, clock, redeemed := [],
     renewed := [], codes := [], marks := [], exchanged := [] },
    fun i => (requests i).initial⟩

/-! ### What is claimed -/

/-- The kind that the endpoint of a request redeems. -/
def TokenRequest.redeems : TokenRequest → Option TokenKind
  | account r => r.redeems
  | exchange _ => none

/-- No token is redeemed twice; each is redeemed at the endpoint of its own kind
and of no other, by a request that came before its expiry; a code is redeemed
before its expiry. -/
structure RedeemedOnce (secrets : Secrets) (requests : ι → TokenRequest) (w : TokenWorld ι) :
    Prop where
  once : (w.redeemed.map Redemption.token).Nodup
  endpoint : ∀ x ∈ w.redeemed, ∃ k, (requests x.request).redeems = some k ∧
    (∃ row ∈ w.tables.rowsOf k, row.token = x.token ∧ x.askedAt < row.expiresAt) ∧
    ∀ k', (∃ row ∈ w.tables.rowsOf k', row.token = x.token) → k' = k
  code : ∀ x ∈ w.exchanged, requests x.request = .exchange x.code ∧
    ∃ expires, (x.code, expires) ∈ w.codes ∧ x.time < expires
  apart : ∀ n expires, (secrets.text n, expires) ∈ w.codes →
    ∀ k, ∀ row ∈ w.tables.rowsOf k, row.token ≠ n

/-- The UPDATE of each redemption was before the expiry. -/
def UpdatedInTime (w : TokenWorld ι) : Prop :=
  ∀ x ∈ w.redeemed, ∀ k, ∀ row ∈ w.tables.rowsOf k, row.token = x.token →
    x.updatedAt < row.expiresAt

/-- No code is redeemed twice. -/
def CodesOnce (w : TokenWorld ι) : Prop := (w.exchanged.map Exchange.code).Nodup

/-- The tokens of a kind that the user can redeem. -/
def TokenWorld.redeemable (w : TokenWorld ι) (k : TokenKind) (user : UUID) : List OneTimeToken :=
  redeemableRows (w.tables.rowsOf k) w.clock user

/-- The request is to renew the tokens of the user, and has not done so. -/
def TokenCall.renewing : TokenRequest → TokenCall → Option (TokenKind × UUID)
  | .account (.resendVerification _), .account (.addressed user) _ => some (.verification, user.id)
  | _, .account (.social (.collided user)) _ => some (.link, user.id)
  | _, .account κ _ => κ.invalidatedFor
  | _, _ => none

/-- Once the tokens of a user were renewed and no request is about to renew them
again, at most one can be redeemed. -/
def NewestOnly (requests : ι → TokenRequest) (s : TokenSystem ι) : Prop :=
  ∀ k user, (k, user) ∈ s.shared.renewed →
    (∀ i, TokenCall.renewing (requests i) (s.procs i) ≠ some (k, user)) →
    (s.shared.redeemable k user).length ≤ 1

/-! ### When it holds -/

/-- The token that the request is to consume. -/
def TokenCall.foundToken : TokenCall → Option (UUID × Token)
  | account κ _ => κ.foundToken
  | _ => none

/-- The kind and the user of the token that the request is about to insert. -/
def TokenRequest.mints (t : AuthTables) : TokenRequest → TokenCall → Option (TokenKind × UUID)
  | account r, .account κ _ => r.mints t κ
  | _, _ => none

/-- The UPDATE of a redemption comes before the expiry of a token that is unused. -/
def UpdatesInTime (s : TokenSystem ι) (l : ι × TokenInput) : Prop :=
  ∀ x ∈ (s.procs l.1).foundToken, ∀ k, ∀ row ∈ s.shared.tables.rowsOf k, row.token = x.2 →
    row.usedAt = none → s.shared.clock + l.2.elapsed < row.expiresAt

/-- An exchange request whose text is a code with `:consumed` after it does not
delete the mark of a code that is still stored. -/
def LeavesMarks (requests : ι → TokenRequest) (s : TokenSystem ι) (l : ι × TokenInput) : Prop :=
  ∀ code data, requests l.1 = .exchange (code ++ ":consumed") →
    s.procs l.1 = .exchange (.read data) →
    Cache.get s.shared.cache (s.shared.clock + l.2.elapsed) (exchangeKey code) ≠ none →
    Cache.get s.shared.cache (s.shared.clock + l.2.elapsed) (exchangeMark code) = none

/-- A verification or link token is inserted where no other of its user can be
redeemed. -/
def MintsAlone (requests : ι → TokenRequest) (s : TokenSystem ι) (l : ι × TokenInput) : Prop :=
  ∀ x ∈ (requests l.1).mints s.shared.tables (s.procs l.1), x.1 ≠ .reset →
    redeemableRows (s.shared.tables.rowsOf x.1) (s.shared.clock + l.2.elapsed) x.2 = []

instance (s : TokenSystem ι) (l : ι × TokenInput) : Decidable (UpdatesInTime s l) :=
  inferInstanceAs (Decidable (∀ _ ∈ _, _))

instance (requests : ι → TokenRequest) (s : TokenSystem ι) (l : ι × TokenInput) :
    Decidable (MintsAlone requests s l) :=
  inferInstanceAs (Decidable (∀ _ ∈ _, _))

variable {p : Platform} {secrets : Secrets} {requests : ι → TokenRequest} {i : ι}
  {w w' : TokenWorld ι} {κ κ' : TokenCall} {input : TokenInput} {code code' : String}

/-! ### Keys -/

theorem exchangeKey_inj (h : exchangeKey code = exchangeKey code') : code = code' :=
  String.append_right_inj _ |>.mp h

theorem exchangeMark_inj (h : exchangeMark code = exchangeMark code') : code = code' :=
  exchangeKey_inj (String.append_left_inj _ |>.mp h)

/-- The mark of a code is the key of its text with `:consumed` after it. -/
theorem exchangeMark_eq (code : String) : exchangeMark code = exchangeKey (code ++ ":consumed") :=
  String.append_assoc ..

/-- A code that is given out has no colon. -/
theorem Secrets.text_ne_consumed (secrets : Secrets) (n : Token) (code : String) :
    secrets.text n ≠ code ++ ":consumed" := by
  intro h
  apply secrets.urlsafe n
  rw [h, String.toList_append]
  apply List.mem_append_right
  decide

theorem Secrets.text_inj (secrets : Secrets) {n m : Token} (h : secrets.text n = secrets.text m) :
    n = m := by
  have := secrets.index_text n
  rw [h, secrets.index_text m] at this
  exact (Option.some.inj this).symm

/-! ### What a step can do -/

/-- The steps of the request `i`, once time has passed. -/
inductive TokenAct (secrets : Secrets) (requests : ι → TokenRequest) (i : ι)
    (w w' : TokenWorld ι) (κ κ' : TokenCall) : Prop
  | statement (r : AccountRequest) (κ₀ κ₁ : AccountCall) (askedAt : Timestamp)
      (accounts : AccountDb ι) (hr : requests i = .account r) (hκ : κ = .account κ₀ askedAt)
      (hstep : TokenStep r (κ₀.timeOf askedAt w.clock) w.tables accounts.tables κ₀ κ₁)
      (hw' : w' = w.afterStatement i accounts κ₀ κ₁ askedAt)
      (hκ' : κ' = .account κ₁ (κ₀.timeOf askedAt w.clock))
  | store (r : AccountRequest) (refresh : Token) (hr : requests i = .account r)
      (hw' : w' = w.storeOauthExchange secrets refresh) (hκ' : κ' = .coded)
  | exchange (code : String) (κ₀ κ₁ : ExchangeCall) (hr : requests i = .exchange code)
      (hκ : κ = .exchange κ₀) (h : w.consumeOauthExchange secrets i code κ₀ = some (w', κ₁))
      (hκ' : κ' = .exchange κ₁)

theorem tokenAct_cases (h : tokenAct p secrets requests i w κ input = some (w', κ')) :
    TokenAct secrets requests i (w.wait input.elapsed) w' κ κ' := by
  unfold tokenAct at h
  dsimp only at h
  split at h
  · rename_i hr
    obtain ⟨rfl, rfl⟩ := Prod.mk.inj (Option.some.inj h)
    exact .store _ _ hr rfl rfl
  · rename_i r κ₀ askedAt _ hr
    obtain ⟨⟨accounts, κ₁⟩, hact, heq⟩ := Option.map_eq_some_iff.mp h
    obtain ⟨rfl, rfl⟩ := Prod.mk.inj heq
    obtain ⟨⟨db, κ₂⟩, hstatement, heq⟩ := Option.map_eq_some_iff.mp hact
    obtain ⟨rfl, rfl⟩ := Prod.mk.inj heq
    exact .statement r κ₀ κ₂ askedAt _ hr rfl (accountStatement_tokens hstatement) rfl rfl
  · rename_i code κ₀ hr
    obtain ⟨⟨w₁, κ₁⟩, hexchange, heq⟩ := Option.map_eq_some_iff.mp h
    obtain ⟨rfl, rfl⟩ := Prod.mk.inj heq
    exact .exchange code κ₀ κ₁ hr rfl hexchange rfl
  · cases h

/-- An exchange leaves the tables, the clock and the codes. -/
structure TokenWorld.SameTables (w w' : TokenWorld ι) : Prop where
  accounts : w'.accounts = w.accounts
  clock : w'.clock = w.clock
  redeemed : w'.redeemed = w.redeemed
  renewed : w'.renewed = w.renewed
  codes : w'.codes = w.codes

/-- The steps of an exchange. -/
inductive ExchangeStep (secrets : Secrets) (i : ι) (code : String) (w w' : TokenWorld ι) :
    ExchangeCall → ExchangeCall → Prop
  | refused (hw' : w' = w) : ExchangeStep secrets i code w w' .start .invalidCode
  | mark (hpresentable : w.presentable secrets code = true)
      (hfree : Cache.get w.cache w.clock (exchangeMark code) = none)
      (hw' : w' = { w with
        cache := Cache.set w.cache (exchangeMark code) .consumed (w.clock + oauthExchangeTtl)
        marks := w.marks ++ [(code, i)] }) : ExchangeStep secrets i code w w' .start .marked
  | read (refresh : Token)
      (hdata : Cache.get w.cache w.clock (exchangeKey code) = some (.tokens refresh))
      (hw' : w' = { w with exchanged := w.exchanged ++ [⟨i, code, w.clock⟩] }) :
      ExchangeStep secrets i code w w' .marked (.read (some (.tokens refresh)))
  | miss (data : Option CacheValue) (hw' : w' = w) :
      ExchangeStep secrets i code w w' .marked (.read data)
  | delete (data : Option CacheValue) (κ' : ExchangeCall)
      (hκ' : κ' ≠ .start ∧ κ' ≠ .marked)
      (hw' : w' = { w with cache := Cache.delete w.cache (exchangeKey code) }) :
      ExchangeStep secrets i code w w' (.read data) κ'

theorem exchangeStep_cases {κ₀ κ₁ : ExchangeCall}
    (h : w.consumeOauthExchange secrets i code κ₀ = some (w', κ₁)) :
    ExchangeStep secrets i code w w' κ₀ κ₁ := by
  cases κ₀ with
  | start =>
    unfold TokenWorld.consumeOauthExchange at h
    dsimp only at h
    split at h
    · rename_i hpresentable
      split at h
      · obtain ⟨rfl, rfl⟩ := Prod.mk.inj (Option.some.inj h)
        exact .refused rfl
      · rename_i cache hadd
        obtain ⟨hfree, rfl⟩ := Cache.add_eq_some.mp hadd
        obtain ⟨rfl, rfl⟩ := Prod.mk.inj (Option.some.inj h)
        exact .mark hpresentable hfree rfl
    · cases h
  | marked =>
    unfold TokenWorld.consumeOauthExchange at h
    dsimp only at h
    split at h
    · rename_i refresh hdata
      obtain ⟨rfl, rfl⟩ := Prod.mk.inj (Option.some.inj h)
      exact .read refresh hdata rfl
    · obtain ⟨rfl, rfl⟩ := Prod.mk.inj (Option.some.inj h)
      exact .miss _ rfl
  | read data =>
    obtain ⟨rfl, rfl⟩ := Prod.mk.inj (Option.some.inj h)
    refine .delete data _ ?_ rfl
    split <;> exact ⟨nofun, nofun⟩
  | exchanged _ | invalidCode | typeError => cases h

theorem ExchangeStep.sameTables {κ₀ κ₁ : ExchangeCall}
    (h : ExchangeStep secrets i code w w' κ₀ κ₁) : w.SameTables w' := by
  cases h with
  | refused hw' | mark _ _ hw' | read _ _ hw' | miss _ hw' | delete _ _ _ hw' =>
    subst hw'
    exact ⟨rfl, rfl, rfl, rfl, rfl⟩

end Saasmint
