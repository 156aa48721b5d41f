/-
Saasmint/Orgs/Seats.lean

The seat cap of one organization under concurrent invitations, acceptances,
removals and seat changes.

Creating and accepting an invitation count the members under a row lock on the
active team subscription.  A seat change counts them without it, calls Stripe
and then writes `seat_limit`; the write waits for the lock, the count does not.
So the cap holds over a run exactly when at each of these writes the
organization has no more members than the seats that are written
(`seat_cap_iff`).

Requests to other organizations take other locks and other rows; where a
request turns out to be one, it ends here.
-/
import Saasmint.Orgs.Requests

namespace Saasmint

variable {p : Platform}

/-! ### Reads and writes of the seat changes -/

namespace OrgTables

variable (t : OrgTables)

/-- `_resolve_mutation_context` with `?context=team`, or without it: the
organization whose subscription the caller may change, `none` for the personal
one. -/
def resolveMutationContext (user : UUID) (explicitTeam : Bool) :
    Except OrgError (Option UUID) :=
  if explicitTeam then
    match (t.members.filter fun m => m.user = user ∧ m.isBilling = true).argmin OrgMember.id with
    | none => .error .insufficientPermission
    | some m => .ok (some m.org)
  else
    match (t.members.filter fun m => m.user = user).argmin OrgMember.id with
    | none => .ok none
    | some m => if m.isBilling then .ok (some m.org) else .error .insufficientPermission

/-- `_get_customer_and_paid_subscription` for an organization; of several
active rows the latest. -/
def paidSubscription (org : UUID) : Option Subscription := do
  let customer ← t.customers.find? fun c => c.owner = .org org
  let sub ← Table.latest? Subscription.createdAt (t.subscriptions.filter fun s =>
    s.stripeCustomerId = some customer.id && s.status.isActive)
  if sub.stripeId.isSome then some sub else none

/-- The row that `create` of an invitation inserts. -/
def insertInvitation (org : UUID) (email : String) (role : AssignableRole) (token : String)
    (now : Timestamp) : OrgTables :=
  { t with
    invitations := t.invitations ++
      [{ id := t.nextKey, org, email, role, token, status := .pending,
         -- `INVITATION_EXPIRY_DAYS`
         expiresAt := now + 7 * 86400 }]
    nextKey := t.nextKey + 1 }

/-- `DjangoSubscriptionRepository.save`: every column but `created_at`. -/
def saveSubscription (now : Timestamp) (row : Subscription) : OrgTables :=
  { t with
    subscriptions := Table.upsert Subscription.id row.id { row with createdAt := now }
      (fun old => { row with createdAt := old.createdAt }) t.subscriptions }

/-- What the webhook of a seat change mirrors. -/
def mirrorSeats (id : UUID) (seatLimit : Int) : OrgTables :=
  { t with
    subscriptions := Table.update Subscription.id id (fun old => { old with seatLimit })
      t.subscriptions }

theorem Constraints.saveSubscription {t : OrgTables} (h : t.Constraints p) (now : Timestamp)
    (row : Subscription) : (t.saveSubscription now row).Constraints p := by
  refine { h with subscription_pk := ?_ }
  show Table.Unique _ (Table.upsert Subscription.id row.id _ _ t.subscriptions)
  unfold Table.upsert
  split
  case isTrue =>
    refine h.subscription_pk.map fun s => Or.inl (congrArg some ?_)
    split
    · exact Eq.symm ‹_›
    · rfl
  case isFalse hnone =>
    refine Table.unique_append h.subscription_pk fun s hs v hv hw => hnone ?_
    refine List.any_eq_true.mpr ⟨s, hs, ?_⟩
    simpa using Option.some.inj (hw.trans hv.symm)

theorem Constraints.mirrorSeats {t : OrgTables} (h : t.Constraints p) (id : UUID)
    (seatLimit : Int) : (t.mirrorSeats id seatLimit).Constraints p :=
  { h with
    subscription_pk := h.subscription_pk.map fun s => Or.inl (congrArg some (by split <;> rfl)) }

end OrgTables

def OrgDb.saveSubscription (db : OrgDb p) (now : Timestamp) (row : Subscription) : OrgDb p :=
  ⟨db.toOrgTables.saveSubscription now row, db.constraints.saveSubscription now row⟩

def OrgDb.mirrorSeats (db : OrgDb p) (id : UUID) (seatLimit : Int) : OrgDb p :=
  ⟨db.toOrgTables.mirrorSeats id seatLimit, db.constraints.mirrorSeats id seatLimit⟩

/-! ### Requests -/

inductive SeatRequest
  | createInvitation (caller : UUID) (email : String) (role : AssignableRole) (token : String)
  | acceptInvitation (token : String)
  | deleteMember (caller org member : UUID)
  /-- The billing PATCH with seats only. -/
  | updateSeatCount (caller : UUID) (explicitTeam : Bool) (seatLimit : Int)
  /-- The billing PATCH with a plan and seats. -/
  | changePlan (caller : UUID) (explicitTeam : Bool) (seatLimit : Int)
  deriving DecidableEq, Repr

/-- Where a request is. -/
inductive SeatPhase
  /-- In the steps that it shares with `OrgRequest`. -/
  | request (κ : RequestState)
  | creating
  | createUnregistered
  | createReady
  /-- Under the lock, before the count, with the row that was locked. -/
  | createLocked (sub : Subscription)
  | createCounted
  | acceptLocked (inv : Invitation) (sub : Subscription)
  | acceptCounted (inv : Invitation)
  | authorized
  | loaded (sub : Subscription)
  | memberCounted (sub : Subscription)
  /-- After the Stripe call. -/
  | modified (sub : Subscription)
  | done
  | failed (e : OrgError)
  deriving DecidableEq, Repr

/-- The database, and who holds the lock on the team subscription. -/
structure SeatShared (ι : Type*) (p : Platform) where
  db : OrgDb p
  lock : Option ι

variable {ι : Type*} [DecidableEq ι] (org : UUID) (requests : ι → SeatRequest)

/-- The end of a transaction gives up its lock. -/
def SeatShared.unlock (σ : SeatShared ι p) (i : ι) : SeatShared ι p :=
  { σ with lock := if σ.lock = some i then none else σ.lock }

/-- Commit, or roll back. -/
def SeatShared.finish (σ : SeatShared ι p) (i : ι) :
    Except OrgError (OrgDb p) → SeatShared ι p × SeatPhase
  | .ok db => ({ σ with db }.unlock i, .done)
  | .error e => (σ.unlock i, .failed e)

/-- `lock_active_team_sub`: without an active subscription there is no lock and
no limit. -/
def SeatShared.lockActiveTeamSub (σ : SeatShared ι p) (i : ι) (unlimited : SeatPhase)
    (locked : Subscription → SeatPhase) : Option (SeatShared ι p × SeatPhase) :=
  match σ.db.activeTeamSub org with
  | none => some (σ, unlimited)
  | some sub => if σ.lock = none then some ({ σ with lock := some i }, locked sub) else none

/-- The checks on the body and the caller of a billing PATCH. -/
def authorizeSeats (t : OrgTables) (caller : UUID) (explicitTeam : Bool) (seatLimit : Int) :
    SeatPhase :=
  if seatLimit < 1 ∨ 10000 < seatLimit then .failed .validationError
  else match t.resolveMutationContext caller explicitTeam with
    | .error e => .failed e
    | .ok target => if target = some org then .authorized else .done

/-- The steps that the two billing PATCHes share, up to the Stripe call. -/
def seatChange (t : OrgTables) (caller : UUID) (explicitTeam : Bool) (seatLimit : Int) :
    SeatPhase → Option SeatPhase
  | .request .start => some (authorizeSeats org t caller explicitTeam seatLimit)
  | .authorized =>
    some (match t.paidSubscription org with
      | none => .failed .notFound
      | some sub => .loaded sub)
  | .loaded sub =>
    some (if seatLimit < t.memberCount org then .failed .seatsBelowMemberCount
      else .memberCounted sub)
  | .memberCounted sub => some (.modified sub)
  | _ => none

section Steps

variable (i : ι) (σ : SeatShared ι p) (now : Timestamp)

def createInvitationAct (caller : UUID) (email : String) (role : AssignableRole)
    (token : String) : SeatPhase → Option (SeatShared ι p × SeatPhase)
  | .request .start =>
    some (σ, match σ.db.getOrgAndMember caller org adminOrAbove with
      | .ok _ => .creating
      | .error e => .failed e)
  | .creating =>
    some (σ, if σ.db.emailIsRegistered p email then .failed .invitationEmailExists
      else .createUnregistered)
  | .createUnregistered =>
    some (σ, if σ.db.invitations.any fun i => i.pendingFor = some (org, email) then
        .failed .invitationPendingExists
      else .createReady)
  | .createReady => σ.lockActiveTeamSub org i .createCounted .createLocked
  | .createLocked sub =>
    let pending := (σ.db.invitations.filter fun i => i.org = org ∧ i.status = .pending).length
    some (if σ.db.memberCount org + pending ≥ sub.seatLimit then
        (σ.unlock i, .failed .seatLimitReached)
      else (σ, .createCounted))
  | .createCounted =>
    some (σ.finish i (OrgDb.commit p (σ.db.insertInvitation org email role token now)))
  | _ => none

def acceptInvitationAct (token : String) : SeatPhase → Option (SeatShared ι p × SeatPhase)
  | .request (.unregistered inv) =>
    if inv.org = org then
      σ.lockActiveTeamSub org i (.acceptCounted inv) (.acceptLocked inv)
    else some (σ, .done)
  | .request κ =>
    ((OrgRequest.acceptInvitation token).step σ.db κ now).map fun x =>
      ({ σ with db := x.1 }, .request x.2)
  | .acceptLocked inv sub =>
    some (if σ.db.memberCount org + 1 > sub.seatLimit then
        (σ.unlock i, .failed .seatLimitReached)
      else (σ, .acceptCounted inv))
  | .acceptCounted inv => some (σ.finish i (σ.db.admitInvitee inv))
  | _ => none

def deleteMemberAct (caller o member : UUID) : SeatPhase → Option (SeatShared ι p × SeatPhase)
  | .request κ =>
    ((OrgRequest.deleteMember caller o member).step σ.db κ now).map fun x =>
      ({ σ with db := x.1 }, .request x.2)
  | _ => none

def updateSeatCountAct (caller : UUID) (explicitTeam : Bool) (seatLimit : Int) :
    SeatPhase → Option (SeatShared ι p × SeatPhase)
  | .modified sub =>
    -- the mirror write is skipped where the loaded row has the seats already
    if sub.seatLimit = seatLimit then some (σ, .done)
    else if σ.lock = none then
      some ({ σ with db := σ.db.saveSubscription now { sub with seatLimit } }, .done)
    else none
  | κ => (seatChange org σ.db.toOrgTables caller explicitTeam seatLimit κ).map fun κ' => (σ, κ')

def changePlanAct (caller : UUID) (explicitTeam : Bool) (seatLimit : Int) :
    SeatPhase → Option (SeatShared ι p × SeatPhase)
  | .modified sub =>
    -- the mirror write of the webhook
    if σ.lock = none then some ({ σ with db := σ.db.mirrorSeats sub.id seatLimit }, .done)
    else none
  | κ => (seatChange org σ.db.toOrgTables caller explicitTeam seatLimit κ).map fun κ' => (σ, κ')

end Steps

/-- A step of a request. -/
def seatAct (i : ι) (σ : SeatShared ι p) (κ : SeatPhase) (now : Timestamp) :
    Option (SeatShared ι p × SeatPhase) :=
  match requests i with
  | .createInvitation caller email role token =>
    createInvitationAct org i σ now caller email role token κ
  | .acceptInvitation token => acceptInvitationAct org i σ now token κ
  | .deleteMember caller o member => deleteMemberAct σ now caller o member κ
  | .updateSeatCount caller explicitTeam seatLimit =>
    updateSeatCountAct org σ now caller explicitTeam seatLimit κ
  | .changePlan caller explicitTeam seatLimit => changePlanAct org σ caller explicitTeam seatLimit κ

abbrev SeatSystem (ι : Type*) (p : Platform) := Interleaving.State ι (SeatShared ι p) SeatPhase

/-- The system before any request has begun. -/
def seatInit (ι : Type*) (db : OrgDb p) : SeatSystem ι p := ⟨⟨db, none⟩, fun _ => .request .start⟩

/-- The organization has no more members than its subscription has seats. -/
def SeatCap (t : OrgTables) : Prop :=
  ∀ s ∈ t.activeSubsOf (.org org), t.memberCount org ≤ s.seatLimit

instance (t : OrgTables) : Decidable (SeatCap org t) := List.decidableBAll ..

/-- The organization has one active subscription, which is no user's. -/
def HasTeamSub (t : OrgTables) : Prop :=
  ∃ s, t.activeSubsOf (.org org) = [s] ∧ s.userId = none

/-- A request that is about to write seats writes enough for the members. -/
def EnoughSeats (t : OrgTables) : SeatRequest → SeatPhase → Prop
  | .updateSeatCount _ _ seatLimit, .modified sub =>
    sub.seatLimit ≠ seatLimit → t.memberCount org ≤ seatLimit
  | .changePlan _ _ seatLimit, .modified _ => t.memberCount org ≤ seatLimit
  | _, _ => True

/-- The write of a step, if it is one of seats, writes enough. -/
def StepEnoughSeats (s : SeatSystem ι p) (l : ι × Timestamp) : Prop :=
  EnoughSeats org s.shared.db.toOrgTables (requests l.1) (s.procs l.1)

/-! ### Rows after a write -/

/-- `b` is a state of the row that was read as `a`. -/
structure Subscription.SameRow (a b : Subscription) : Prop where
  id : a.id = b.id
  stripeCustomerId : a.stripeCustomerId = b.stripeCustomerId
  userId : a.userId = b.userId
  active : a.status.isActive = true

section Rows

variable {org} {t : OrgTables}

/-- Deleting users leaves the subscriptions of an organization. -/
theorem activeSubsOf_deleteUsers (hc : t.Constraints p)
    (hteam : ∀ s ∈ t.activeSubsOf (.org org), s.userId = none) (ids : List UUID) :
    (t.deleteUsers ids).activeSubsOf (.org org) = t.activeSubsOf (.org org) := by
  have hcust : ∀ c ∈ t.customers, c.owner = .org org → c ∈ (t.deleteUsers ids).customers := by
    intro c hcm ho
    exact List.mem_filter.mpr ⟨hcm, by simp [ho, Owner.userId]⟩
  show List.filter _ (List.filter _ (List.filter _ t.subscriptions)) = _
  rw [List.filter_filter, List.filter_filter]
  refine List.filter_congr fun s hs => ?_
  by_cases hact : t.isActiveFor (.org org) s = true
  · -- the row and its customer are left
    have hnone := hteam s (List.mem_filter.mpr ⟨hs, hact⟩)
    obtain ⟨hst, hany⟩ := Bool.and_eq_true_iff.mp hact
    obtain ⟨c, hcm, hcs⟩ := List.any_eq_true.mp hany
    simp only [decide_eq_true_eq] at hcs
    have hleft : (t.deleteUsers ids).isActiveFor (.org org) s = true :=
      Bool.and_eq_true_iff.mpr ⟨hst, List.any_eq_true.mpr ⟨c, hcust c hcm hcs.2, by simp [hcs]⟩⟩
    have hkept : ∀ c' ∈ t.customers, c'.owner.userId.any (· ∈ ids) = true →
        s.stripeCustomerId ≠ some c'.id := by
      intro c' hc' hgone hid
      obtain rfl := hc.customer_pk.inj hc' hcm (hid.symm.trans hcs.1) rfl
      rw [hcs.2] at hgone
      cases hgone
    rw [hact, hleft]
    simpa [hnone] using hkept
  · have hnot : ¬ (t.deleteUsers ids).isActiveFor (.org org) s = true := by
      intro h
      obtain ⟨hst, hany⟩ := Bool.and_eq_true_iff.mp h
      obtain ⟨c, hcm, hcs⟩ := List.any_eq_true.mp hany
      exact hact (Bool.and_eq_true_iff.mpr
        ⟨hst, List.any_eq_true.mpr ⟨c, (List.mem_filter.mp hcm).1, hcs⟩⟩)
    simp [hact, hnot]

theorem memberCount_deleteUsers_le (t : OrgTables) (ids : List UUID) :
    (t.deleteUsers ids).memberCount org ≤ t.memberCount org := by
  have h : ((t.deleteUsers ids).members.filter fun m => m.org = org).Sublist
      (t.members.filter fun m => m.org = org) := List.filter_sublist.filter _
  exact Int.ofNat_le.mpr h.length_le

theorem memberCount_insertInvitee (inv : Invitation) (horg : inv.org = org) :
    (t.insertInvitee p inv).memberCount org = t.memberCount org + 1 := by
  simp [OrgTables.memberCount, OrgTables.insertInvitee, OrgTables.updateInvitation, horg]

/-- Rewriting the one active row as a state of itself leaves that state as the
one active row. -/
theorem activeSubsOf_update (hc : t.Constraints p) {s : Subscription}
    (hs : t.activeSubsOf (.org org) = [s]) {f : Subscription → Subscription}
    (hf : (f s).SameRow s) :
    ({ t with subscriptions := Table.update Subscription.id s.id f t.subscriptions } :
      OrgTables).activeSubsOf (.org org) = [f s] := by
  have hmem : s ∈ t.activeSubsOf (.org org) := by simp [hs]
  obtain ⟨hsub, hact⟩ := List.mem_filter.mp hmem
  have hsame : ∀ r ∈ t.subscriptions,
      t.isActiveFor (.org org) (if r.id = s.id then f r else r) = t.isActiveFor (.org org) r := by
    intro r hr
    split
    case isTrue hid =>
      obtain rfl := hc.subscription_pk.inj hr hsub (congrArg some hid) rfl
      obtain ⟨hst, hany⟩ := Bool.and_eq_true_iff.mp hact
      simp only [OrgTables.isActiveFor, hf.active, hf.stripeCustomerId, hst]
    case isFalse => rfl
  show ((t.subscriptions.map fun r => if r.id = s.id then f r else r).filter
    (t.isActiveFor (.org org))) = [f s]
  have hleft : t.subscriptions.filter (t.isActiveFor (.org org) ∘ fun r =>
      if r.id = s.id then f r else r) = t.activeSubsOf (.org org) := List.filter_congr hsame
  rw [List.filter_map, hleft, hs, List.map_cons, if_pos rfl, List.map_nil]

/-- The row that a seat change loads is the active one. -/
theorem mem_activeSubsOf_of_paid {sub : Subscription} (h : t.paidSubscription org = some sub) :
    sub ∈ t.activeSubsOf (.org org) := by
  obtain ⟨c, hc, h⟩ := Option.bind_eq_some_iff.mp h
  obtain ⟨s, hs, h⟩ := Option.bind_eq_some_iff.mp h
  split at h
  case isFalse => cases h
  case isTrue =>
    cases h
    have hmem := Table.mem_of_latest? hs
    simp only [List.mem_filter, Bool.and_eq_true, decide_eq_true_eq] at hmem
    refine List.mem_filter.mpr ⟨hmem.1, Bool.and_eq_true_iff.mpr ⟨hmem.2.2, ?_⟩⟩
    have howner : c.owner = .org org := by simpa using List.find?_some hc
    exact List.any_eq_true.mpr ⟨c, List.mem_of_find?_eq_some hc, by simp [hmem.2.1, howner]⟩

end Rows

/-! ### Steps -/

/-- What a request knows between its steps. -/
def SeatLocal (i : ι) (σ : SeatShared ι p) : SeatPhase → Prop
  | .acceptLocked inv sub =>
    inv.org = org ∧ σ.lock = some i ∧
      ∀ s ∈ σ.db.activeSubsOf (.org org), s.seatLimit = sub.seatLimit
  | .acceptCounted inv =>
    inv.org = org ∧ σ.lock = some i ∧
      ∀ s ∈ σ.db.activeSubsOf (.org org), σ.db.memberCount org + 1 ≤ s.seatLimit
  | .loaded sub | .memberCounted sub | .modified sub =>
    ∃ s ∈ σ.db.activeSubsOf (.org org), sub.SameRow s
  | _ => True

/-- What a step of the request `i` does to the lock, the row and the count, and
to the cap. -/
structure SeatStep (i : ι) (σ : SeatShared ι p) (κ : SeatPhase) (σ' : SeatShared ι p)
    (κ' : SeatPhase) : Prop where
  /-- Another request's lock stays. -/
  lock : ∀ j, j ≠ i → σ.lock = some j → σ'.lock = some j
  /-- The row only changes under no lock. -/
  row : σ'.db.activeSubsOf (.org org) = σ.db.activeSubsOf (.org org) ∨
    σ.lock = none ∧ ∃ s s', σ.db.activeSubsOf (.org org) = [s] ∧
      σ'.db.activeSubsOf (.org org) = [s'] ∧ s'.SameRow s
  /-- Members only join under the request's own lock. -/
  members : σ'.db.memberCount org ≤ σ.db.memberCount org ∨ σ.lock = some i
  own : SeatLocal org i σ' κ'
  cap : SeatCap org σ.db.toOrgTables →
    (SeatCap org σ'.db.toOrgTables ↔ EnoughSeats org σ.db.toOrgTables (requests i) κ)

variable {org requests} {i : ι} {σ σ' : SeatShared ι p} {κ κ' : SeatPhase}

theorem unlock_of_ne {j : ι} (hj : j ≠ i) (h : σ.lock = some j) : (σ.unlock i).lock = some j := by
  have : ¬ some j = some i := fun e => hj (Option.some.inj e)
  simp [SeatShared.unlock, h, this]

omit [DecidableEq ι] in
/-- A step that adds no member and leaves the subscriptions. -/
theorem SeatStep.quiet (hlock : ∀ j, j ≠ i → σ.lock = some j → σ'.lock = some j)
    (hrow : σ'.db.activeSubsOf (.org org) = σ.db.activeSubsOf (.org org))
    (hmembers : σ'.db.memberCount org ≤ σ.db.memberCount org) (hown : SeatLocal org i σ' κ')
    (hC : EnoughSeats org σ.db.toOrgTables (requests i) κ) :
    SeatStep org requests i σ κ σ' κ' :=
  ⟨hlock, Or.inl hrow, Or.inl hmembers, hown,
    fun hcap => iff_of_true (fun s hs => hmembers.trans (hcap s (hrow ▸ hs))) hC⟩

/-- A step that only gives up a lock. -/
theorem SeatStep.unlocked (hown : SeatLocal org i (σ.unlock i) κ')
    (hC : EnoughSeats org σ.db.toOrgTables (requests i) κ) :
    SeatStep org requests i σ κ (σ.unlock i) κ' :=
  .quiet (fun _ hj h => unlock_of_ne hj h) rfl le_rfl hown hC

omit [DecidableEq ι] in
/-- The step that locks the row. -/
theorem SeatStep.locked {unlimited : SeatPhase} {locked : Subscription → SeatPhase}
    (hteam : HasTeamSub org σ.db.toOrgTables)
    (hC : EnoughSeats org σ.db.toOrgTables (requests i) κ)
    (hown : ∀ s, σ.db.activeSubsOf (.org org) = [s] → SeatLocal org i ⟨σ.db, some i⟩ (locked s))
    (h : σ.lockActiveTeamSub org i unlimited locked = some (σ', κ')) :
    SeatStep org requests i σ κ σ' κ' := by
  obtain ⟨s, hs, -⟩ := hteam
  have hsub : σ.db.activeTeamSub org = some s := by
    rw [OrgTables.activeTeamSub, hs, List.argmin_singleton]
  unfold SeatShared.lockActiveTeamSub at h
  rw [hsub] at h
  simp only at h
  split at h
  case isTrue hfree =>
    cases h
    refine .quiet (fun j _ hj => ?_) rfl le_rfl (hown s hs) hC
    rw [hfree] at hj
    cases hj
  case isFalse => cases h

omit [DecidableEq ι] in
/-- A write of seats to the one active row. -/
theorem SeatStep.write {seatLimit : Int} {s : Subscription} (s' : Subscription)
    (hs : σ.db.activeSubsOf (.org org) = [s]) (hs' : σ'.db.activeSubsOf (.org org) = [s'])
    (hsame : s'.SameRow s) (hlimit : s'.seatLimit = seatLimit) (hfree : σ.lock = none)
    (hmembers : σ'.db.members = σ.db.members) (hown : SeatLocal org i σ' κ')
    (hC : EnoughSeats org σ.db.toOrgTables (requests i) κ ↔
      σ.db.memberCount org ≤ seatLimit) :
    SeatStep org requests i σ κ σ' κ' := by
  have hcount : σ'.db.memberCount org = σ.db.memberCount org := by
    simp only [OrgTables.memberCount, hmembers]
  refine ⟨fun j _ hj => ?_, Or.inr ⟨hfree, s, s', hs, hs', hsame⟩, Or.inl hcount.le, hown,
    fun _ => ?_⟩
  · rw [hfree] at hj
    cases hj
  · rw [hC, SeatCap, hs', hcount]
    simp [hlimit]

/-- The end of a transaction that inserts rows. -/
theorem SeatStep.finished {res : Except OrgError (OrgDb p)}
    (herr : EnoughSeats org σ.db.toOrgTables (requests i) κ)
    (hok : ∀ db, res = .ok db → SeatStep org requests i σ κ (SeatShared.unlock { σ with db } i)
      .done) {x : SeatShared ι p × SeatPhase} (h : σ.finish i res = x) :
    SeatStep org requests i σ κ x.1 x.2 := by
  subst h
  rcases res with e | db
  · exact .unlocked trivial herr
  · exact hok db rfl

/-- Accepting an invitation under the lock. -/
theorem SeatStep.admitted {inv : Invitation} {db : OrgDb p}
    (hL : SeatLocal org i σ (.acceptCounted inv))
    (hC : EnoughSeats org σ.db.toOrgTables (requests i) κ)
    (hok : σ.db.admitInvitee inv = .ok db) :
    SeatStep org requests i σ κ (SeatShared.unlock { σ with db } i) .done := by
  obtain ⟨horg, hlock, hroom⟩ := hL
  have hdb := (OrgDb.admitInvitee_eq_ok.mp hok).2
  have hrow : db.activeSubsOf (.org org) = σ.db.activeSubsOf (.org org) := by
    rw [hdb]
    rfl
  have hcount : db.memberCount org = σ.db.memberCount org + 1 := by
    rw [hdb, memberCount_insertInvitee inv horg]
  refine ⟨fun j hj h => unlock_of_ne hj h, Or.inl hrow, Or.inr hlock, trivial, fun _ => ?_⟩
  refine iff_of_true (fun s hs => ?_) hC
  exact hcount.le.trans (hroom s (hrow ▸ hs))

/-- The shared steps of an acceptance add no member. -/
theorem accept_request_frame {token : String} {db db' : OrgDb p} {κ κ' : RequestState}
    {now : Timestamp} (hκ : ∀ inv, κ ≠ .unregistered inv)
    (h : (OrgRequest.acceptInvitation token).step db κ now = some (db', κ')) :
    db'.members = db.members ∧ db'.customers = db.customers ∧
      db'.subscriptions = db.subscriptions := by
  have hact : requestAct (fun _ : Unit => .acceptInvitation token) () db κ now
      = some (db', κ') := h
  rcases requestAct_cases hact with ⟨rfl, -, -⟩ | ⟨e, κ₁, rfl, -, -⟩ | hw
  · exact ⟨rfl, rfl, rfl⟩
  · exact ⟨rfl, rfl, rfl⟩
  · cases κ with
    | expiring inv =>
      obtain ⟨hok, -⟩ := Prod.mk.inj (Option.some.inj hw)
      rw [(OrgDb.saveInvitation_eq_ok.mp hok).2]
      exact ⟨rfl, rfl, rfl⟩
    | unregistered inv => exact absurd rfl (hκ inv)
    | _ => cases hw

/-- The steps of a removal delete a user, or nothing. -/
theorem deleteMember_step {caller o member : UUID} {db db' : OrgDb p} {κ κ' : RequestState}
    {now : Timestamp}
    (h : (OrgRequest.deleteMember caller o member).step db κ now = some (db', κ')) :
    db' = db ∨ ∃ user, db' = db.deleteUsers [user] := by
  have hact : requestAct (fun _ : Unit => .deleteMember caller o member) () db κ now
      = some (db', κ') := h
  rcases requestAct_cases hact with ⟨rfl, -, -⟩ | ⟨e, κ₁, rfl, -, -⟩ | hw
  · exact Or.inl rfl
  · exact Or.inl rfl
  · cases κ with
    | readTarget c target =>
      cases hw
      exact Or.inr ⟨target.user, rfl⟩
    | _ => cases hw

omit [DecidableEq ι] in
/-- The steps of a seat change before its write. -/
theorem seatChange_step {t : OrgTables} {caller : UUID} {explicitTeam : Bool} {seatLimit : Int}
    (ht : σ.db.toOrgTables = t) (hL : SeatLocal org i σ κ)
    (hC : EnoughSeats org σ.db.toOrgTables (requests i) κ)
    (h : seatChange org t caller explicitTeam seatLimit κ = some κ') :
    SeatStep org requests i σ κ σ κ' := by
  refine .quiet (fun _ _ h => h) rfl le_rfl ?_ hC
  unfold seatChange at h
  split at h <;> cases h
  · unfold authorizeSeats
    split
    · trivial
    · split
      · trivial
      · split <;> trivial
  · split
    · trivial
    · rename_i sub hsub
      have hmem := mem_activeSubsOf_of_paid hsub
      refine ⟨sub, ht ▸ hmem, rfl, rfl, rfl, ?_⟩
      exact (Bool.and_eq_true_iff.mp (List.mem_filter.mp hmem).2).1
  · split
    · trivial
    · exact hL
  · exact hL

theorem createInvitation_step {now : Timestamp} {caller : UUID} {email : String}
    {role : AssignableRole} {token : String} (hteam : HasTeamSub org σ.db.toOrgTables)
    (hC : EnoughSeats org σ.db.toOrgTables (requests i) κ)
    (h : createInvitationAct org i σ now caller email role token κ = some (σ', κ')) :
    SeatStep org requests i σ κ σ' κ' := by
  have hread : ∀ {κ' : SeatPhase}, SeatLocal org i σ κ' → SeatStep org requests i σ κ σ κ' :=
    fun hown => .quiet (fun _ _ h => h) rfl le_rfl hown hC
  unfold createInvitationAct at h
  split at h
  · cases h
    exact hread (by split <;> trivial)
  · cases h
    exact hread (by split <;> trivial)
  · cases h
    exact hread (by split <;> trivial)
  · refine .locked hteam hC ?_ h
    exact fun _ _ => trivial
  · have h := Option.some.inj h
    split at h <;> cases h
    · exact .unlocked trivial hC
    · exact hread trivial
  · refine .finished (x := (σ', κ')) hC (fun db hok => ?_) (Option.some.inj h)
    have hdb := OrgDb.commit_eq_ok.mp hok
    refine .quiet (fun j hj h => unlock_of_ne hj h) ?_ ?_ trivial hC
    · show db.activeSubsOf (.org org) = _
      rw [hdb]
      rfl
    · show db.memberCount org ≤ _
      rw [hdb]
      exact le_rfl
  · cases h

theorem acceptInvitation_step {now : Timestamp} {token : String}
    (hteam : HasTeamSub org σ.db.toOrgTables) (hL : SeatLocal org i σ κ)
    (hC : EnoughSeats org σ.db.toOrgTables (requests i) κ)
    (h : acceptInvitationAct org i σ now token κ = some (σ', κ')) :
    SeatStep org requests i σ κ σ' κ' := by
  unfold acceptInvitationAct at h
  split at h
  · rename_i inv
    split at h
    case isTrue horg =>
      refine .locked hteam hC ?_ h
      intro s hs
      refine ⟨horg, rfl, fun s' hs' => ?_⟩
      rw [hs] at hs'
      rw [List.mem_singleton.mp hs']
    case isFalse =>
      cases h
      exact .quiet (fun _ _ h => h) rfl le_rfl trivial hC
  · rename_i κ hκ
    obtain ⟨⟨db', κ₁⟩, hstep, heq⟩ := Option.map_eq_some_iff.mp h
    cases heq
    obtain ⟨hm, hc, hs⟩ := accept_request_frame hκ hstep
    refine .quiet (fun _ _ h => h) ?_ ?_ trivial hC
    · show List.filter _ db'.subscriptions = List.filter _ σ.db.subscriptions
      rw [hs]
      refine List.filter_congr fun s _ => ?_
      simp only [OrgTables.isActiveFor, hc]
    · show ((db'.members.filter _).length : Int) ≤ ((σ.db.members.filter _).length : Int)
      rw [hm]
  · rename_i inv sub
    obtain ⟨horg, hlock, hlimit⟩ := hL
    have h := Option.some.inj h
    split at h
    case isTrue =>
      cases h
      exact .unlocked trivial hC
    case isFalse hroom =>
      cases h
      refine .quiet (fun _ _ h => h) rfl le_rfl ⟨horg, hlock, fun s hs => ?_⟩ hC
      rw [hlimit s hs]
      exact not_lt.mp hroom
  · exact .finished (x := (σ', κ')) hC (fun db hok => .admitted hL hC hok) (Option.some.inj h)
  · cases h

omit [DecidableEq ι] in
theorem deleteMemberAct_step {now : Timestamp} {caller o member : UUID}
    (hteam : HasTeamSub org σ.db.toOrgTables)
    (hC : EnoughSeats org σ.db.toOrgTables (requests i) κ)
    (h : deleteMemberAct σ now caller o member κ = some (σ', κ')) :
    SeatStep org requests i σ κ σ' κ' := by
  unfold deleteMemberAct at h
  split at h
  · obtain ⟨⟨db', κ₁⟩, hstep, heq⟩ := Option.map_eq_some_iff.mp h
    cases heq
    rcases deleteMember_step hstep with rfl | ⟨user, rfl⟩
    · exact .quiet (fun _ _ h => h) rfl le_rfl trivial hC
    · obtain ⟨s, hs, hnone⟩ := hteam
      refine .quiet (fun _ _ h => h) ?_ (memberCount_deleteUsers_le _ _) trivial hC
      refine activeSubsOf_deleteUsers σ.db.constraints (fun s' hs' => ?_) _
      rw [hs] at hs'
      rw [List.mem_singleton.mp hs', hnone]
  · cases h

omit [DecidableEq ι] in
theorem updateSeatCount_step {now : Timestamp} {caller : UUID} {explicitTeam : Bool}
    {seatLimit : Int} (hr : requests i = .updateSeatCount caller explicitTeam seatLimit)
    (hteam : HasTeamSub org σ.db.toOrgTables) (hL : SeatLocal org i σ κ)
    (h : updateSeatCountAct org σ now caller explicitTeam seatLimit κ = some (σ', κ')) :
    SeatStep org requests i σ κ σ' κ' := by
  unfold updateSeatCountAct at h
  split at h
  · rename_i sub
    split at h
    case isTrue hsame =>
      cases h
      refine .quiet (fun _ _ h => h) rfl le_rfl trivial ?_
      rw [hr]
      exact fun hne => absurd hsame hne
    case isFalse hne =>
      split at h
      case isTrue hfree =>
        cases h
        obtain ⟨s, hs, -⟩ := hteam
        obtain ⟨s', hs', hrow⟩ := hL
        rw [hs] at hs'
        obtain rfl := List.mem_singleton.mp hs'
        -- the row exists, so the save is an update
        have hany : (σ.db.subscriptions.any fun r => r.id = sub.id) = true := by
          have hmem : s' ∈ σ.db.activeSubsOf (.org org) := by simp [hs]
          exact List.any_eq_true.mpr ⟨s', (List.mem_filter.mp hmem).1, by simp [hrow.id]⟩
        have hsave : (σ.db.saveSubscription now { sub with seatLimit }).toOrgTables =
            { σ.db.toOrgTables with
              subscriptions := Table.update Subscription.id s'.id
                (fun old => { sub with seatLimit, createdAt := old.createdAt })
                σ.db.subscriptions } := by
          show OrgTables.saveSubscription _ _ _ = _
          rw [OrgTables.saveSubscription, Table.upsert, if_pos hany, ← hrow.id]
        refine .write { sub with seatLimit, createdAt := s'.createdAt } hs ?_
          ⟨hrow.id, hrow.stripeCustomerId, hrow.userId, hrow.active⟩ rfl hfree rfl trivial ?_
        · show OrgTables.activeSubsOf (OrgDb.toOrgTables _) _ = _
          rw [hsave]
          exact activeSubsOf_update σ.db.constraints hs
            (f := fun old => { sub with seatLimit, createdAt := old.createdAt })
            ⟨hrow.id, hrow.stripeCustomerId, hrow.userId, hrow.active⟩
        · rw [hr]
          exact ⟨fun h => h hne, fun h _ => h⟩
      case isFalse => cases h
  · rename_i hκ
    obtain ⟨κ₁, hchange, heq⟩ := Option.map_eq_some_iff.mp h
    cases heq
    refine seatChange_step rfl hL ?_ hchange
    rw [hr]
    unfold EnoughSeats
    split <;> simp_all

omit [DecidableEq ι] in
theorem changePlan_step {caller : UUID} {explicitTeam : Bool} {seatLimit : Int}
    (hr : requests i = .changePlan caller explicitTeam seatLimit)
    (hteam : HasTeamSub org σ.db.toOrgTables) (hL : SeatLocal org i σ κ)
    (h : changePlanAct org σ caller explicitTeam seatLimit κ = some (σ', κ')) :
    SeatStep org requests i σ κ σ' κ' := by
  unfold changePlanAct at h
  split at h
  · rename_i sub
    split at h
    case isTrue hfree =>
      cases h
      obtain ⟨s, hs, -⟩ := hteam
      obtain ⟨s', hs', hrow⟩ := hL
      rw [hs] at hs'
      obtain rfl := List.mem_singleton.mp hs'
      have hmem : s' ∈ σ.db.activeSubsOf (.org org) := by simp [hs]
      have hact := (Bool.and_eq_true_iff.mp (List.mem_filter.mp hmem).2).1
      refine .write { s' with seatLimit } hs ?_ ⟨rfl, rfl, rfl, hact⟩ rfl hfree rfl
        trivial ?_
      · show (OrgTables.mirrorSeats _ sub.id seatLimit).activeSubsOf _ = _
        rw [hrow.id]
        exact activeSubsOf_update σ.db.constraints hs (f := fun old => { old with seatLimit })
          ⟨rfl, rfl, rfl, hact⟩
      · rw [hr]
        exact Iff.rfl
    case isFalse => cases h
  · rename_i hκ
    obtain ⟨κ₁, hchange, heq⟩ := Option.map_eq_some_iff.mp h
    cases heq
    refine seatChange_step rfl hL ?_ hchange
    rw [hr]
    unfold EnoughSeats
    split <;> simp_all

/-- **One step of a request.** -/
theorem seatAct_step {now : Timestamp} (hteam : HasTeamSub org σ.db.toOrgTables)
    (hL : SeatLocal org i σ κ) (h : seatAct org requests i σ κ now = some (σ', κ')) :
    SeatStep org requests i σ κ σ' κ' := by
  unfold seatAct at h
  split at h
  case h_1 hr => exact createInvitation_step hteam (by rw [hr]; trivial) h
  case h_2 hr => exact acceptInvitation_step hteam hL (by rw [hr]; trivial) h
  case h_3 hr => exact deleteMemberAct_step hteam (by rw [hr]; trivial) h
  case h_4 hr => exact updateSeatCount_step hr hteam hL h
  case h_5 hr => exact changePlan_step hr hteam hL h

/-! ### Runs -/

/-- The invariant of the system: the organization keeps its subscription. -/
abbrev SeatInv (org : UUID) : SeatSystem ι p → Prop :=
  Interleaving.Inv (fun σ => HasTeamSub org σ.db.toOrgTables) (SeatLocal org)

omit [DecidableEq ι] in
theorem SeatStep.hasTeamSub (h : SeatStep org requests i σ κ σ' κ')
    (hteam : HasTeamSub org σ.db.toOrgTables) : HasTeamSub org σ'.db.toOrgTables := by
  obtain ⟨s, hs, hnone⟩ := hteam
  rcases h.row with e | ⟨-, s₁, s', hs₁, hs', hsame⟩
  · exact ⟨s, e.trans hs, hnone⟩
  · obtain rfl := List.singleton_inj.mp (hs.symm.trans hs₁)
    exact ⟨s', hs', hsame.userId.trans hnone⟩

omit [DecidableEq ι] in
/-- A step does not touch what another request knows. -/
theorem SeatStep.other (h : SeatStep org requests i σ κ σ' κ') {j : ι} (hj : j ≠ i)
    {κⱼ : SeatPhase} (hL : SeatLocal org j σ κⱼ) : SeatLocal org j σ' κⱼ := by
  -- while `j` holds the lock, the row stays and nobody joins
  have hheld : σ.lock = some j →
      σ'.db.activeSubsOf (.org org) = σ.db.activeSubsOf (.org org) ∧
        σ'.db.memberCount org ≤ σ.db.memberCount org := by
    intro hlock
    constructor
    · rcases h.row with e | ⟨hfree, -⟩
      · exact e
      · rw [hlock] at hfree
        cases hfree
    · rcases h.members with e | hi
      · exact e
      · exact absurd (Option.some.inj (hlock.symm.trans hi)) hj
  have hloaded : ∀ sub : Subscription, (∃ s ∈ σ.db.activeSubsOf (.org org), sub.SameRow s) →
      ∃ s ∈ σ'.db.activeSubsOf (.org org), sub.SameRow s := by
    rintro sub ⟨s, hs, hrow⟩
    rcases h.row with e | ⟨-, s₁, s', hs₁, hs', hsame⟩
    · exact ⟨s, e ▸ hs, hrow⟩
    · rw [hs₁] at hs
      obtain rfl := List.mem_singleton.mp hs
      exact ⟨s', by simp [hs'], hrow.id.trans hsame.id.symm,
        hrow.stripeCustomerId.trans hsame.stripeCustomerId.symm,
        hrow.userId.trans hsame.userId.symm, hrow.active⟩
  unfold SeatLocal at hL ⊢
  split at hL
  · obtain ⟨horg, hlock, hlimit⟩ := hL
    exact ⟨horg, h.lock j hj hlock, fun s hs => hlimit s ((hheld hlock).1 ▸ hs)⟩
  · obtain ⟨horg, hlock, hroom⟩ := hL
    refine ⟨horg, h.lock j hj hlock, fun s hs => ?_⟩
    have := (hheld hlock).2
    exact (Int.add_le_add_right this 1).trans (hroom s ((hheld hlock).1 ▸ hs))
  · exact hloaded _ hL
  · exact hloaded _ hL
  · exact hloaded _ hL
  · trivial

theorem seatInv_step (s : SeatSystem ι p) (l : ι × Timestamp) (s' : SeatSystem ι p)
    (hI : SeatInv org s) (h : Interleaving.step (seatAct org requests) s l = some s') :
    SeatInv org s' := by
  refine Interleaving.inv_step (fun i σ κ now σ' κ' hG hL hact => ?_)
    (fun i σ κ now σ' κ' hG hL hact j κⱼ hj hLj => ?_) s l s' hI h
  · have hstep := seatAct_step hG hL hact
    exact ⟨hstep.hasTeamSub hG, hstep.own⟩
  · exact (seatAct_step hG hL hact).other hj hLj

theorem seatCap_step (s : SeatSystem ι p) (l : ι × Timestamp) (s' : SeatSystem ι p)
    (hI : SeatInv org s) (hP : SeatCap org s.shared.db.toOrgTables)
    (h : Interleaving.step (seatAct org requests) s l = some s') :
    SeatCap org s'.shared.db.toOrgTables ↔ StepEnoughSeats org requests s l := by
  obtain ⟨i, now⟩ := l
  obtain ⟨σ', κ', hact, rfl⟩ := Interleaving.step_eq_some h
  exact (seatAct_step hI.shared (hI.procs i) hact).cap hP

/-- **The seat cap.**  Over any interleaving of any number of requests, an
organization with an active team subscription never has more members than
seats, exactly when at every write of seats it has no more members than the
seats that are written. -/
theorem seat_cap_iff {db : OrgDb p} (hteam : HasTeamSub org db.toOrgTables)
    (hcap : SeatCap org db.toOrgTables) (ls : List (ι × Timestamp)) :
    Runs.Always (Interleaving.step (seatAct org requests))
        (fun s => SeatCap org s.shared.db.toOrgTables) (seatInit ι db) ls ↔
      Runs.EachStep (Interleaving.step (seatAct org requests)) (StepEnoughSeats org requests)
        (seatInit ι db) ls :=
  Runs.always_iff_eachStep seatInv_step seatCap_step ⟨hteam, fun _ => trivial⟩ hcap

/-! ### A seat reduction and an acceptance at once -/

/-- A team of three with two members and an open invitation. -/
def seatTables : OrgTables where
  users := [⟨1, "ann@acme.io"⟩, ⟨2, "bob@acme.io"⟩]
  orgs := [⟨4, "Acme", "acme", some 1⟩]
  members := [⟨5, 4, 1, .owner, true⟩, ⟨6, 4, 2, .admin, false⟩]
  invitations := [⟨7, 4, "eve@acme.io", .member, "token", .pending, 1000⟩]
  customers := [⟨8, "cus_acme", .org 4⟩]
  subscriptions :=
    [{ id := 9, stripeId := some "sub_acme", stripeCustomerId := some 8, userId := none,
       status := .active, planId := 1, seatLimit := 3, trialEndsAt := none,
       currentPeriodStart := 0, currentPeriodEnd := 500, canceledAt := none, cancelAt := none,
       scheduledPlanId := none, scheduledChangeAt := none, currency := "usd", createdAt := 0 }]
  nextKey := 10

def seatDb : OrgDb wordPlatform := ⟨seatTables, by decide⟩

/-- The invitee accepts while the owner takes away the third seat. -/
def seatRequests : Fin 2 → SeatRequest
  | 0 => .updateSeatCount 1 true 2
  | 1 => .acceptInvitation "token"

theorem seat_cap_iff_sample :
    Runs.Always (Interleaving.step (seatAct 4 seatRequests))
        (fun s => SeatCap 4 s.shared.db.toOrgTables) (seatInit (Fin 2) seatDb)
        [(0, 1), (0, 2), (0, 3), (0, 4), (0, 5)] ↔
      Runs.EachStep (Interleaving.step (seatAct 4 seatRequests))
        (StepEnoughSeats 4 seatRequests) (seatInit (Fin 2) seatDb)
        [(0, 1), (0, 2), (0, 3), (0, 4), (0, 5)] :=
  seat_cap_iff ⟨seatTables.subscriptions.head (by decide), by decide, by decide⟩ (by decide) _

/-- The steps of the two: the reduction counts two members, then the
invitation is accepted, then the reduction is written. -/
def seatSteps : List (Fin 2 × Timestamp) :=
  [(0, 1), (0, 2), (0, 3), (0, 4), (1, 5), (1, 6), (1, 7), (1, 8), (1, 9), (0, 10)]

/-- The reduction counts before the acceptance and writes after it: three
members on two seats. -/
theorem reduction_overruns_seats :
    ((Runs.run (Interleaving.step (seatAct 4 seatRequests)) (seatInit (Fin 2) seatDb)
        seatSteps).map fun s => (s.shared.db.memberCount 4,
          s.shared.db.subscriptions.map Subscription.seatLimit)) = some (3, [2]) ∧
    ¬ Runs.Always (Interleaving.step (seatAct 4 seatRequests))
      (fun s => SeatCap 4 s.shared.db.toOrgTables) (seatInit (Fin 2) seatDb) seatSteps := by
  refine ⟨by decide, fun h => ?_⟩
  have hover : (Runs.run (Interleaving.step (seatAct 4 seatRequests)) (seatInit (Fin 2) seatDb)
      seatSteps).any (fun s => !decide (SeatCap 4 s.shared.db.toOrgTables)) = true := by decide
  obtain ⟨s, hs, hnot⟩ := (Option.any_eq_true _ _).mp hover
  simp [h.last hs] at hnot

end Saasmint
