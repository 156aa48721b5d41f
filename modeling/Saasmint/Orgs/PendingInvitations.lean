/-
Saasmint/Orgs/PendingInvitations.lean

The invitations of all organizations (apps/orgs/views.py): create, accept with
its expiry branch, decline and cancel, any number of them with their statements
in any order.

The users table tells accounts apart by the lower-cased email.  The check for a
PENDING invitation and its partial unique index compare the email as it was
typed.  So nobody holds two seats of an organization exactly when no INSERT
finds an invitation of the same person in another case, and none of the two
that race with an acceptance happens (`one_seat_per_person_iff`).  Two
acceptances are never of one person, since the second user is refused by the
users table.
-/
import Saasmint.Orgs.Invitations
import Saasmint.Orgs.Seats

namespace Saasmint

open PyStr

variable {p : Platform} {u : UnicodeTables} {ι : Type*}

inductive InvitationsRequest
  /-- The email and the role as the serializer leaves them. -/
  | create (org caller : UUID) (email : String) (role : AssignableRole) (token : String)
  /-- Whether the body passes the serializer. -/
  | accept (token : String) (valid : Bool)
  /-- With the invitation that the URL names, by its token. -/
  | decline (inv : Invitation) (email : String)
  /-- With the invitation that the URL names, by its key and its organization. -/
  | cancel (inv : Invitation) (caller : UUID)
  deriving DecidableEq, Repr

/-- Where a request is. -/
inductive InvitationsPhase
  /-- In the steps that take a seat. -/
  | seat (κ : SeatPhase)
  /-- In the steps that only write a status. -/
  | status (κ : InvitationCall)
  /-- The invitee has been admitted. -/
  | accepted (inv : Invitation)
  deriving DecidableEq, Repr

/-- The database, and who holds the lock on the team subscription of each
organization. -/
structure InvitationsShared (ι : Type*) (p : Platform) where
  db : OrgDb p
  locks : UUID → Option ι

namespace InvitationsShared

/-- What the requests to one organization share. -/
def seats (σ : InvitationsShared ι p) (org : UUID) : SeatShared ι p := ⟨σ.db, σ.locks org⟩

def setSeats (σ : InvitationsShared ι p) (org : UUID) (τ : SeatShared ι p) :
    InvitationsShared ι p :=
  ⟨τ.db, Function.update σ.locks org τ.lock⟩

end InvitationsShared

def InvitationsRequest.start : InvitationsRequest → InvitationsPhase
  | create .. | accept .. => .seat (.request .start)
  | decline .. | cancel .. => .status .start

section Steps

variable [DecidableEq ι] (i : ι) (σ : InvitationsShared ι p) (now : Timestamp)

/-- A step of InvitationAcceptView. -/
def acceptAct (token : String) (valid : Bool) :
    SeatPhase → Option (InvitationsShared ι p × InvitationsPhase)
  | .request (.unregistered inv) =>
    -- the body is looked at after the users
    if valid then
      (acceptInvitationAct inv.org i (σ.seats inv.org) now token (.request (.unregistered inv))).map
        fun x => (σ.setSeats inv.org x.1, .seat x.2)
    else some (σ, .seat (.failed .validationError))
  | .request κ =>
    ((OrgRequest.acceptInvitation token).step σ.db κ now).map fun x =>
      ({ σ with db := x.1 }, .seat (.request x.2))
  | .acceptLocked inv sub =>
    (acceptInvitationAct inv.org i (σ.seats inv.org) now token (.acceptLocked inv sub)).map
      fun x => (σ.setSeats inv.org x.1, .seat x.2)
  | .acceptCounted inv =>
    (acceptInvitationAct inv.org i (σ.seats inv.org) now token (.acceptCounted inv)).map fun x =>
      (σ.setSeats inv.org x.1, if x.2 = .done then .accepted inv else .seat x.2)
  | _ => none

variable (u) in
/-- A step of a request. -/
def invitationsAct (requests : ι → InvitationsRequest) (i : ι) (σ : InvitationsShared ι p)
    (κ : InvitationsPhase) (now : Timestamp) : Option (InvitationsShared ι p × InvitationsPhase) :=
  match requests i, κ with
  | .create org caller email role token, .seat κ =>
    (createInvitationAct org i (σ.seats org) now caller email role token κ).map fun x =>
      (σ.setSeats org x.1, .seat x.2)
  | .accept token valid, .seat κ => acceptAct i σ now token valid κ
  | .decline inv email, .status κ =>
    (invitationAct u inv (fun _ : Unit => .decline email) () σ.db κ now).map fun x =>
      ({ σ with db := x.1 }, .status x.2)
  | .cancel inv caller, .status κ =>
    (invitationAct u inv (fun _ : Unit => .cancel caller) () σ.db κ now).map fun x =>
      ({ σ with db := x.1 }, .status x.2)
  | _, _ => none

end Steps

abbrev InvitationsSystem (ι : Type*) (p : Platform) :=
  Interleaving.State ι (InvitationsShared ι p) InvitationsPhase

/-- No request has begun. -/
def invitationsInit (requests : ι → InvitationsRequest) (db : OrgDb p) : InvitationsSystem ι p :=
  ⟨⟨db, fun _ => none⟩, fun i => (requests i).start⟩

/-! ### What is claimed -/

/-- The person that an email stands for: the value of the account of
`create_user` under the unique index of the users table. -/
def Platform.person (p : Platform) (email : String) : String := p.lower (p.normalizeEmail email)

variable (p) in
/-- The organization and the person of a PENDING invitation. -/
def Invitation.pendingPerson (inv : Invitation) : Option (UUID × String) :=
  if inv.status = .pending then some (inv.org, p.person inv.email) else none

namespace OrgTables

variable (p) (t : OrgTables)

/-- The organization and the person of a membership. -/
def memberPerson (m : OrgMember) : Option (UUID × String) :=
  (t.users.find? fun user => user.id = m.user).map fun user => (m.org, p.lower user.email)

/-- The seats that `_validate_seat_limit` counts, one for each membership and each
PENDING invitation, with who holds them. -/
def seatsHeld : List (UUID × String) :=
  t.members.filterMap (t.memberPerson p) ++ t.invitations.filterMap (Invitation.pendingPerson p)

/-- The organization has invited the person, in another spelling. -/
def InvitedInOtherCase (org : UUID) (email : String) : Prop :=
  ∃ inv ∈ t.invitations, inv.pendingPerson p = some (org, p.person email) ∧ inv.email ≠ email

/-- The person is a member. -/
def HasMember (org : UUID) (email : String) : Prop :=
  ∃ m ∈ t.members, t.memberPerson p m = some (org, p.person email)

/-- The organization has invited the person again. -/
def InvitedAgain (inv : Invitation) : Prop :=
  ∃ other ∈ t.invitations, other.id ≠ inv.id ∧
    other.pendingPerson p = some (inv.org, p.person inv.email)

end OrgTables

/-- An organization has at most one PENDING invitation for a person, nobody holds two of its
seats, and no two acceptances are of one person. -/
structure OneSeatPerPerson (s : InvitationsSystem ι p) : Prop where
  pending : Table.Unique (Invitation.pendingPerson p) s.shared.db.invitations
  seats : (s.shared.db.seatsHeld p).Nodup
  accepted : ∀ i j a b, i ≠ j → s.procs i = .accepted a → s.procs j = .accepted b →
    p.person a.email ≠ p.person b.email

/-- An INSERT of an invitation that goes through finds the person neither invited in
another case nor a member; an acceptance that goes through finds no second
invitation. -/
def TakesFreeSeat (db : OrgDb p) (now : Timestamp) : InvitationsRequest → InvitationsPhase → Prop
  | .create org _ email role token, .seat .createCounted =>
    ∀ db', OrgDb.commit p (db.insertInvitation org email role token now) = .ok db' →
      ¬ db.InvitedInOtherCase p org email ∧ ¬ db.HasMember p org email
  | .accept _ _, .seat (.acceptCounted inv) =>
    ∀ db', db.admitInvitee inv = .ok db' → ¬ db.InvitedAgain p inv
  | _, _ => True

/-- The step of a run. -/
def StepTakesFreeSeat (requests : ι → InvitationsRequest) (s : InvitationsSystem ι p)
    (l : ι × Timestamp) : Prop :=
  TakesFreeSeat s.shared.db l.2 (requests l.1) (s.procs l.1)

/-! ### The seats after a write -/

theorem OrgDb.memberPerson_unique (db : OrgDb p) :
    Table.Unique (db.memberPerson p) db.members := by
  have hc := db.constraints
  refine Table.unique_iff_pairwise.mpr ?_
  have huniq := Table.unique_iff_pairwise.mp hc.org_members_org_user_uniq
  refine huniq.imp fun {a b} hab v hv hw => ?_
  obtain ⟨x, hx, rfl⟩ := Option.map_eq_some_iff.mp hv
  obtain ⟨y, hy, heq⟩ := Option.map_eq_some_iff.mp hw
  obtain ⟨horg, hlower⟩ := Prod.mk.inj heq
  -- the users are one, so the memberships are
  obtain rfl := hc.uniq_users_lower_email.inj (List.mem_of_find?_eq_some hx)
    (List.mem_of_find?_eq_some hy) rfl (congrArg some hlower)
  have hxa : x.id = a.user := by simpa using List.find?_some hx
  have hxb : x.id = b.user := by simpa using List.find?_some hy
  exact hab _ rfl (by rw [horg, ← hxa, ← hxb])

/-- Nobody holds two seats exactly when nobody is invited twice, or invited and a
member. -/
theorem OrgDb.seatsHeld_nodup_iff (db : OrgDb p) :
    (db.seatsHeld p).Nodup ↔ Table.Unique (Invitation.pendingPerson p) db.invitations ∧
      ∀ m ∈ db.members, ∀ inv ∈ db.invitations, ∀ v, db.memberPerson p m = some v →
        inv.pendingPerson p ≠ some v := by
  unfold OrgTables.seatsHeld Table.Unique
  rw [List.nodup_append']
  constructor
  · rintro ⟨-, hpending, hdisj⟩
    refine ⟨hpending, fun m hm inv hinv v hv hw => ?_⟩
    exact hdisj (List.mem_filterMap.mpr ⟨m, hm, hv⟩) (List.mem_filterMap.mpr ⟨inv, hinv, hw⟩)
  · rintro ⟨hpending, hdisj⟩
    refine ⟨db.memberPerson_unique, hpending, fun v hv hw => ?_⟩
    obtain ⟨m, hm, hv⟩ := List.mem_filterMap.mp hv
    obtain ⟨inv, hinv, hw⟩ := List.mem_filterMap.mp hw
    exact hdisj m hm inv hinv v hv hw

/-- Who is on the list of seats. -/
theorem OrgTables.mem_seatsHeld {t : OrgTables} {org : UUID} {email : String} :
    (org, p.person email) ∈ t.seatsHeld p ↔ t.HasMember p org email ∨
      ∃ inv ∈ t.invitations, inv.pendingPerson p = some (org, p.person email) := by
  unfold seatsHeld HasMember
  rw [List.mem_append, List.mem_filterMap, List.mem_filterMap]

/-- A status other than PENDING gives seats up. -/
theorem seatsHeld_updateInvitation (t : OrgTables) (id : UUID) {status : InvitationStatus}
    (h : status ≠ .pending) :
    ((t.updateInvitation id status).seatsHeld p).Sublist (t.seatsHeld p) := by
  refine (List.Sublist.refl _).append ?_
  show (List.filterMap _ (Table.update _ _ _ _)).Sublist _
  unfold Table.update
  rw [List.filterMap_map]
  refine Table.filterMap_sublist fun inv => ?_
  by_cases hid : inv.id = id
  · right
    simp [hid, Invitation.pendingPerson, h]
  · left
    simp [hid]

theorem seatsHeld_insertInvitation (t : OrgTables) (org : UUID) (email : String)
    (role : AssignableRole) (token : String) (now : Timestamp) :
    (t.insertInvitation org email role token now).seatsHeld p
      = t.seatsHeld p ++ [(org, p.person email)] := by
  show t.members.filterMap _ ++ (t.invitations ++ [_]).filterMap _ = _
  rw [List.filterMap_append, ← List.append_assoc]
  rfl

/-- A new invitation takes a free seat exactly when its person is not invited in another
spelling and is not a member; the same spelling is refused. -/
theorem OrgDb.seatsHeld_insert_iff {db db' : OrgDb p} {org : UUID} {email token : String}
    {role : AssignableRole} {now : Timestamp} (hseats : (db.seatsHeld p).Nodup)
    (h : db'.toOrgTables = db.insertInvitation org email role token now) :
    (db'.seatsHeld p).Nodup ↔
      ¬ db.InvitedInOtherCase p org email ∧ ¬ db.HasMember p org email := by
  rw [h, seatsHeld_insertInvitation, List.nodup_append_comm, List.singleton_append,
    List.nodup_cons, OrgTables.mem_seatsHeld]
  constructor
  · rintro ⟨hnot, -⟩
    exact ⟨fun ⟨inv, hinv, hperson, _⟩ => hnot (Or.inr ⟨inv, hinv, hperson⟩),
      fun hm => hnot (Or.inl hm)⟩
  · rintro ⟨hcase, hmember⟩
    refine ⟨?_, hseats⟩
    rintro (hm | ⟨inv, hinv, hperson⟩)
    · exact hmember hm
    · refine hcase ⟨inv, hinv, hperson, ?_⟩
      -- the index would refuse the spelling of the one that is there
      rintro rfl
      have hstatus : inv.status = .pending ∧ inv.org = org := by
        unfold Invitation.pendingPerson at hperson
        split at hperson
        case isTrue hp => exact ⟨hp, (Prod.mk.inj (Option.some.inj hperson)).1⟩
        case isFalse => cases hperson
      have huniq := db'.constraints.idx_invitations_org_email_pending
      rw [h] at huniq
      have hold : inv ∈ (db.insertInvitation org inv.email role token now).invitations :=
        List.mem_append_left _ hinv
      have hnew :
          (⟨db.nextKey, org, inv.email, role, token, .pending, now + 7 * 86400⟩ : Invitation)
          ∈ (db.insertInvitation org inv.email role token now).invitations :=
        List.mem_append_right _ (List.mem_singleton.mpr rfl)
      have hsame := huniq.inj hold hnew (v := (org, inv.email))
        (by simp [Invitation.pendingFor, hstatus]) (by simp [Invitation.pendingFor])
      have hlt := db.constraints.new_invitation inv hinv
      rw [hsame] at hlt
      exact absurd hlt (Nat.lt_irrefl _)

/-- A membership that was there is of whom it was. -/
theorem OrgDb.memberPerson_insertInvitee (db : OrgDb p) (inv : Invitation) {m : OrgMember}
    (hm : m ∈ db.members) : (db.insertInvitee p inv).memberPerson p m = db.memberPerson p m := by
  obtain ⟨user, huser, hid⟩ := db.constraints.member_user m hm
  have hfound : (db.users.find? fun user => user.id = m.user).isSome = true :=
    List.find?_isSome.mpr ⟨user, huser, decide_eq_true hid⟩
  obtain ⟨x, hx⟩ := Option.isSome_iff_exists.mp hfound
  unfold OrgTables.memberPerson
  show ((db.users ++ [_]).find? _).map _ = _
  rw [List.find?_append, hx]
  rfl

/-- The new membership is the invitee's. -/
theorem OrgDb.memberPerson_invitee (db : OrgDb p) (inv : Invitation) :
    (db.insertInvitee p inv).memberPerson p
        ⟨db.nextKey + 1, inv.org, db.nextKey, inv.role.toRole, false⟩
      = some (inv.org, p.person inv.email) := by
  have hnone : (db.users.find? fun user => user.id = db.nextKey) = none := by
    refine List.find?_eq_none.mpr fun user huser => ?_
    have := db.constraints.new_user user huser
    simp [this.ne]
  unfold OrgTables.memberPerson
  show ((db.users ++ [_]).find? _).map _ = _
  rw [List.find?_append, hnone]
  simp [Platform.person]

/-- An acceptance gives a free seat exactly when its person has no second invitation. -/
theorem OrgDb.seatsHeld_admit_iff {db db' : OrgDb p} {inv : Invitation}
    (hseats : (db.seatsHeld p).Nodup) (h : db'.toOrgTables = db.insertInvitee p inv) :
    (db'.seatsHeld p).Nodup ↔ ¬ db.InvitedAgain p inv := by
  obtain ⟨hunique, hdisj⟩ := db.seatsHeld_nodup_iff.mp hseats
  have hmembers : db'.members = db.members
      ++ [⟨db.nextKey + 1, inv.org, db.nextKey, inv.role.toRole, false⟩] := by
    rw [h]
    rfl
  have hinvitations : db'.invitations = Table.update Invitation.id inv.id
      (fun i => { i with status := .accepted }) db.invitations := by
    rw [h]
    rfl
  rw [db'.seatsHeld_nodup_iff, hmembers, hinvitations, h]
  constructor
  · rintro ⟨-, hdisj'⟩ ⟨other, hother, hid, hperson⟩
    refine hdisj' _ (List.mem_append_right _ (List.mem_singleton.mpr rfl)) other ?_ _
      (db.memberPerson_invitee inv) hperson
    exact Table.mem_update.mpr (Or.inl ⟨hother, hid⟩)
  · intro hagain
    constructor
    · refine hunique.map fun i => ?_
      by_cases hid : i.id = inv.id
      · right
        simp [hid, Invitation.pendingPerson]
      · left
        simp [hid]
    · intro m hm other hother v hv hw
      -- only the other invitations are still PENDING
      rcases Table.mem_update.mp hother with ⟨hother, hid⟩ | ⟨i, -, -, rfl⟩
      · rcases List.mem_append.mp hm with hm | hm
        · rw [db.memberPerson_insertInvitee inv hm] at hv
          exact hdisj m hm other hother v hv hw
        · obtain rfl := List.mem_singleton.mp hm
          rw [db.memberPerson_invitee] at hv
          exact hagain ⟨other, hother, hid, by rw [hw, hv]⟩
      · simp [Invitation.pendingPerson] at hw

/-! ### Steps -/

variable {i : ι} {σ σ' : InvitationsShared ι p} {κ κ' : InvitationsPhase} {now : Timestamp}

/-- What a step of a request leaves. -/
inductive InvitationsStep (r : InvitationsRequest) (σ : InvitationsShared ι p)
    (κ : InvitationsPhase) (now : Timestamp) (σ' : InvitationsShared ι p) (κ' : InvitationsPhase) :
    Prop
  | quiet (hdb : σ'.db = σ.db) (hκ' : ∀ inv, κ' ≠ .accepted inv)
      (hfree : TakesFreeSeat σ.db now r κ)
  | closed (id : UUID) (status : InvitationStatus) (hstatus : status ≠ .pending)
      (hdb : σ'.db.toOrgTables = σ.db.updateInvitation id status)
      (hκ' : ∀ inv, κ' ≠ .accepted inv) (hfree : TakesFreeSeat σ.db now r κ)
  | created (org caller : UUID) (email : String) (role : AssignableRole) (token : String)
      (hr : r = .create org caller email role token) (hκ : κ = .seat .createCounted)
      (hκ' : ∀ inv, κ' ≠ .accepted inv)
      (hok : OrgDb.commit p (σ.db.insertInvitation org email role token now) = .ok σ'.db)
  | admitted (inv : Invitation) (token : String) (valid : Bool) (hr : r = .accept token valid)
      (hκ : κ = .seat (.acceptCounted inv)) (hκ' : κ' = .accepted inv)
      (hok : σ.db.admitInvitee inv = .ok σ'.db)

/-- A transaction that does not commit leaves the database. -/
theorem SeatShared.finish_cases [DecidableEq ι] {τ τ' : SeatShared ι p} {κ : SeatPhase}
    {res : Except OrgError (OrgDb p)} (h : τ.finish i res = (τ', κ)) :
    (∃ e, res = .error e ∧ τ'.db = τ.db ∧ κ = .failed e) ∨ res = .ok τ'.db ∧ κ = .done := by
  rcases res with e | db
  · cases h
    exact Or.inl ⟨e, rfl, rfl, rfl⟩
  · cases h
    exact Or.inr ⟨rfl, rfl⟩

theorem SeatShared.lockActiveTeamSub_db [DecidableEq ι] {τ τ' : SeatShared ι p} {org : UUID}
    {κ κ' : SeatPhase} {locked : Subscription → SeatPhase}
    (h : τ.lockActiveTeamSub org i κ locked = some (τ', κ')) :
    τ'.db = τ.db ∧ (κ' = κ ∨ ∃ sub, κ' = locked sub) := by
  unfold SeatShared.lockActiveTeamSub at h
  split at h
  · cases h
    exact ⟨rfl, Or.inl rfl⟩
  · split at h
    · cases h
      exact ⟨rfl, Or.inr ⟨_, rfl⟩⟩
    · cases h

/-- A step of a creation inserts its invitation, or writes nothing. -/
theorem createInvitationAct_cases [DecidableEq ι] {org caller : UUID} {τ τ' : SeatShared ι p}
    {email token : String} {role : AssignableRole} {κ κ' : SeatPhase}
    (h : createInvitationAct org i τ now caller email role token κ = some (τ', κ')) :
    (τ'.db = τ.db ∧ (κ = .createCounted → ∃ e,
        OrgDb.commit p (τ.db.insertInvitation org email role token now) = .error e)) ∨
      κ = .createCounted ∧
        OrgDb.commit p (τ.db.insertInvitation org email role token now) = .ok τ'.db := by
  unfold createInvitationAct at h
  split at h
  · cases h
    exact Or.inl ⟨rfl, fun h => by cases h⟩
  · cases h
    exact Or.inl ⟨rfl, fun h => by cases h⟩
  · cases h
    exact Or.inl ⟨rfl, fun h => by cases h⟩
  · exact Or.inl ⟨(SeatShared.lockActiveTeamSub_db h).1, fun h => by cases h⟩
  · dsimp only at h
    split at h
    · cases h
      exact Or.inl ⟨rfl, fun h => by cases h⟩
    · cases h
      exact Or.inl ⟨rfl, fun h => by cases h⟩
  · rcases SeatShared.finish_cases (Option.some.inj h) with ⟨e, he, hdb, -⟩ | ⟨hok, -⟩
    · exact Or.inl ⟨hdb, fun _ => ⟨e, he⟩⟩
    · exact Or.inr ⟨rfl, hok⟩
  · cases h

/-- The steps that an acceptance shares with the other requests on members expire an
invitation, or write nothing. -/
theorem acceptRequest_cases {token : String} {db db' : OrgDb p} {κ κ' : RequestState}
    (hκ : ∀ inv, κ ≠ .unregistered inv)
    (h : (OrgRequest.acceptInvitation token).step db κ now = some (db', κ')) :
    db' = db ∨ ∃ id, db'.toOrgTables = db.updateInvitation id .expired := by
  have hact : requestAct (fun _ : Unit => .acceptInvitation token) () db κ now
      = some (db', κ') := h
  rcases requestAct_cases hact with ⟨rfl, -, -⟩ | ⟨e, κ₁, rfl, -, -⟩ | hw
  · exact Or.inl rfl
  · exact Or.inl rfl
  · cases κ with
    | expiring inv =>
      obtain ⟨hok, -⟩ := Prod.mk.inj (Option.some.inj hw)
      exact Or.inr ⟨inv.id, (OrgDb.saveInvitation_eq_ok.mp hok).2⟩
    | unregistered inv => exact absurd rfl (hκ inv)
    | _ => cases hw

/-- A decline or a cancellation gives its invitation a status other than PENDING, or writes
nothing. -/
theorem invitationAct_write {r : InvitationRequest} {inv : Invitation} {db db' : OrgDb p}
    {κ κ' : InvitationCall} (hr : ∀ valid, r ≠ .accept valid)
    (h : invitationAct u inv (fun _ : Unit => r) () db κ now = some (db', κ')) :
    db' = db ∨ ∃ id status, status ≠ .pending ∧
      db'.toOrgTables = db.updateInvitation id status := by
  rcases invitationAct_cases h with ⟨rfl, -, -⟩ | ⟨e, κ₁, rfl, -, -⟩ | hw
  · exact Or.inl rfl
  · exact Or.inl rfl
  · right
    unfold InvitationRequest.write at hw
    split at hw
    · exact absurd rfl (hr _)
    · exact absurd rfl (hr _)
    · obtain ⟨hok, -⟩ := Prod.mk.inj (Option.some.inj hw)
      exact ⟨_, .declined, by simp, (OrgDb.saveInvitation_eq_ok.mp hok).2⟩
    · obtain ⟨hok, -⟩ := Prod.mk.inj (Option.some.inj hw)
      exact ⟨_, .cancelled, by simp, (OrgDb.saveInvitation_eq_ok.mp hok).2⟩
    · cases hw

theorem status_step {r : InvitationsRequest} {q : InvitationRequest} {inv : Invitation}
    {κ : InvitationCall} (hq : ∀ valid, q ≠ .accept valid)
    (hfree : TakesFreeSeat σ.db now r (.status κ))
    (h : ((invitationAct u inv (fun _ : Unit => q) () σ.db κ now).map fun x =>
      ({ σ with db := x.1 }, InvitationsPhase.status x.2)) = some (σ', κ')) :
    InvitationsStep r σ (.status κ) now σ' κ' := by
  obtain ⟨⟨db', κ₁⟩, hact, heq⟩ := Option.map_eq_some_iff.mp h
  obtain ⟨rfl, rfl⟩ := Prod.mk.inj heq
  rcases invitationAct_write hq hact with rfl | ⟨id, status, hstatus, hdb⟩
  · exact .quiet rfl (fun inv h => by cases h) hfree
  · exact .closed id status hstatus hdb (fun inv h => by cases h) hfree

/-- Whoever has been admitted has an account. -/
def AcceptedHaveAccounts (s : InvitationsSystem ι p) : Prop :=
  ∀ i inv, s.procs i = .accepted inv →
    ∃ user ∈ s.shared.db.users, p.lower user.email = p.person inv.email

/-- Accounts stay. -/
theorem InvitationsStep.users {r : InvitationsRequest} (h : InvitationsStep r σ κ now σ' κ') :
    σ.db.users ⊆ σ'.db.users := by
  cases h with
  | quiet hdb => rw [hdb]; exact List.Subset.refl _
  | closed id status _ hdb => rw [hdb]; exact List.Subset.refl _
  | created _ _ _ _ _ _ _ _ hok => rw [OrgDb.commit_eq_ok.mp hok]; exact List.Subset.refl _
  | admitted inv _ _ _ _ _ hok =>
    rw [(OrgDb.admitInvitee_eq_ok.mp hok).2]
    exact List.subset_append_left _ _

/-- A request comes to `accepted` by its transaction. -/
theorem InvitationsStep.admits {r : InvitationsRequest} {inv : Invitation}
    (h : InvitationsStep r σ κ now σ' (.accepted inv)) :
    σ'.db.toOrgTables = σ.db.insertInvitee p inv := by
  cases h with
  | quiet _ hnot => exact absurd rfl (hnot inv)
  | closed _ _ _ _ hnot => exact absurd rfl (hnot inv)
  | created _ _ _ _ _ _ _ hnot => exact absurd rfl (hnot inv)
  | admitted a _ _ _ _ ha hok =>
    cases ha
    exact (OrgDb.admitInvitee_eq_ok.mp hok).2

/-- An acceptance that goes through is the first of its person. -/
theorem InvitationsStep.first {r : InvitationsRequest} {s : InvitationsSystem ι p}
    {inv : Invitation} (hI : AcceptedHaveAccounts s)
    (h : InvitationsStep r s.shared κ now σ' (.accepted inv)) {j : ι} {b : Invitation}
    (hj : s.procs j = .accepted b) : p.person inv.email ≠ p.person b.email := by
  intro heq
  obtain ⟨user, huser, hperson⟩ := hI j b hj
  exact OrgDb.not_insertInvitee huser (hperson.trans heq.symm) h.admits

/-- A step keeps the seats apart exactly when it takes a free one. -/
theorem InvitationsStep.seats {r : InvitationsRequest} (hseats : (σ.db.seatsHeld p).Nodup)
    (h : InvitationsStep r σ κ now σ' κ') :
    (σ'.db.seatsHeld p).Nodup ↔ TakesFreeSeat σ.db now r κ := by
  cases h with
  | quiet hdb _ hfree => exact iff_of_true (hdb ▸ hseats) hfree
  | closed id status hstatus hdb _ hfree =>
    refine iff_of_true ?_ hfree
    rw [hdb]
    exact hseats.sublist (seatsHeld_updateInvitation _ id hstatus)
  | created org caller email role token hr hκ _ hok =>
    subst hr hκ
    have hiff := OrgDb.seatsHeld_insert_iff hseats (OrgDb.commit_eq_ok.mp hok)
    exact hiff.trans ⟨fun hfree _ _ => hfree, fun hfree => hfree _ hok⟩
  | admitted inv token valid hr hκ _ hok =>
    subst hr hκ
    have hiff := OrgDb.seatsHeld_admit_iff hseats (OrgDb.admitInvitee_eq_ok.mp hok).2
    exact hiff.trans ⟨fun hfree _ _ => hfree, fun hfree => hfree _ hok⟩

section Acts

variable [DecidableEq ι] {requests : ι → InvitationsRequest}

theorem create_step {org caller : UUID} {email token : String} {role : AssignableRole}
    {κ : SeatPhase}
    (h : ((createInvitationAct org i (σ.seats org) now caller email role token κ).map fun x =>
      (σ.setSeats org x.1, InvitationsPhase.seat x.2)) = some (σ', κ')) :
    InvitationsStep (.create org caller email role token) σ (.seat κ) now σ' κ' := by
  obtain ⟨⟨τ, κ₁⟩, hact, heq⟩ := Option.map_eq_some_iff.mp h
  obtain ⟨rfl, rfl⟩ := Prod.mk.inj heq
  rcases createInvitationAct_cases hact with ⟨hdb, herr⟩ | ⟨rfl, hok⟩
  · refine .quiet hdb (fun inv h => by cases h) ?_
    cases κ with
    | createCounted =>
      obtain ⟨e, he⟩ := herr rfl
      intro db' hok
      cases he.symm.trans hok
    | _ => trivial
  · exact .created org caller email role token rfl rfl (fun inv h => by cases h) hok

theorem accept_step {token : String} {valid : Bool} {κ : SeatPhase}
    (h : acceptAct i σ now token valid κ = some (σ', κ')) :
    InvitationsStep (.accept token valid) σ (.seat κ) now σ' κ' := by
  unfold acceptAct at h
  split at h
  · -- the lock
    split at h
    · obtain ⟨⟨τ, κ₁⟩, hact, heq⟩ := Option.map_eq_some_iff.mp h
      obtain ⟨rfl, rfl⟩ := Prod.mk.inj heq
      unfold acceptInvitationAct at hact
      simp only [if_true] at hact
      exact .quiet (SeatShared.lockActiveTeamSub_db hact).1 (fun inv h => by cases h) trivial
    · cases h
      exact .quiet rfl (fun inv h => by cases h) trivial
  · rename_i κ₀ hκ
    obtain ⟨⟨db', κ₁⟩, hact, heq⟩ := Option.map_eq_some_iff.mp h
    obtain ⟨rfl, rfl⟩ := Prod.mk.inj heq
    rcases acceptRequest_cases (fun inv e => hκ inv e) hact with rfl | ⟨id, hdb⟩
    · exact .quiet rfl (fun inv h => by cases h) trivial
    · exact .closed id .expired (by simp) hdb (fun inv h => by cases h) trivial
  · -- the count
    obtain ⟨⟨τ, κ₁⟩, hact, heq⟩ := Option.map_eq_some_iff.mp h
    obtain ⟨rfl, rfl⟩ := Prod.mk.inj heq
    refine .quiet ?_ (fun inv h => by cases h) trivial
    unfold acceptInvitationAct at hact
    dsimp only at hact
    split at hact
    · cases hact
      rfl
    · cases hact
      rfl
  · -- the transaction ends
    rename_i inv
    obtain ⟨⟨τ, κ₁⟩, hact, heq⟩ := Option.map_eq_some_iff.mp h
    obtain ⟨rfl, rfl⟩ := Prod.mk.inj heq
    rcases SeatShared.finish_cases (Option.some.inj hact) with ⟨e, he, hdb, rfl⟩ | ⟨hok, rfl⟩
    · refine .quiet hdb (fun inv h => ?_) (fun db' hok => ?_)
      · simp at h
      · cases he.symm.trans hok
    · exact .admitted inv token valid rfl rfl (by simp) hok
  · cases h

/-- Every step is one of the four. -/
theorem invitationsAct_step (h : invitationsAct u requests i σ κ now = some (σ', κ')) :
    InvitationsStep (requests i) σ κ now σ' κ' := by
  unfold invitationsAct at h
  split at h
  case h_1 hr => exact hr ▸ create_step h
  case h_2 hr => exact hr ▸ accept_step h
  case h_3 hr => exact hr ▸ status_step (fun valid h => by cases h) trivial h
  case h_4 hr => exact hr ▸ status_step (fun valid h => by cases h) trivial h
  case h_5 => cases h

/-! ### Runs -/

theorem acceptedHaveAccounts_step (s : InvitationsSystem ι p) (l : ι × Timestamp)
    (s' : InvitationsSystem ι p) (hI : AcceptedHaveAccounts s)
    (h : Interleaving.step (invitationsAct u requests) s l = some s') :
    AcceptedHaveAccounts s' := by
  obtain ⟨i, now⟩ := l
  obtain ⟨σ', κ', hact, rfl⟩ := Interleaving.step_eq_some h
  have hstep := invitationsAct_step hact
  intro j inv hj
  by_cases hji : j = i
  · subst hji
    have hκ' : κ' = .accepted inv := by simpa using hj
    rw [hκ'] at hstep
    refine ⟨⟨s.shared.db.nextKey, p.normalizeEmail inv.email⟩, ?_, rfl⟩
    show _ ∈ σ'.db.users
    rw [hstep.admits]
    exact List.mem_append_right _ (List.mem_singleton.mpr rfl)
  · obtain ⟨user, huser, hperson⟩ := hI j inv (by simpa [hji] using hj)
    exact ⟨user, hstep.users huser, hperson⟩

/-- Acceptances stay of different persons. -/
theorem accepted_step {s : InvitationsSystem ι p} (hI : AcceptedHaveAccounts s)
    (hP : OneSeatPerPerson s) {r : InvitationsRequest}
    (h : InvitationsStep r s.shared (s.procs i) now σ' κ') :
    ∀ j k a b, j ≠ k → Function.update s.procs i κ' j = .accepted a →
      Function.update s.procs i κ' k = .accepted b → p.person a.email ≠ p.person b.email := by
  intro j k a b hjk hj hk
  by_cases hji : j = i
  · subst hji
    have hκ' : κ' = .accepted a := by simpa using hj
    have hk' : s.procs k = .accepted b := by simpa [Ne.symm hjk] using hk
    rw [hκ'] at h
    exact h.first hI hk'
  · have hj' : s.procs j = .accepted a := by simpa [hji] using hj
    by_cases hki : k = i
    · subst hki
      have hκ' : κ' = .accepted b := by simpa using hk
      rw [hκ'] at h
      exact (h.first hI hj').symm
    · exact hP.accepted j k a b hjk hj' (by simpa [hki] using hk)

theorem oneSeatPerPerson_step (s : InvitationsSystem ι p) (l : ι × Timestamp)
    (s' : InvitationsSystem ι p) (hI : AcceptedHaveAccounts s) (hP : OneSeatPerPerson s)
    (h : Interleaving.step (invitationsAct u requests) s l = some s') :
    OneSeatPerPerson s' ↔ StepTakesFreeSeat requests s l := by
  obtain ⟨i, now⟩ := l
  obtain ⟨σ', κ', hact, rfl⟩ := Interleaving.step_eq_some h
  have hstep := invitationsAct_step hact
  rw [StepTakesFreeSeat, ← hstep.seats hP.seats]
  constructor
  · exact fun hP' => hP'.seats
  · intro hseats
    exact ⟨(σ'.db.seatsHeld_nodup_iff.mp hseats).1, hseats, accepted_step hI hP hstep⟩

/-- **One seat for one person.**  Over any interleaving of any number of requests
on invitations, an organization has at most one PENDING invitation for a person and
nobody holds two of its seats, exactly when each INSERT and each acceptance takes a free
seat.  Two acceptances are never of one person. -/
theorem one_seat_per_person_iff {db : OrgDb p} (hseats : (db.seatsHeld p).Nodup)
    (ls : List (ι × Timestamp)) :
    Runs.Always (Interleaving.step (invitationsAct u requests)) OneSeatPerPerson
        (invitationsInit requests db) ls ↔
      Runs.EachStep (Interleaving.step (invitationsAct u requests)) (StepTakesFreeSeat requests)
        (invitationsInit requests db) ls := by
  have hstart : ∀ i inv, (invitationsInit requests db).procs i ≠ .accepted inv := by
    intro i inv h
    change (requests i).start = _ at h
    cases hr : requests i <;> rw [hr] at h <;> cases h
  refine Runs.always_iff_eachStep acceptedHaveAccounts_step oneSeatPerPerson_step ?_ ?_
  · exact fun i inv h => absurd h (hstart i inv)
  · exact ⟨(db.seatsHeld_nodup_iff.mp hseats).1, hseats, fun i j a b _ h => absurd h (hstart i a)⟩

end Acts

/-! ### An invitation in two spellings -/

/-- A team of three with one member. -/
def threeSeatTables : OrgTables where
  users := [⟨1, "ann@acme.io"⟩]
  orgs := [⟨2, "Acme", "acme", some 1⟩]
  members := [⟨3, 2, 1, .owner, true⟩]
  invitations := []
  customers := [⟨4, "cus_acme", .org 2⟩]
  subscriptions :=
    [{ id := 5, stripeId := some "sub_acme", stripeCustomerId := some 4, userId := none,
       status := .active, planId := 1, seatLimit := 3, trialEndsAt := none,
       currentPeriodStart := 0, currentPeriodEnd := 500, canceledAt := none, cancelAt := none,
       scheduledPlanId := none, scheduledChangeAt := none, currency := "usd", createdAt := 0 }]
  nextKey := 6

def threeSeatDb : OrgDb wordPlatform := ⟨threeSeatTables, by decide⟩

/-- The owner invites one person under two spellings, and then another. -/
def twoSpellings : Fin 3 → InvitationsRequest
  | 0 => .create 2 1 "eve@acme.io" .member "first"
  | 1 => .create 2 1 "Eve@acme.io" .member "second"
  | 2 => .create 2 1 "bob@acme.io" .member "third"

/-- One request after the other. -/
def twoSpellingsSteps : List (Fin 3 × Timestamp) :=
  List.replicate 6 (0, 1) ++ List.replicate 6 (1, 2) ++ List.replicate 5 (2, 3)

theorem one_seat_per_person_iff_acme :
    Runs.Always (Interleaving.step (invitationsAct PyStr.asciiTables twoSpellings))
        OneSeatPerPerson (invitationsInit twoSpellings threeSeatDb) (List.replicate 6 (0, 1)) ↔
      Runs.EachStep (Interleaving.step (invitationsAct PyStr.asciiTables twoSpellings))
        (StepTakesFreeSeat twoSpellings) (invitationsInit twoSpellings threeSeatDb)
        (List.replicate 6 (0, 1)) :=
  one_seat_per_person_iff (by decide) _

/-- Both invitations are PENDING, and the third finds no seat. -/
theorem two_spellings_hold_two_seats :
    ((Runs.run (Interleaving.step (invitationsAct PyStr.asciiTables twoSpellings))
        (invitationsInit twoSpellings threeSeatDb) twoSpellingsSteps).map fun s =>
          (s.shared.db.seatsHeld wordPlatform, s.procs 2)) =
      some ([(2, "ann@acme.io"), (2, "eve@acme.io"), (2, "eve@acme.io")],
        .seat (.failed .seatLimitReached)) ∧
    ¬ Runs.Always (Interleaving.step (invitationsAct PyStr.asciiTables twoSpellings))
        OneSeatPerPerson (invitationsInit twoSpellings threeSeatDb) twoSpellingsSteps := by
  refine ⟨by decide, fun h => ?_⟩
  have htwo : (Runs.run (Interleaving.step (invitationsAct PyStr.asciiTables twoSpellings))
      (invitationsInit twoSpellings threeSeatDb) twoSpellingsSteps).any
        (fun s => !decide (s.shared.db.seatsHeld wordPlatform).Nodup) = true := by decide
  obtain ⟨s, hs, hnot⟩ := (Option.any_eq_true _ _).mp htwo
  simp [(h.last hs).seats] at hnot

end Saasmint
