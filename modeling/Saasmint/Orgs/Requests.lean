/-
Saasmint/Orgs/Requests.lean

The requests that change memberships (apps/orgs/views.py, the team checkout
webhook, apps/users/views.py), each as its reads and then its writes: a step of
a request is one read or one write, and any number of requests interleave.

`requestAct_cases` says what a step can do, `requestAct_extends` that a row
keeps its organization and its user for as long as it exists.
-/
import Saasmint.Lib.Interleaving
import Saasmint.Orgs.Services

namespace Saasmint

variable {p : Platform}

inductive OrgRequest
  /-- The webhook of a completed team checkout. -/
  | teamCheckout (user : UUID) (orgName stripeCustomerId : String)
  | patchMember (caller org member : UUID) (role : Option AssignableRole)
      (isBilling : Option Bool)
  | deleteMember (caller org member : UUID)
  | transferOwnership (caller org target : UUID)
  | acceptInvitation (token : String)
  | deleteAccount (user : UUID)
  deriving DecidableEq, Repr

/-- Where a request is, with what it has read. -/
inductive RequestState
  | start
  | readCaller (caller : OrgMember)
  | readTarget (caller target : OrgMember)
  | userLoaded
  | slugged (slug : String)
  | expiring (inv : Invitation)
  | invited (inv : Invitation)
  | unregistered (inv : Invitation)
  | accountLoaded (customer : Option UUID)
  | customerDeleted
  | orgsRead (orgIds : List UUID)
  | usersRead (orgIds userIds : List UUID)
  | orgsDeleted
  | membershipsDeleted
  | done
  | failed (e : OrgError)
  deriving DecidableEq, Repr

namespace OrgRequest

/-- The organization of a request on members. -/
def memberOrg : OrgRequest → Option UUID
  | patchMember _ org _ _ _ | deleteMember _ org _ | transferOwnership _ org _ => some org
  | _ => none

/-- The first read of a request on members. -/
def callerRead (t : OrgTables) (caller org : UUID) (allowedRoles : List OrgRole) : RequestState :=
  match t.getOrgAndMember caller org allowedRoles with
  | .ok m => .readCaller m
  | .error e => .failed e

/-- The second read of a request on members, and the checks that follow. -/
def targetRead (t : OrgTables) (caller : OrgMember) (org target : UUID)
    (check : OrgMember → Except OrgError Unit) : RequestState :=
  match t.getMember org target with
  | none => .failed .notFound
  | some m =>
    match check m with
    | .ok () => .readTarget caller m
    | .error e => .failed e

/-- A step that only reads, at the time `now`. -/
def read (p : Platform) (t : OrgTables) (now : Timestamp) :
    OrgRequest → RequestState → Option RequestState
  | teamCheckout user _ _, .start =>
    some (if t.users.any fun u => u.id = user then .userLoaded else .failed .userNotFound)
  | teamCheckout user name stripeCustomerId, .userLoaded =>
    some (if t.alreadyCreated stripeCustomerId user then .done
      else .slugged (generateUniqueSlug p.slugify (t.orgs.map Org.slug) name))
  | patchMember caller org _ _ _, .start => some (callerRead t caller org adminOrAbove)
  | patchMember _ org member role isBilling, .readCaller caller =>
    some (match targetRead t caller org member fun m => do
        checkCanManageMember caller.role m.role
        if let some role := role then checkCanAssignRole caller.role role.toRole with
      -- an empty body is answered before the role is looked at
      | .readTarget c m => if role = none ∧ isBilling = none then .done else .readTarget c m
      | κ => κ)
  | deleteMember caller org _, .start => some (callerRead t caller org adminOrAbove)
  | deleteMember _ org member, .readCaller caller =>
    some (targetRead t caller org member fun m =>
      if m.role = .owner then .error .insufficientPermission
      else checkCanManageMember caller.role m.role)
  | transferOwnership caller org _, .start => some (callerRead t caller org ownerOnly)
  | transferOwnership _ org target, .readCaller caller =>
    some (targetRead t caller org target fun m =>
      if m.role = .admin then .ok () else .error .insufficientPermission)
  | acceptInvitation token, .start =>
    some (match t.getPendingInvitation token with
      | none => .failed .notFound
      | some inv => if inv.expiresAt < now then .expiring inv else .invited inv)
  | acceptInvitation _, .invited inv =>
    some (if t.emailIsRegistered p inv.email then .failed .invitationEmailExists
      else .unregistered inv)
  | deleteAccount user, .start =>
    some (if t.users.any fun u => u.id = user then .accountLoaded (t.customerOf user)
      else .failed .userNotFound)
  | deleteAccount _, .accountLoaded none => some .customerDeleted
  | deleteAccount user, .customerDeleted =>
    some (match t.orgsCreatedBy user with
      | [] => .orgsDeleted
      | orgIds => .orgsRead orgIds)
  | deleteAccount _, .orgsRead orgIds => some (.usersRead orgIds (t.deletableUserIds orgIds))
  | _, _ => none

/-- A step that writes: what it leaves, and where the request is after it. -/
def write (db : OrgDb p) :
    OrgRequest → RequestState → Option (Except OrgError (OrgDb p) × RequestState)
  | teamCheckout user name stripeCustomerId, .slugged slug =>
    some (db.createOrgWithOwner user name slug stripeCustomerId, .done)
  | patchMember _ _ _ role isBilling, .readTarget _ target =>
    some (db.saveMember target.id { role := role.map AssignableRole.toRole, isBilling }, .done)
  | deleteMember _ _ _, .readTarget _ target => some (.ok (db.deleteUsers [target.user]), .done)
  | transferOwnership _ _ _, .readTarget caller target =>
    some (db.transferOwnership caller.id target.id, .done)
  | acceptInvitation _, .expiring inv =>
    some (db.saveInvitation inv.id .expired, .failed .invitationExpired)
  | acceptInvitation _, .unregistered inv => some (db.acceptInvitation inv, .done)
  | deleteAccount _, .accountLoaded (some customer) =>
    some (.ok (db.deleteCustomer customer), .customerDeleted)
  | deleteAccount _, .usersRead orgIds userIds =>
    some (.ok (db.eraseOrgs orgIds userIds), .orgsDeleted)
  | deleteAccount user, .orgsDeleted => some (.ok (db.deleteMemberships user), .membershipsDeleted)
  | deleteAccount user, .membershipsDeleted => some (.ok (db.deleteUsers [user]), .done)
  | _, _ => none

/-- A step of a request.  A write that fails leaves the database as it was. -/
def step (r : OrgRequest) (db : OrgDb p) (κ : RequestState) (now : Timestamp) :
    Option (OrgDb p × RequestState) :=
  match r.write db κ with
  | some (.ok db', κ') => some (db', κ')
  | some (.error e, _) => some (db, .failed e)
  | none => (r.read p db.toOrgTables now κ).map fun κ' => (db, κ')

end OrgRequest

variable {ι : Type*} (requests : ι → OrgRequest)

def requestAct (i : ι) (db : OrgDb p) (κ : RequestState) (now : Timestamp) :
    Option (OrgDb p × RequestState) :=
  (requests i).step db κ now

abbrev OrgSystem (ι : Type*) (p : Platform) := Interleaving.State ι (OrgDb p) RequestState

/-- The system before any request has begun. -/
def requestInit (ι : Type*) (db : OrgDb p) : OrgSystem ι p := ⟨db, fun _ => .start⟩

variable {requests}

/-- What a step of a request can do. -/
theorem requestAct_cases {i : ι} {db db' : OrgDb p} {κ κ' : RequestState} {now : Timestamp}
    (h : requestAct requests i db κ now = some (db', κ')) :
    (db' = db ∧ (requests i).write db κ = none ∧
        (requests i).read p db.toOrgTables now κ = some κ') ∨
      (∃ e κ₁, db' = db ∧ (requests i).write db κ = some (.error e, κ₁) ∧ κ' = .failed e) ∨
      (requests i).write db κ = some (.ok db', κ') := by
  unfold requestAct OrgRequest.step at h
  rcases hw : (requests i).write db κ with - | ⟨e | db₁, κ₁⟩
  · rw [hw] at h
    obtain ⟨κ₂, hr, heq⟩ := Option.map_eq_some_iff.mp h
    cases heq
    exact Or.inl ⟨rfl, rfl, hr⟩
  · rw [hw] at h
    cases h
    exact Or.inr (Or.inl ⟨e, κ₁, rfl, rfl, rfl⟩)
  · rw [hw] at h
    cases h
    exact Or.inr (Or.inr rfl)

/-! ### Rows keep their organization and their user -/

/-- Every member row of `t'` that is not new is a row of `t`, perhaps with
another role. -/
structure OrgTables.Extends (t t' : OrgTables) : Prop where
  nextKey : t.nextKey ≤ t'.nextKey
  members : ∀ m' ∈ t'.members, m'.id < t.nextKey →
    ∃ m ∈ t.members, m.id = m'.id ∧ m.org = m'.org ∧ m.user = m'.user

namespace OrgTables.Extends

variable {t t' t'' : OrgTables}

theorem trans (h : t.Extends t') (h' : t'.Extends t'') : t.Extends t'' where
  nextKey := h.nextKey.trans h'.nextKey
  members m'' hm'' hid := by
    obtain ⟨m', hm', hid', horg', huser'⟩ := h'.members m'' hm'' (hid.trans_le h.nextKey)
    obtain ⟨m, hm, hid₀, horg, huser⟩ := h.members m' hm' (hid' ▸ hid)
    exact ⟨m, hm, hid₀.trans hid', horg.trans horg', huser.trans huser'⟩

theorem of_subset (hkey : t'.nextKey = t.nextKey) (h : t'.members ⊆ t.members) : t.Extends t' where
  nextKey := hkey.ge
  members m hm _ := ⟨m, h hm, rfl, rfl, rfl⟩

theorem updateMember (t : OrgTables) (id : UUID) (f : MemberFields) :
    t.Extends (t.updateMember id f) where
  nextKey := le_rfl
  members m' hm' _ := by
    rcases Table.mem_update.mp hm' with ⟨hm, -⟩ | ⟨m, hm, -, rfl⟩
    · exact ⟨m', hm, rfl, rfl, rfl⟩
    · exact ⟨m, hm, rfl, rfl, rfl⟩

theorem append {m : OrgMember} (hkey : t.nextKey ≤ t'.nextKey) (hm : t.nextKey ≤ m.id)
    (h : t'.members = t.members ++ [m]) : t.Extends t' where
  nextKey := hkey
  members m' hm' hid := by
    rw [h, List.mem_append, List.mem_singleton] at hm'
    rcases hm' with hm' | rfl
    · exact ⟨m', hm', rfl, rfl, rfl⟩
    · exact absurd hid (Nat.not_lt.mpr hm)

end OrgTables.Extends

theorem OrgDb.saveMember_eq_ok {db db' : OrgDb p} {id : UUID} {f : MemberFields} :
    db.saveMember id f = .ok db' ↔
      (∃ m ∈ db.members, m.id = id) ∧ db'.toOrgTables = db.updateMember id f := by
  unfold saveMember
  split
  case isTrue h =>
    rw [commit_eq_ok]
    have : ∃ m ∈ db.members, m.id = id := by simpa using h
    simp [this]
  case isFalse h =>
    have : ¬ ∃ m ∈ db.members, m.id = id := by simpa using h
    simp [this]

theorem OrgDb.saveInvitation_eq_ok {db db' : OrgDb p} {id : UUID} {status : InvitationStatus} :
    db.saveInvitation id status = .ok db' ↔
      (∃ i ∈ db.invitations, i.id = id) ∧
        db'.toOrgTables = db.updateInvitation id status := by
  unfold saveInvitation
  split
  case isTrue h =>
    rw [commit_eq_ok]
    have : ∃ i ∈ db.invitations, i.id = id := by simpa using h
    simp [this]
  case isFalse h =>
    have : ¬ ∃ i ∈ db.invitations, i.id = id := by simpa using h
    simp [this]

theorem OrgDb.admitInvitee_eq_ok {db db' : OrgDb p} {inv : Invitation} :
    db.admitInvitee inv = .ok db' ↔
      (∃ i ∈ db.invitations, i.id = inv.id) ∧ db'.toOrgTables = db.insertInvitee p inv := by
  unfold admitInvitee
  split
  case isTrue h =>
    rw [commit_eq_ok]
    have : ∃ i ∈ db.invitations, i.id = inv.id := by simpa using h
    simp [this]
  case isFalse h =>
    have : ¬ ∃ i ∈ db.invitations, i.id = inv.id := by simpa using h
    simp [this]

theorem OrgDb.acceptInvitation_eq_ok {db db' : OrgDb p} {inv : Invitation} :
    db.acceptInvitation inv = .ok db' ↔
      seatForInvitee db.toOrgTables inv.org = true ∧ (∃ i ∈ db.invitations, i.id = inv.id) ∧
        db'.toOrgTables = db.insertInvitee p inv := by
  unfold acceptInvitation
  split
  case isTrue h =>
    rw [admitInvitee_eq_ok]
    simp [h]
  case isFalse h => simp [h]

/-- A transfer is a promotion and then a demotion. -/
theorem OrgDb.transferOwnership_eq_ok {db db' : OrgDb p} {callerId targetId : UUID} :
    db.transferOwnership callerId targetId = .ok db' ↔
      ∃ db₁, db.saveMember targetId { role := some .owner, isBilling := some true } = .ok db₁ ∧
        db₁.saveMember callerId { role := some .admin, isBilling := some false } = .ok db' := by
  unfold transferOwnership
  rcases db.saveMember targetId { role := some .owner, isBilling := some true } with e | db₁
  · simp [bind, Except.bind]
  · simp [bind, Except.bind]

/-- The rows of one write are those of before, but for new ones. -/
theorem OrgRequest.write_extends {r : OrgRequest} {db db' : OrgDb p} {κ κ' : RequestState}
    (h : r.write db κ = some (.ok db', κ')) : db.Extends db'.toOrgTables := by
  unfold OrgRequest.write at h
  split at h
  · -- `teamCheckout`
    obtain ⟨hok, -⟩ := Prod.mk.inj (Option.some.inj h)
    rw [OrgDb.createOrgWithOwner_ok hok]
    exact .append (Nat.le_add_right _ _) (Nat.le_add_right _ _) rfl
  · -- `patchMember`
    obtain ⟨hok, -⟩ := Prod.mk.inj (Option.some.inj h)
    rw [(OrgDb.saveMember_eq_ok.mp hok).2]
    exact .updateMember _ _ _
  · -- `deleteMember`
    cases h
    exact .of_subset rfl List.filter_sublist.subset
  · -- `transferOwnership`
    obtain ⟨hok, -⟩ := Prod.mk.inj (Option.some.inj h)
    obtain ⟨db₁, h₁, h₂⟩ := OrgDb.transferOwnership_eq_ok.mp hok
    have e₁ : db.Extends db₁.toOrgTables := by
      rw [(OrgDb.saveMember_eq_ok.mp h₁).2]
      exact .updateMember _ _ _
    rw [(OrgDb.saveMember_eq_ok.mp h₂).2]
    exact e₁.trans (.updateMember _ _ _)
  · -- an invitation expires
    obtain ⟨hok, -⟩ := Prod.mk.inj (Option.some.inj h)
    rw [(OrgDb.saveInvitation_eq_ok.mp hok).2]
    exact .of_subset rfl (List.Subset.refl _)
  · -- `acceptInvitation`
    obtain ⟨hok, -⟩ := Prod.mk.inj (Option.some.inj h)
    rw [(OrgDb.acceptInvitation_eq_ok.mp hok).2.2]
    exact .append (Nat.le_add_right _ _) (Nat.le_add_right _ _) rfl
  · -- the customer is deleted
    cases h
    exact .of_subset rfl (List.Subset.refl _)
  · -- organizations and users are deleted
    cases h
    exact .of_subset rfl fun m hm => (List.mem_filter.mp (List.mem_filter.mp hm).1).1
  · -- memberships are deleted
    cases h
    exact .of_subset rfl List.filter_sublist.subset
  · -- the user is deleted
    cases h
    exact .of_subset rfl List.filter_sublist.subset
  · cases h

theorem requestAct_extends {i : ι} {db db' : OrgDb p} {κ κ' : RequestState} {now : Timestamp}
    (h : requestAct requests i db κ now = some (db', κ')) : db.Extends db'.toOrgTables := by
  rcases requestAct_cases h with ⟨rfl, -, -⟩ | ⟨e, κ₁, rfl, -, -⟩ | hw
  · exact .of_subset rfl (List.Subset.refl _)
  · exact .of_subset rfl (List.Subset.refl _)
  · exact OrgRequest.write_extends hw

/-! ### Held rows -/

/-- The member rows that a request holds. -/
def RequestState.rows : RequestState → List OrgMember
  | readCaller caller => [caller]
  | readTarget caller target => [caller, target]
  | _ => []

/-- If the row of `r` still exists, it is of the organization and the user that
`r` says. -/
structure OrgTables.Known (t : OrgTables) (r : OrgMember) : Prop where
  id : r.id < t.nextKey
  row : ∀ m ∈ t.members, m.id = r.id → m.org = r.org ∧ m.user = r.user

theorem OrgTables.Known.mono {t t' : OrgTables} {r : OrgMember} (h : t.Known r)
    (he : t.Extends t') : t'.Known r where
  id := h.id.trans_le he.nextKey
  row m' hm' hid := by
    obtain ⟨m, hm, hid₀, horg, huser⟩ := he.members m' hm' (hid ▸ h.id)
    obtain ⟨ho, hu⟩ := h.row m hm (hid₀.trans hid)
    exact ⟨horg ▸ ho, huser ▸ hu⟩

theorem OrgDb.known_of_mem {db : OrgDb p} {m : OrgMember} (hm : m ∈ db.members) : db.Known m where
  id := db.constraints.new_member m hm
  row m' hm' hid := by
    obtain rfl := db.constraints.member_pk.inj hm' hm (congrArg some hid) rfl
    exact ⟨rfl, rfl⟩

/-- The rows that a request holds are of its organization. -/
def RowsKnown (requests : ι → OrgRequest) (i : ι) (db : OrgDb p) (κ : RequestState) : Prop :=
  ∀ r ∈ κ.rows, db.Known r ∧ (requests i).memberOrg = some r.org

theorem OrgTables.getMember_eq_some {t : OrgTables} {org user : UUID} {m : OrgMember}
    (h : t.getMember org user = some m) : m ∈ t.members ∧ m.org = org ∧ m.user = user :=
  ⟨List.mem_of_find?_eq_some h, by simpa using List.find?_some h⟩

theorem OrgTables.getOrgAndMember_eq_ok {t : OrgTables} {user org : UUID} {roles : List OrgRole}
    {m : OrgMember} (h : t.getOrgAndMember user org roles = .ok m) :
    t.getMember org user = some m ∧ m.role ∈ roles := by
  unfold getOrgAndMember at h
  rcases hm : t.getMember org user with - | m₁
  · rw [hm] at h
    simp only at h
    split at h <;> cases h
  · rw [hm] at h
    simp only at h
    split at h
    case isTrue hr =>
      cases h
      exact ⟨rfl, hr⟩
    case isFalse => cases h

theorem OrgRequest.callerRead_rows {t : OrgTables} {caller org : UUID} {roles : List OrgRole}
    {r : OrgMember} (h : r ∈ (callerRead t caller org roles).rows) :
    r ∈ t.members ∧ r.org = org := by
  unfold callerRead at h
  rcases hm : t.getOrgAndMember caller org roles with e | m
  · rw [hm] at h
    simp [RequestState.rows] at h
  · rw [hm] at h
    obtain rfl : r = m := by simpa [RequestState.rows] using h
    obtain ⟨hmem, horg, -⟩ :=
      OrgTables.getMember_eq_some (OrgTables.getOrgAndMember_eq_ok hm).1
    exact ⟨hmem, horg⟩

theorem OrgRequest.targetRead_rows {t : OrgTables} {caller r : OrgMember} {org target : UUID}
    {check : OrgMember → Except OrgError Unit}
    (h : r ∈ (targetRead t caller org target check).rows) :
    r = caller ∨ r ∈ t.members ∧ r.org = org := by
  unfold targetRead at h
  rcases hm : t.getMember org target with - | m
  · rw [hm] at h
    simp [RequestState.rows] at h
  · rw [hm] at h
    simp only at h
    obtain ⟨hmem, horg, -⟩ := OrgTables.getMember_eq_some hm
    rcases hc : check m with e | ⟨⟩
    · rw [hc] at h
      simp [RequestState.rows] at h
    · rw [hc] at h
      have : r = caller ∨ r = m := by simpa [RequestState.rows] using h
      rcases this with rfl | rfl
      · exact Or.inl rfl
      · exact Or.inr ⟨hmem, horg⟩

/-- A read leaves the rows that the request held, and rows of its organization. -/
theorem OrgRequest.read_rows {req : OrgRequest} {t : OrgTables} {now : Timestamp}
    {κ κ' : RequestState} (h : req.read p t now κ = some κ') {r : OrgMember} (hr : r ∈ κ'.rows) :
    r ∈ κ.rows ∨ r ∈ t.members ∧ req.memberOrg = some r.org := by
  have hcaller : ∀ {caller org : UUID} {roles : List OrgRole},
      r ∈ (callerRead t caller org roles).rows → r ∈ t.members ∧ some org = some r.org :=
    fun h => ⟨(callerRead_rows h).1, congrArg some (callerRead_rows h).2.symm⟩
  have htarget : ∀ {caller : OrgMember} {org target : UUID} {check},
      r ∈ (targetRead t caller org target check).rows →
        r ∈ (RequestState.readCaller caller).rows ∨ r ∈ t.members ∧ some org = some r.org := by
    intro caller org target check h
    rcases targetRead_rows h with rfl | ⟨hm, ho⟩
    · exact Or.inl (List.mem_singleton.mpr rfl)
    · exact Or.inr ⟨hm, congrArg some ho.symm⟩
  unfold OrgRequest.read at h
  split at h <;> cases h
  · split at hr <;> simp [RequestState.rows] at hr
  · split at hr <;> simp [RequestState.rows] at hr
  · exact Or.inr (hcaller hr)
  · -- the rows of a PATCH are those of its read of the target
    rename_i caller
    split at hr
    case h_1 c m heq =>
      split at hr
      · simp [RequestState.rows] at hr
      · exact htarget (heq ▸ hr)
    case h_2 => exact htarget hr
  · exact Or.inr (hcaller hr)
  · exact htarget hr
  · exact Or.inr (hcaller hr)
  · exact htarget hr
  · split at hr
    · simp [RequestState.rows] at hr
    · split at hr <;> simp [RequestState.rows] at hr
  · split at hr <;> simp [RequestState.rows] at hr
  · split at hr <;> simp [RequestState.rows] at hr
  · simp [RequestState.rows] at hr
  · split at hr <;> simp [RequestState.rows] at hr
  · simp [RequestState.rows] at hr

/-- After a write a request holds no rows. -/
theorem OrgRequest.write_rows {r : OrgRequest} {db : OrgDb p} {κ κ' : RequestState}
    {res : Except OrgError (OrgDb p)} (h : r.write db κ = some (res, κ')) : κ'.rows = [] := by
  unfold OrgRequest.write at h
  split at h <;> cases h <;> rfl

theorem rowsKnown_init (db : OrgDb p) :
    Interleaving.Inv (fun _ => True) (RowsKnown requests) (requestInit ι db) :=
  ⟨trivial, fun i r hr => by simp [requestInit, RequestState.rows] at hr⟩

variable [DecidableEq ι]

/-- Along a run every request knows the rows that it holds. -/
theorem rowsKnown_step (s : OrgSystem ι p) (l : ι × Timestamp) (s' : OrgSystem ι p)
    (hI : Interleaving.Inv (fun _ => True) (RowsKnown requests) s)
    (h : Interleaving.step (requestAct requests) s l = some s') :
    Interleaving.Inv (fun _ => True) (RowsKnown requests) s' := by
  refine Interleaving.inv_step (fun i db κ now db' κ' _ hL hact => ⟨trivial, ?_⟩)
    (fun i db κ now db' κ' _ _ hact j κⱼ _ hLj => ?_) s l s' hI h
  · rcases requestAct_cases hact with ⟨rfl, -, hread⟩ | ⟨e, κ₁, rfl, -, rfl⟩ | hw
    · intro r hr
      rcases OrgRequest.read_rows hread hr with hr | ⟨hm, horg⟩
      · exact hL r hr
      · exact ⟨OrgDb.known_of_mem hm, horg⟩
    · simp [RowsKnown, RequestState.rows]
    · simp [RowsKnown, OrgRequest.write_rows hw]
  · exact fun r hr => ⟨(hLj r hr).1.mono (requestAct_extends hact), (hLj r hr).2⟩

end Saasmint
