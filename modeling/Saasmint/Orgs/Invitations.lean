/-
Saasmint/Orgs/Invitations.lean

The life of one invitation (InvitationAcceptView, InvitationDeclineView and
InvitationCancelView of apps/orgs/views.py, `accept_invitation` of
apps/orgs/services.py): accept with its expiry branch, decline and cancel, each
as its reads and its write, any number of them interleaved.

Every request looks for a PENDING row and later writes the status of the row
that it found, whatever the status has become.  So the life is in order exactly
when each write still finds the row PENDING (`invitation_lifecycle_iff`).
-/
import Saasmint.Orgs.Requests

namespace Saasmint

open PyStr

variable {p : Platform} {u : UnicodeTables} {inv₀ : Invitation} {ι : Type*}

/-- A request on the invitation. -/
inductive InvitationRequest
  /-- Whether the body passes the serializer. -/
  | accept (valid : Bool)
  /-- The email of the authenticated user. -/
  | decline (email : String)
  | cancel (caller : UUID)
  deriving DecidableEq, Repr

/-- Where a request is, with the row it has read. -/
inductive InvitationCall
  | start
  | authorized
  | expiring (inv : Invitation)
  | invited (inv : Invitation)
  | unregistered (inv : Invitation)
  | loaded (inv : Invitation)
  | done
  /-- The invitation is addressed to another account. -/
  | addressedToOther
  | failed (e : OrgError)
  deriving DecidableEq, Repr

/-- The row that a request holds. -/
def InvitationCall.held : InvitationCall → Option Invitation
  | expiring inv | invited inv | unregistered inv | loaded inv => some inv
  | _ => none

namespace InvitationRequest

variable (p u inv₀) in
/-- A step that only reads, at the time `now`. -/
def read (t : OrgTables) (now : Timestamp) :
    InvitationRequest → InvitationCall → Option InvitationCall
  | accept _, .start =>
    some (match t.getPendingInvitation inv₀.token with
      | none => .failed .notFound
      | some inv => if inv.expiresAt < now then .expiring inv else .invited inv)
  | accept valid, .invited inv =>
    some (if t.emailIsRegistered p inv.email then .failed .invitationEmailExists
      else if valid then .unregistered inv else .failed .validationError)
  | decline email, .start =>
    some (match t.getPendingInvitation inv₀.token with
      | none => .failed .notFound
      | some inv => if lower u email = lower u inv.email then .loaded inv else .addressedToOther)
  | cancel caller, .start =>
    some (match t.getOrgAndMember caller inv₀.org adminOrAbove with
      | .ok _ => .authorized
      | .error e => .failed e)
  | cancel _, .authorized =>
    some (match t.invitations.find? fun i =>
        i.id = inv₀.id ∧ i.org = inv₀.org ∧ i.status = .pending with
      | none => .failed .notFound
      | some inv => .loaded inv)
  | _, _ => none

/-- A step that writes: what it leaves, and where the request is after it. -/
def write (db : OrgDb p) :
    InvitationRequest → InvitationCall → Option (Except OrgError (OrgDb p) × InvitationCall)
  | accept _, .expiring inv => some (db.saveInvitation inv.id .expired, .failed .invitationExpired)
  | accept _, .unregistered inv => some (db.acceptInvitation inv, .done)
  | decline _, .loaded inv => some (db.saveInvitation inv.id .declined, .done)
  | cancel _, .loaded inv => some (db.saveInvitation inv.id .cancelled, .done)
  | _, _ => none

end InvitationRequest

variable (u inv₀) in
/-- A step of a request.  A write that fails leaves the database as it was. -/
def invitationAct (requests : ι → InvitationRequest) (i : ι) (db : OrgDb p) (κ : InvitationCall)
    (now : Timestamp) : Option (OrgDb p × InvitationCall) :=
  match (requests i).write db κ with
  | some (.ok db', κ') => some (db', κ')
  | some (.error e, _) => some (db, .failed e)
  | none => ((requests i).read p u inv₀ db.toOrgTables now κ).map fun κ' => (db, κ')

abbrev InvitationSystem (ι : Type*) (p : Platform) := Interleaving.State ι (OrgDb p) InvitationCall

/-- No request has begun. -/
def invitationInit (ι : Type*) (db : OrgDb p) : InvitationSystem ι p := ⟨db, fun _ => .start⟩

/-! ### What is claimed -/

variable (inv₀) in
/-- The status of the invitation. -/
def OrgTables.HasStatus (t : OrgTables) (status : InvitationStatus) : Prop :=
  { inv₀ with status } ∈ t.invitations

instance (t : OrgTables) (status : InvitationStatus) : Decidable (t.HasStatus inv₀ status) :=
  inferInstanceAs (Decidable (_ ∈ _))

variable (inv₀) in
/-- A membership has been created from the invitation; `db₀` is the database
before the requests. -/
def OrgTables.Admitted (db₀ : OrgDb p) (t : OrgTables) : Prop :=
  ∃ m ∈ t.members, m.org = inv₀.org ∧ db₀.nextKey ≤ m.id

variable (inv₀) in
/-- At most one request has answered success, and there is a membership exactly when
the status is ACCEPTED. -/
structure InOrder (db₀ : OrgDb p) (s : InvitationSystem ι p) : Prop where
  one_success : ∀ i j, s.procs i = .done → s.procs j = .done → i = j
  membership : s.shared.Admitted inv₀ db₀ ↔ s.shared.HasStatus inv₀ .accepted

variable (inv₀) in
/-- A status other than PENDING stays. -/
def TerminalStays {α : Type*} (s : InvitationSystem ι p) (_ : α)
    (s' : InvitationSystem ι p) : Prop :=
  ∀ status, status ≠ .pending → s.shared.HasStatus inv₀ status → s'.shared.HasStatus inv₀ status

variable (inv₀) in
/-- A write that goes through finds the row PENDING, or, in the expiry branch,
EXPIRED. -/
def FindsPending (requests : ι → InvitationRequest) (s : InvitationSystem ι p)
    (l : ι × Timestamp) : Prop :=
  ∀ db' κ', (requests l.1).write s.shared (s.procs l.1) = some (.ok db', κ') →
    s.shared.HasStatus inv₀ .pending ∨
      (∃ inv, s.procs l.1 = .expiring inv) ∧ s.shared.HasStatus inv₀ .expired

/-! ### The row -/

theorem OrgDb.hasStatus_unique {db : OrgDb p} {a b : InvitationStatus} (ha : db.HasStatus inv₀ a)
    (hb : db.HasStatus inv₀ b) : a = b :=
  congrArg Invitation.status (db.constraints.invitation_pk.inj ha hb rfl rfl)

theorem OrgTables.HasStatus.update {t : OrgTables} {a b : InvitationStatus}
    (h : t.HasStatus inv₀ a) : (t.updateInvitation inv₀.id b).HasStatus inv₀ b :=
  Table.mem_update.mpr (Or.inr ⟨_, h, rfl, rfl⟩)

/-- The row that a request finds is the pending invitation. -/
theorem OrgDb.eq_of_pending {db : OrgDb p} {a : InvitationStatus} (h : db.HasStatus inv₀ a)
    (hpending : inv₀.status = .pending) {inv : Invitation} (hinv : inv ∈ db.invitations)
    (hstatus : inv.status = .pending) (hkey : inv.id = inv₀.id ∨ inv.token = inv₀.token) :
    inv = inv₀ := by
  have hrow : inv = { inv₀ with status := a } := by
    rcases hkey with hid | htoken
    · exact db.constraints.invitation_pk.inj hinv h (congrArg some hid) rfl
    · exact db.constraints.invitation_token.inj hinv h (congrArg some htoken) rfl
  have ha : a = .pending := by
    rw [hrow] at hstatus
    exact hstatus
  rw [hrow, ha, ← hpending]

/-! ### Steps -/

variable {requests : ι → InvitationRequest}

/-- What a step can do. -/
theorem invitationAct_cases {i : ι} {db db' : OrgDb p} {κ κ' : InvitationCall} {now : Timestamp}
    (h : invitationAct u inv₀ requests i db κ now = some (db', κ')) :
    (db' = db ∧ (requests i).write db κ = none ∧
        (requests i).read p u inv₀ db.toOrgTables now κ = some κ') ∨
      (∃ e κ₁, db' = db ∧ (requests i).write db κ = some (.error e, κ₁) ∧ κ' = .failed e) ∨
      (requests i).write db κ = some (.ok db', κ') := by
  unfold invitationAct at h
  rcases hw : (requests i).write db κ with - | ⟨e | db₁, κ₁⟩
  · rw [hw] at h
    obtain ⟨κ₂, hr, heq⟩ := Option.map_eq_some_iff.mp h
    cases heq
    exact Or.inl ⟨rfl, rfl, hr⟩
  · rw [hw] at h
    cases h
    exact Or.inr (Or.inl ⟨e, κ₁, rfl, rfl, rfl⟩)
  · rw [hw] at h
    cases h
    exact Or.inr (Or.inr rfl)

/-- A read does not answer success. -/
theorem InvitationRequest.read_ne_done {r : InvitationRequest} {t : OrgTables} {now : Timestamp}
    {κ κ' : InvitationCall} (h : r.read p u inv₀ t now κ = some κ') : κ' ≠ .done := by
  unfold read at h
  split at h <;> cases h <;> split <;> (try split) <;> simp

/-- The row that a request holds after a read is the invitation. -/
theorem InvitationRequest.read_held {r : InvitationRequest} {db : OrgDb p} {now : Timestamp}
    {κ κ' : InvitationCall} {a : InvitationStatus} (hrow : db.HasStatus inv₀ a)
    (hpending : inv₀.status = .pending) (hheld : ∀ inv, κ.held = some inv → inv = inv₀)
    (h : r.read p u inv₀ db.toOrgTables now κ = some κ') :
    ∀ inv, κ'.held = some inv → inv = inv₀ := by
  have htoken : ∀ inv, db.getPendingInvitation inv₀.token = some inv → inv = inv₀ := by
    intro inv hinv
    have hp : inv.token = inv₀.token ∧ inv.status = .pending := by
      simpa using List.find?_some hinv
    exact OrgDb.eq_of_pending hrow hpending (List.mem_of_find?_eq_some hinv) hp.2 (Or.inr hp.1)
  intro inv hinv
  unfold read at h
  split at h <;> cases h
  · -- accept, the row
    split at hinv
    · cases hinv
    · rename_i inv₁ hfind
      obtain rfl := htoken inv₁ hfind
      split at hinv <;> exact (Option.some.inj hinv).symm
  · -- accept, the checks
    split at hinv
    · cases hinv
    · split at hinv
      · exact hheld inv hinv
      · cases hinv
  · -- decline
    split at hinv
    · cases hinv
    · rename_i inv₁ hfind
      obtain rfl := htoken inv₁ hfind
      split at hinv
      · exact (Option.some.inj hinv).symm
      · cases hinv
  · split at hinv <;> cases hinv
  · -- cancel, the row
    split at hinv
    · cases hinv
    · rename_i inv₁ hfind
      obtain rfl : inv₁ = inv := Option.some.inj hinv
      have hp : inv₁.id = inv₀.id ∧ inv₁.org = inv₀.org ∧ inv₁.status = .pending := by
        simpa using List.find?_some hfind
      exact OrgDb.eq_of_pending hrow hpending (List.mem_of_find?_eq_some hfind) hp.2.2
        (Or.inl hp.1)

/-- What a write that goes through leaves. -/
inductive InvitationWritten (inv₀ : Invitation) (db db' : OrgDb p) (κ κ' : InvitationCall) : Prop
  | expired (hκ : κ = .expiring inv₀) (hκ' : κ' ≠ .done)
      (hdb : db'.toOrgTables = db.updateInvitation inv₀.id .expired)
  | accepted (hκ : κ = .unregistered inv₀) (hκ' : κ' = .done)
      (hdb : db'.toOrgTables = db.insertInvitee p inv₀)
  | refused (status : InvitationStatus) (hstatus : status = .declined ∨ status = .cancelled)
      (hκ : κ = .loaded inv₀) (hκ' : κ' = .done)
      (hdb : db'.toOrgTables = db.updateInvitation inv₀.id status)

theorem InvitationRequest.write_ok {r : InvitationRequest} {db db' : OrgDb p}
    {κ κ' : InvitationCall} (hheld : ∀ inv, κ.held = some inv → inv = inv₀)
    (h : r.write db κ = some (.ok db', κ')) : InvitationWritten inv₀ db db' κ κ' := by
  unfold write at h
  split at h
  · obtain rfl := hheld _ rfl
    obtain ⟨hok, rfl⟩ := Prod.mk.inj (Option.some.inj h)
    exact .expired rfl (by simp) (OrgDb.saveInvitation_eq_ok.mp hok).2
  · obtain rfl := hheld _ rfl
    obtain ⟨hok, rfl⟩ := Prod.mk.inj (Option.some.inj h)
    exact .accepted rfl rfl (OrgDb.acceptInvitation_eq_ok.mp hok).2.2
  · obtain rfl := hheld _ rfl
    obtain ⟨hok, rfl⟩ := Prod.mk.inj (Option.some.inj h)
    exact .refused .declined (Or.inl rfl) rfl rfl (OrgDb.saveInvitation_eq_ok.mp hok).2
  · obtain rfl := hheld _ rfl
    obtain ⟨hok, rfl⟩ := Prod.mk.inj (Option.some.inj h)
    exact .refused .cancelled (Or.inr rfl) rfl rfl (OrgDb.saveInvitation_eq_ok.mp hok).2
  · cases h

/-- What holds in every state: the row is there, requests hold it as it was while
PENDING, a request has succeeded where the status says so, and an accepted
invitee has an account. -/
structure InvitationInv (inv₀ : Invitation) (db₀ : OrgDb p) (s : InvitationSystem ι p) : Prop where
  row : ∃ status, s.shared.HasStatus inv₀ status
  held : ∀ i inv, (s.procs i).held = some inv → inv = inv₀
  pending : s.shared.HasStatus inv₀ .pending → ∀ i, s.procs i ≠ .done
  settled : ∀ status, status = .accepted ∨ status = .declined ∨ status = .cancelled →
    s.shared.HasStatus inv₀ status → ∃ i, s.procs i = .done
  account : s.shared.HasStatus inv₀ .accepted →
    ∃ user ∈ s.shared.users, p.lower user.email = p.lower (p.normalizeEmail inv₀.email)
  nextKey : db₀.nextKey ≤ s.shared.nextKey

/-- The email of an invitee with an account is taken. -/
theorem OrgDb.not_insertInvitee {db db' : OrgDb p} {inv : Invitation} {user : User}
    (huser : user ∈ db.users) (hemail : p.lower user.email = p.lower (p.normalizeEmail inv.email))
    (h : db'.toOrgTables = db.insertInvitee p inv) : False := by
  have huniq := db'.constraints.uniq_users_lower_email
  have hnew := db'.constraints.user_pk
  rw [h] at huniq hnew
  have h₁ : user ∈ (db.insertInvitee p inv).users := List.mem_append_left _ huser
  have h₂ : ({ id := db.nextKey, email := p.normalizeEmail inv.email } : User)
      ∈ (db.insertInvitee p inv).users :=
    List.mem_append_right _ (List.mem_singleton.mpr rfl)
  have hsame := huniq.inj h₁ h₂ rfl (congrArg some hemail.symm)
  have hlt := db.constraints.new_user user huser
  rw [hsame] at hlt
  exact Nat.lt_irrefl _ hlt

variable {db₀ : OrgDb p}

theorem invitationInv_init (h : inv₀ ∈ db₀.invitations) (hpending : inv₀.status = .pending) :
    InvitationInv inv₀ db₀ (invitationInit ι db₀) := by
  have hrow : db₀.HasStatus inv₀ .pending := by
    rw [← hpending]
    exact h
  have hne : ∀ status, status ≠ .pending → ¬ (invitationInit ι db₀).shared.HasStatus inv₀ status :=
    fun status hs h => hs (OrgDb.hasStatus_unique h hrow)
  exact {
    row := ⟨_, hrow⟩
    held := fun i inv h => by cases h
    pending := fun _ i h => by cases h
    settled := fun status hs h => absurd h (hne status (by rintro rfl; simp at hs))
    account := fun h => absurd h (hne _ (by decide))
    nextKey := le_rfl }

/-- The status after a write is the one written. -/
theorem InvitationWritten.hasStatus {db db' : OrgDb p} {κ κ' : InvitationCall}
    (h : InvitationWritten inv₀ db db' κ κ') {a : InvitationStatus} (ha : db.HasStatus inv₀ a) :
    ∃ status, status ≠ .pending ∧ db'.HasStatus inv₀ status ∧ (κ' = .done ↔ status ≠ .expired) := by
  cases h with
  | expired hκ hκ' hdb =>
    refine ⟨.expired, by decide, ?_, by simp [hκ']⟩
    rw [hdb]
    exact ha.update
  | accepted hκ hκ' hdb =>
    refine ⟨.accepted, by decide, ?_, by simp [hκ']⟩
    rw [hdb]
    exact ha.update
  | refused status hstatus hκ hκ' hdb =>
    refine ⟨status, ?_, ?_, ?_⟩
    · rcases hstatus with rfl | rfl <;> decide
    · rw [hdb]
      exact ha.update
    · rcases hstatus with rfl | rfl <;> simp [hκ']

/-- A write leaves its request holding no row. -/
theorem InvitationRequest.write_held {r : InvitationRequest} {db : OrgDb p}
    {κ κ' : InvitationCall} {e : Except OrgError (OrgDb p)} (h : r.write db κ = some (e, κ')) :
    κ'.held = none := by
  unfold write at h
  split at h
  · obtain ⟨-, rfl⟩ := Prod.mk.inj (Option.some.inj h)
    rfl
  · obtain ⟨-, rfl⟩ := Prod.mk.inj (Option.some.inj h)
    rfl
  · obtain ⟨-, rfl⟩ := Prod.mk.inj (Option.some.inj h)
    rfl
  · obtain ⟨-, rfl⟩ := Prod.mk.inj (Option.some.inj h)
    rfl
  · cases h

/-- A request that has answered success takes no step. -/
theorem invitationAct_done {i : ι} {db : OrgDb p} {now : Timestamp} :
    invitationAct u inv₀ requests i db .done now = none := by
  unfold invitationAct
  rcases requests i <;> rfl

variable [DecidableEq ι]

theorem invitationInv_step (hpending : inv₀.status = .pending) (s : InvitationSystem ι p)
    (l : ι × Timestamp) (s' : InvitationSystem ι p) (hI : InvitationInv inv₀ db₀ s)
    (h : Interleaving.step (invitationAct u inv₀ requests) s l = some s') :
    InvitationInv inv₀ db₀ s' := by
  obtain ⟨i, now⟩ := l
  obtain ⟨db', κ', hact, rfl⟩ := Interleaving.step_eq_some h
  obtain ⟨a, ha⟩ := hI.row
  -- a step that writes nothing and does not answer success
  have hquiet : ∀ κ'' : InvitationCall, κ'' ≠ .done → s.procs i ≠ .done →
      (∀ inv, κ''.held = some inv → inv = inv₀) →
      InvitationInv inv₀ db₀ ⟨s.shared, Function.update s.procs i κ''⟩ := by
    intro κ'' hdone hbefore hheld
    refine ⟨hI.row, ?_, ?_, ?_, hI.account, hI.nextKey⟩
    · intro j inv hj
      by_cases hji : j = i
      · subst hji
        exact hheld inv (by simpa using hj)
      · exact hI.held j inv (by simpa [hji] using hj)
    · intro hs j
      by_cases hji : j = i
      · subst hji
        simpa using hdone
      · simpa [hji] using hI.pending hs j
    · intro status hs hst
      obtain ⟨j, hj⟩ := hI.settled status hs hst
      have hji : j ≠ i := fun e => hbefore (e ▸ hj)
      exact ⟨j, by simpa [hji] using hj⟩
  have hbefore : s.procs i ≠ .done := by
    intro hdone
    rw [hdone, invitationAct_done] at hact
    cases hact
  rcases invitationAct_cases hact with ⟨rfl, -, hread⟩ | ⟨e, κ₁, rfl, -, rfl⟩ | hw
  · exact hquiet κ' (InvitationRequest.read_ne_done hread) hbefore
      (InvitationRequest.read_held ha hpending (hI.held i) hread)
  · exact hquiet _ (by simp) hbefore (fun inv h => by cases h)
  · have hwritten := InvitationRequest.write_ok (hI.held i) hw
    obtain ⟨status, hne, hstatus, hdone⟩ := hwritten.hasStatus ha
    have honly : ∀ b, db'.HasStatus inv₀ b → b = status := fun b hb =>
      OrgDb.hasStatus_unique hb hstatus
    have hheld' : κ'.held = none := InvitationRequest.write_held hw
    refine ⟨⟨status, hstatus⟩, ?_, ?_, ?_, ?_, ?_⟩
    · intro j inv hj
      by_cases hji : j = i
      · subst hji
        have hj' : κ'.held = some inv := by simpa using hj
        rw [hheld'] at hj'
        cases hj'
      · exact hI.held j inv (by simpa [hji] using hj)
    · exact fun hp => absurd (honly _ hp).symm hne
    · rintro b hb hs
      obtain rfl := honly b hs
      have hdone' : κ' = .done := by
        apply hdone.mpr
        rintro rfl
        simp at hb
      exact ⟨i, by simpa using hdone'⟩
    · intro hacc
      obtain rfl := honly _ hacc
      cases hwritten with
      | expired hκ hκ' hdb =>
        have : db'.HasStatus inv₀ .expired := by rw [hdb]; exact ha.update
        exact absurd (OrgDb.hasStatus_unique hacc this) (by decide)
      | accepted hκ hκ' hdb =>
        refine ⟨⟨s.shared.nextKey, p.normalizeEmail inv₀.email⟩, ?_, rfl⟩
        rw [hdb]
        exact List.mem_append_right _ (List.mem_singleton.mpr rfl)
      | refused st hst hκ hκ' hdb =>
        have : db'.HasStatus inv₀ st := by rw [hdb]; exact ha.update
        obtain rfl := OrgDb.hasStatus_unique hacc this
        simp at hst
    · have hkey : s.shared.nextKey ≤ db'.nextKey := by
        cases hwritten with
        | expired _ _ hdb => rw [hdb]; exact le_rfl
        | accepted _ _ hdb => rw [hdb]; exact Nat.le_add_right _ _
        | refused _ _ _ _ hdb => rw [hdb]; exact le_rfl
      exact hI.nextKey.trans hkey

/-- Where the step answers no success, those that have answered it are as before. -/
theorem oneSuccess_of_ne_done {s : InvitationSystem ι p} {i : ι} {κ' : InvitationCall}
    (hκ' : κ' ≠ .done) (h : ∀ i j, s.procs i = .done → s.procs j = .done → i = j) :
    ∀ j k, Function.update s.procs i κ' j = .done → Function.update s.procs i κ' k = .done →
      j = k := by
  have hbefore : ∀ j, Function.update s.procs i κ' j = .done → s.procs j = .done := by
    intro j hj
    by_cases hji : j = i
    · subst hji
      rw [Function.update_self] at hj
      exact absurd hj hκ'
    · rwa [Function.update_of_ne hji] at hj
  intro j k hj hk
  apply h
  · exact hbefore j hj
  · exact hbefore k hk

/-- Where no request has answered success before the step, at most its own has after it. -/
theorem oneSuccess_of_first {s : InvitationSystem ι p} {i : ι} {κ' : InvitationCall}
    (h : ∀ i, s.procs i ≠ .done) :
    ∀ j k, Function.update s.procs i κ' j = .done → Function.update s.procs i κ' k = .done →
      j = k := by
  have hself : ∀ j, Function.update s.procs i κ' j = .done → j = i := by
    intro j hj
    by_contra hji
    rw [Function.update_of_ne hji] at hj
    exact h j hj
  intro j k hj hk
  rw [hself j hj, hself k hk]

/-- A step that leaves the rows keeps the life in order. -/
theorem inOrder_of_read {s : InvitationSystem ι p} {i : ι} {now : Timestamp} {κ' : InvitationCall}
    (hκ' : κ' ≠ .done) (hP : InOrder inv₀ db₀ s) :
    InOrder inv₀ db₀ ⟨s.shared, Function.update s.procs i κ'⟩ ∧
      TerminalStays inv₀ s (i, now) ⟨s.shared, Function.update s.procs i κ'⟩ := by
  refine ⟨⟨oneSuccess_of_ne_done hκ' hP.one_success, hP.membership⟩, ?_⟩
  intro status _ hs
  exact hs

/-- A write that has not found the row as it should breaks the order. -/
theorem InvitationWritten.findsPending {s : InvitationSystem ι p} {i : ι} {now : Timestamp}
    {db' : OrgDb p} {κ' : InvitationCall} (hI : InvitationInv inv₀ db₀ s)
    (hw : InvitationWritten inv₀ s.shared db' (s.procs i) κ')
    (hone : ∀ j k, Function.update s.procs i κ' j = .done →
      Function.update s.procs i κ' k = .done → j = k)
    (hstays : TerminalStays inv₀ s (i, now) ⟨db', Function.update s.procs i κ'⟩) :
    s.shared.HasStatus inv₀ .pending ∨
      (∃ inv, s.procs i = .expiring inv) ∧ s.shared.HasStatus inv₀ .expired := by
  obtain ⟨a, ha⟩ := hI.row
  by_cases hp : a = .pending
  · rw [hp] at ha
    exact Or.inl ha
  -- the status that was there is the one written
  have hrow : db'.HasStatus inv₀ a := hstays a hp ha
  cases hw with
  | expired hκ hκ' hdb =>
    have hnew : db'.HasStatus inv₀ .expired := by
      rw [hdb]
      exact ha.update
    obtain rfl := OrgDb.hasStatus_unique hrow hnew
    exact Or.inr ⟨⟨_, hκ⟩, ha⟩
  | accepted hκ hκ' hdb =>
    -- the first acceptance has created the account
    have hnew : db'.HasStatus inv₀ .accepted := by
      rw [hdb]
      exact ha.update
    obtain rfl := OrgDb.hasStatus_unique hrow hnew
    obtain ⟨user, huser, hemail⟩ := hI.account ha
    exact (OrgDb.not_insertInvitee huser hemail hdb).elim
  | refused status hstatus hκ hκ' hdb =>
    -- another request has answered success with this status
    have hnew : db'.HasStatus inv₀ status := by
      rw [hdb]
      exact ha.update
    obtain rfl := OrgDb.hasStatus_unique hrow hnew
    obtain ⟨j, hj⟩ := hI.settled a (Or.inr hstatus) ha
    have hji : j ≠ i := by
      rintro rfl
      rw [hκ] at hj
      cases hj
    refine absurd (hone j i ?_ ?_) hji
    · rwa [Function.update_of_ne hji]
    · rwa [Function.update_self]

/-- The first write on a pending row keeps the order. -/
theorem InvitationWritten.inOrder_of_pending {s : InvitationSystem ι p} {i : ι} {now : Timestamp}
    {db' : OrgDb p} {κ' : InvitationCall} (hI : InvitationInv inv₀ db₀ s)
    (hP : InOrder inv₀ db₀ s) (hw : InvitationWritten inv₀ s.shared db' (s.procs i) κ')
    (hp : s.shared.HasStatus inv₀ .pending) :
    InOrder inv₀ db₀ ⟨db', Function.update s.procs i κ'⟩ ∧
      TerminalStays inv₀ s (i, now) ⟨db', Function.update s.procs i κ'⟩ := by
  have hnot : ¬ s.shared.Admitted inv₀ db₀ := by
    intro h
    have := OrgDb.hasStatus_unique (hP.membership.mp h) hp
    simp at this
  refine ⟨⟨oneSuccess_of_first (hI.pending hp), ?_⟩, ?_⟩
  · show db'.Admitted inv₀ db₀ ↔ db'.HasStatus inv₀ .accepted
    cases hw with
    | expired hκ hκ' hdb =>
      refine iff_of_false ?_ fun h => ?_
      · rw [hdb]
        exact hnot
      · have hnew : db'.HasStatus inv₀ .expired := by
          rw [hdb]
          exact hp.update
        have := OrgDb.hasStatus_unique h hnew
        simp at this
    | accepted hκ hκ' hdb =>
      refine iff_of_true
        ⟨⟨s.shared.nextKey + 1, inv₀.org, s.shared.nextKey, inv₀.role.toRole, false⟩, ?_, rfl, ?_⟩
        ?_
      · rw [hdb]
        exact List.mem_append_right _ (List.mem_singleton.mpr rfl)
      · exact hI.nextKey.trans (Nat.le_succ _)
      · rw [hdb]
        exact hp.update
    | refused status hstatus hκ hκ' hdb =>
      refine iff_of_false ?_ fun h => ?_
      · rw [hdb]
        exact hnot
      · have hnew : db'.HasStatus inv₀ status := by
          rw [hdb]
          exact hp.update
        have := OrgDb.hasStatus_unique h hnew
        simp [← this] at hstatus
  · intro status hne hs
    exact absurd (OrgDb.hasStatus_unique hs hp) hne

/-- A second expiry keeps the order. -/
theorem InvitationWritten.inOrder_of_expired {s : InvitationSystem ι p} {i : ι} {now : Timestamp}
    {db' : OrgDb p} {κ' : InvitationCall} {inv : Invitation} (hP : InOrder inv₀ db₀ s)
    (hw : InvitationWritten inv₀ s.shared db' (s.procs i) κ') (hi : s.procs i = .expiring inv)
    (he : s.shared.HasStatus inv₀ .expired) :
    InOrder inv₀ db₀ ⟨db', Function.update s.procs i κ'⟩ ∧
      TerminalStays inv₀ s (i, now) ⟨db', Function.update s.procs i κ'⟩ := by
  cases hw with
  | expired hκ hκ' hdb =>
    have hnew : db'.HasStatus inv₀ .expired := by
      rw [hdb]
      exact he.update
    refine ⟨⟨oneSuccess_of_ne_done hκ' hP.one_success, ?_⟩, ?_⟩
    · show db'.Admitted inv₀ db₀ ↔ db'.HasStatus inv₀ .accepted
      refine iff_of_false ?_ fun h => ?_
      · rw [hdb]
        intro h
        have := OrgDb.hasStatus_unique (hP.membership.mp h) he
        simp at this
      · have := OrgDb.hasStatus_unique h hnew
        simp at this
    · intro status hne hs
      obtain rfl := OrgDb.hasStatus_unique hs he
      exact hnew
  | accepted hκ hκ' hdb =>
    rw [hκ] at hi
    cases hi
  | refused status hstatus hκ hκ' hdb =>
    rw [hκ] at hi
    cases hi

/-- A step keeps the life in order exactly when its write finds the row as it should. -/
theorem inOrder_step (s : InvitationSystem ι p) (l : ι × Timestamp) (s' : InvitationSystem ι p)
    (hI : InvitationInv inv₀ db₀ s) (hP : InOrder inv₀ db₀ s)
    (h : Interleaving.step (invitationAct u inv₀ requests) s l = some s') :
    InOrder inv₀ db₀ s' ∧ TerminalStays inv₀ s l s' ↔ FindsPending inv₀ requests s l := by
  obtain ⟨i, now⟩ := l
  obtain ⟨db', κ', hact, rfl⟩ := Interleaving.step_eq_some h
  rcases invitationAct_cases hact with ⟨rfl, hw, hread⟩ | ⟨e, κ₁, rfl, hw, rfl⟩ | hw
  · refine iff_of_true (inOrder_of_read (InvitationRequest.read_ne_done hread) hP) ?_
    intro db₁ κ₁ h₁
    rw [hw] at h₁
    cases h₁
  · refine iff_of_true (inOrder_of_read (by simp) hP) ?_
    intro db₁ κ₂ h₁
    rw [hw] at h₁
    cases h₁
  · have hwritten := InvitationRequest.write_ok (hI.held i) hw
    constructor
    · rintro ⟨hP', hstays⟩ db₁ κ₁ -
      exact hwritten.findsPending hI hP'.one_success hstays
    · intro hC
      rcases hC db' κ' hw with hp | ⟨⟨inv, hi⟩, he⟩
      · exact hwritten.inOrder_of_pending hI hP hp
      · exact hwritten.inOrder_of_expired hP hi he

/-- **One invitation, one outcome.** -/
theorem invitation_lifecycle_iff (h : inv₀ ∈ db₀.invitations) (hpending : inv₀.status = .pending)
    (ls : List (ι × Timestamp)) :
    Runs.Always (Interleaving.step (invitationAct u inv₀ requests)) (InOrder inv₀ db₀)
          (invitationInit ι db₀) ls ∧
        Runs.EachMove (Interleaving.step (invitationAct u inv₀ requests)) (TerminalStays inv₀)
          (invitationInit ι db₀) ls ↔
      Runs.EachStep (Interleaving.step (invitationAct u inv₀ requests))
        (FindsPending inv₀ requests) (invitationInit ι db₀) ls := by
  refine Runs.always_and_eachMove_iff (invitationInv_step hpending) inOrder_step
    (invitationInv_init h hpending) ⟨fun i j hi => (by cases hi), ?_⟩
  refine iff_of_false ?_ ?_
  · rintro ⟨m, hm, -, hkey⟩
    exact Nat.not_lt.mpr hkey (db₀.constraints.new_member m hm)
  · intro hacc
    have hrow : db₀.HasStatus inv₀ .pending := by
      rw [← hpending]
      exact h
    exact absurd (OrgDb.hasStatus_unique hacc hrow) (by decide)

/-! ### An acceptance and a cancel at once -/

/-- An invitation of a team of one. -/
def openInvitation : Invitation := ⟨3, 2, "eve@acme.io", .member, "token", .pending, 1000⟩

def invitingTables : OrgTables where
  users := [⟨1, "ann@acme.io"⟩]
  orgs := [⟨2, "Acme", "acme", some 1⟩]
  members := [⟨4, 2, 1, .owner, true⟩]
  invitations := [openInvitation]
  customers := []
  subscriptions := []
  nextKey := 5

def invitingDb : OrgDb wordPlatform := ⟨invitingTables, by decide⟩

/-- The owner cancels while the invitee accepts. -/
def acceptAndCancel : Fin 2 → InvitationRequest
  | 0 => .cancel 1
  | 1 => .accept true

/-- The cancel finds the row PENDING, then the invitation is accepted, then the
cancel is written. -/
def acceptAndCancelSteps : List (Fin 2 × Timestamp) :=
  [(0, 1), (0, 2), (1, 3), (1, 4), (1, 5), (0, 6)]

theorem invitation_lifecycle_iff_cancel :
    Runs.Always
          (Interleaving.step (invitationAct PyStr.asciiTables openInvitation acceptAndCancel))
          (InOrder openInvitation invitingDb) (invitationInit (Fin 2) invitingDb)
          [(0, 1), (0, 2), (0, 3)] ∧
        Runs.EachMove
          (Interleaving.step (invitationAct PyStr.asciiTables openInvitation acceptAndCancel))
          (TerminalStays openInvitation) (invitationInit (Fin 2) invitingDb)
          [(0, 1), (0, 2), (0, 3)] ↔
      Runs.EachStep
        (Interleaving.step (invitationAct PyStr.asciiTables openInvitation acceptAndCancel))
        (FindsPending openInvitation acceptAndCancel) (invitationInit (Fin 2) invitingDb)
        [(0, 1), (0, 2), (0, 3)] :=
  invitation_lifecycle_iff (List.mem_singleton.mpr rfl) rfl _

/-- Both answer success, and the invitation ends CANCELLED with the invitee a
member. -/
theorem cancel_overwrites_acceptance :
    ((Runs.run (Interleaving.step (invitationAct PyStr.asciiTables openInvitation acceptAndCancel))
        (invitationInit (Fin 2) invitingDb) acceptAndCancelSteps).map fun s =>
          (s.procs 0, s.procs 1, s.shared.invitations.map Invitation.status,
            s.shared.members.map OrgMember.user)) =
      some (.done, .done, [.cancelled], [1, 5]) ∧
    ¬ (Runs.Always
          (Interleaving.step (invitationAct PyStr.asciiTables openInvitation acceptAndCancel))
          (InOrder openInvitation invitingDb) (invitationInit (Fin 2) invitingDb)
          acceptAndCancelSteps ∧
        Runs.EachMove
          (Interleaving.step (invitationAct PyStr.asciiTables openInvitation acceptAndCancel))
          (TerminalStays openInvitation) (invitationInit (Fin 2) invitingDb)
          acceptAndCancelSteps) := by
  refine ⟨by decide, fun h => ?_⟩
  have hboth : (Runs.run
      (Interleaving.step (invitationAct PyStr.asciiTables openInvitation acceptAndCancel))
      (invitationInit (Fin 2) invitingDb) acceptAndCancelSteps).any
        (fun s => decide (s.procs 0 = .done ∧ s.procs 1 = .done)) = true := by decide
  obtain ⟨s, hs, hdone⟩ := (Option.any_eq_true _ _).mp hboth
  obtain ⟨h₀, h₁⟩ := of_decide_eq_true hdone
  have := (h.1.last hs).one_success 0 1 h₀ h₁
  simp at this

end Saasmint
