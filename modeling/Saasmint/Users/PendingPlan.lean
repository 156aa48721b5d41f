/-
Saasmint/Users/PendingPlan.lean

The plan that a visitor has picked before signing up: `signUp` stores it in two
cookies (`setPendingPlan`) and the verification of the e-mail address takes it
out of them (`consumePendingPlan`).

The first cookie has the slug, the second one says "team" or is not there.  A
personal choice sets only the first: a team choice that was not consumed leaves
its word behind.  What a consume returns is the last slug with "team" wherever
one of the choices since the last consume was a team plan (`answers_cons_consume`),
so that the choices are answered right exactly where no personal plan is picked
over a team plan (`answers_eq_lastChoices_iff`).
-/
import Mathlib.Data.List.Basic
import Saasmint.Billing.Models

namespace Saasmint

/-! ### The two cookies -/

/-- `PLAN_SLUG_RE`: one to 64 letters, digits, `_` and `-` of ASCII. -/
def isValidPlanSlug (value : String) : Bool :=
  1 ≤ value.toList.length && value.toList.length ≤ 64 &&
    value.toList.all fun c =>
      ('A' ≤ c && c ≤ 'Z') || ('a' ≤ c && c ≤ 'z') || ('0' ≤ c && c ≤ '9') || c = '_' || c = '-'

/-- The cookies `pending_plan` and `pending_plan_context` of a browser. -/
structure PlanCookies where
  pendingPlan : Option String
  pendingPlanContext : Option String
  deriving DecidableEq, Repr

structure PendingPlan where
  plan : String
  isTeam : Bool
  deriving DecidableEq, Repr

def PlanCookies.empty : PlanCookies := ⟨none, none⟩

def PlanCookies.setPendingPlan (c : PlanCookies) (plan : String) (isTeam : Bool := false) :
    PlanCookies :=
  let c := { c with pendingPlan := some plan }
  if isTeam then { c with pendingPlanContext := some "team" } else c

def PlanCookies.consumePendingPlan (c : PlanCookies) : PlanCookies × Option PendingPlan :=
  match c.pendingPlan with
  | none => (c, none)
  | some plan =>
    if plan = "" then (c, none)
    else
      let c' := { c with pendingPlan := none, pendingPlanContext := none }
      if isValidPlanSlug plan then (c', some ⟨plan, c.pendingPlanContext = some "team"⟩)
      else (c', none)

/-- A slug that the pattern accepts is not empty, and so not falsy. -/
theorem ne_empty_of_isValidPlanSlug {plan : String} (h : isValidPlanSlug plan = true) :
    plan ≠ "" := by
  rintro rfl
  exact absurd h (by decide)

@[simp] theorem PlanCookies.consumePendingPlan_empty :
    PlanCookies.empty.consumePendingPlan = (PlanCookies.empty, none) := rfl

/-! ### The calls of a browser -/

inductive PlanCall
  | setPendingPlan (plan : String) (isTeam : Bool)
  | consumePendingPlan
  deriving DecidableEq, Repr

/-- The plan of a call is a valid slug. -/
def PlanCall.Valid : PlanCall → Prop
  | .setPendingPlan plan _ => isValidPlanSlug plan = true
  | .consumePendingPlan => True

instance : DecidablePred PlanCall.Valid
  | .setPendingPlan plan _ => inferInstanceAs (Decidable (isValidPlanSlug plan = true))
  | .consumePendingPlan => inferInstanceAs (Decidable True)

/-- What the consumes among the calls return, in their order. -/
def PlanCookies.answers : PlanCookies → List PlanCall → List (Option PendingPlan)
  | _, [] => []
  | c, .setPendingPlan plan isTeam :: calls => (c.setPendingPlan plan isTeam).answers calls
  | c, .consumePendingPlan :: calls =>
    c.consumePendingPlan.2 :: c.consumePendingPlan.1.answers calls

/-- What they are meant to return: the last choice, once. -/
def lastChoices : Option PendingPlan → List PlanCall → List (Option PendingPlan)
  | _, [] => []
  | _, .setPendingPlan plan isTeam :: calls => lastChoices (some ⟨plan, isTeam⟩) calls
  | choice, .consumePendingPlan :: calls => choice :: lastChoices none calls

/-- No consume finds a personal plan picked over a team plan.  `since` has the
choices since the last consume, the newest first. -/
def KeepsContext : List PendingPlan → List PlanCall → Prop
  | _, [] => True
  | since, .setPendingPlan plan isTeam :: calls => KeepsContext (⟨plan, isTeam⟩ :: since) calls
  | since, .consumePendingPlan :: calls =>
    (since.head?.all PendingPlan.isTeam ∨ ∀ choice ∈ since, choice.isTeam = false) ∧
      KeepsContext [] calls

instance decidableKeepsContext : ∀ since calls, Decidable (KeepsContext since calls)
  | _, [] => isTrue trivial
  | since, .setPendingPlan plan isTeam :: calls =>
    decidableKeepsContext (⟨plan, isTeam⟩ :: since) calls
  | _, .consumePendingPlan :: calls =>
    have := decidableKeepsContext [] calls
    inferInstanceAs (Decidable (_ ∧ _))

/-! ### What the cookies hold -/

/-- The cookies after the choices `since`, the newest first: the slug of the
newest, and "team" if any of them was a team plan. -/
def PlanCookies.ofChoices (since : List PendingPlan) : PlanCookies where
  pendingPlan := since.head?.map PendingPlan.plan
  pendingPlanContext := if since.any PendingPlan.isTeam then some "team" else none

theorem PlanCookies.setPendingPlan_ofChoices (since : List PendingPlan) (plan : String)
    (isTeam : Bool) :
    (PlanCookies.ofChoices since).setPendingPlan plan isTeam
      = PlanCookies.ofChoices (⟨plan, isTeam⟩ :: since) := by
  cases isTeam with
  | false => simp [setPendingPlan, ofChoices]
  | true => simp [setPendingPlan, ofChoices]

/-- A consume takes the newest slug with the context of all the choices. -/
theorem PlanCookies.consumePendingPlan_ofChoices {since : List PendingPlan}
    (hvalid : ∀ choice ∈ since, isValidPlanSlug choice.plan = true) :
    (PlanCookies.ofChoices since).consumePendingPlan
      = (PlanCookies.ofChoices [],
          since.head?.map fun choice => ⟨choice.plan, since.any PendingPlan.isTeam⟩) := by
  cases since with
  | nil => rfl
  | cons choice since =>
    have hslug : isValidPlanSlug choice.plan = true := hvalid choice List.mem_cons_self
    have hne : choice.plan ≠ "" := ne_empty_of_isValidPlanSlug hslug
    have hteam : (PlanCookies.ofChoices (choice :: since)).pendingPlanContext = some "team"
        ↔ (choice :: since).any PendingPlan.isTeam = true := by
      show (if (choice :: since).any PendingPlan.isTeam then some "team" else none) = _ ↔ _
      split
      next h => exact iff_of_true rfl h
      next h => exact iff_of_false (by simp) h
    unfold consumePendingPlan
    simp only [hteam, Bool.decide_eq_true]
    show (if choice.plan = "" then _ else if _ then _ else _) = _
    rw [if_neg hne, if_pos hslug]
    rfl

/-- The choice that a consume returns is the newest one exactly where the
newest is a team plan or none of them is. -/
theorem newest_eq_iff (since : List PendingPlan) :
    (since.head?.map fun choice => (⟨choice.plan, since.any PendingPlan.isTeam⟩ : PendingPlan))
        = since.head?
      ↔ since.head?.all PendingPlan.isTeam ∨ ∀ choice ∈ since, choice.isTeam = false := by
  cases since with
  | nil => simp
  | cons choice since =>
    obtain ⟨plan, isTeam⟩ := choice
    cases isTeam with
    | true => simp
    | false => simp

theorem answers_cons_consume {since : List PendingPlan}
    (hvalid : ∀ choice ∈ since, isValidPlanSlug choice.plan = true) (calls : List PlanCall) :
    (PlanCookies.ofChoices since).answers (.consumePendingPlan :: calls)
      = (since.head?.map fun choice => ⟨choice.plan, since.any PendingPlan.isTeam⟩)
          :: (PlanCookies.ofChoices []).answers calls := by
  show _ :: _ = _
  rw [PlanCookies.consumePendingPlan_ofChoices hvalid]

/-- The step of the induction is the choices since the last consume, which the
cookies describe. -/
theorem answers_ofChoices_iff (since : List PendingPlan) (calls : List PlanCall)
    (hsince : ∀ choice ∈ since, isValidPlanSlug choice.plan = true)
    (hcalls : ∀ call ∈ calls, call.Valid) :
    (PlanCookies.ofChoices since).answers calls = lastChoices since.head? calls
      ↔ KeepsContext since calls := by
  induction calls generalizing since with
  | nil => simp [PlanCookies.answers, lastChoices, KeepsContext]
  | cons call calls ih =>
    have hrest : ∀ call ∈ calls, call.Valid := fun d hd => hcalls d (List.mem_cons_of_mem _ hd)
    cases call with
    | setPendingPlan plan isTeam =>
      have hplan : isValidPlanSlug plan = true := hcalls _ List.mem_cons_self
      have hsince' : ∀ choice ∈ ⟨plan, isTeam⟩ :: since, isValidPlanSlug choice.plan = true := by
        intro choice hmem
        rcases List.mem_cons.mp hmem with rfl | hmem
        · exact hplan
        · exact hsince choice hmem
      show ((PlanCookies.ofChoices since).setPendingPlan plan isTeam).answers calls = _ ↔ _
      rw [PlanCookies.setPendingPlan_ofChoices]
      exact ih _ hsince' hrest
    | consumePendingPlan =>
      rw [answers_cons_consume hsince]
      show _ = since.head? :: lastChoices none calls ↔ _ ∧ KeepsContext [] calls
      rw [List.cons.injEq, newest_eq_iff, ← ih [] (by simp) hrest]
      rfl

/-- Every consume returns the last choice that was not consumed, with its own
context, exactly where none of them finds a personal plan picked over a team
plan. -/
theorem answers_eq_lastChoices_iff (calls : List PlanCall) (hcalls : ∀ call ∈ calls, call.Valid) :
    PlanCookies.empty.answers calls = lastChoices none calls ↔ KeepsContext [] calls :=
  answers_ofChoices_iff [] calls (by simp) hcalls

theorem answers_team_then_team :
    PlanCookies.empty.answers
        [.setPendingPlan "pro-team" true, .setPendingPlan "max-team" true, .consumePendingPlan]
      = [some ⟨"max-team", true⟩] :=
  (answers_eq_lastChoices_iff _ (by decide)).mpr (by decide)

/-- A personal plan picked after a team plan comes back as a team plan. -/
theorem personal_after_team_is_team :
    ¬ ∀ calls : List PlanCall, (∀ call ∈ calls, call.Valid) →
        PlanCookies.empty.answers calls = lastChoices none calls := by
  intro h
  have hcalls := h [.setPendingPlan "pro-team" true, .setPendingPlan "pro" false,
    .consumePendingPlan] (by decide)
  exact absurd hcalls (by decide)

/-! ### Who makes the calls -/

/-- The choice that `signUp` stores, from the plan field of its form. -/
def signUpChoice (resolvePlanRouting : String → Option PlanContext) (planField : Option String) :
    Option PendingPlan :=
  let slug := planField.filter isValidPlanSlug
  let routing := slug.bind resolvePlanRouting
  let paidPlan := if routing.isSome then slug else none
  let isTeam := decide (routing = some .team)
  paidPlan.map fun plan => ⟨plan, isTeam⟩

/-- `signUp` stores valid slugs only, with the context of the catalogue. -/
theorem signUpChoice_eq_some {resolvePlanRouting : String → Option PlanContext}
    {planField : Option String} {choice : PendingPlan}
    (h : signUpChoice resolvePlanRouting planField = some choice) :
    isValidPlanSlug choice.plan = true ∧
      ∃ context, resolvePlanRouting choice.plan = some context ∧
        choice.isTeam = decide (context = .team) := by
  unfold signUpChoice at h
  obtain ⟨plan, hplan, rfl⟩ := Option.map_eq_some_iff.mp h
  obtain ⟨hrouting, hslug⟩ := Option.ite_none_right_eq_some.mp hplan
  obtain ⟨context, hcontext⟩ := Option.isSome_iff_exists.mp hrouting
  have hvalid : isValidPlanSlug plan = true := (Option.filter_eq_some_iff.mp hslug).2
  rw [hslug, Option.bind_some] at hcontext
  refine ⟨hvalid, context, hcontext, ?_⟩
  simp only [hslug, Option.bind_some, hcontext, Option.some.injEq]

/-- What a visitor does: sign up with the plan field of the form, or verify the
e-mail address. -/
inductive VisitorAction
  | signUp (planField : Option String)
  | verifyEmail
  deriving DecidableEq, Repr

/-- The call that an action makes once the backend has accepted it. -/
def VisitorAction.call? (resolvePlanRouting : String → Option PlanContext) :
    VisitorAction → Option PlanCall
  | .signUp planField =>
    (signUpChoice resolvePlanRouting planField).map fun choice =>
      .setPendingPlan choice.plan choice.isTeam
  | .verifyEmail => some .consumePendingPlan

theorem valid_of_call? {resolvePlanRouting : String → Option PlanContext} {action : VisitorAction}
    {call : PlanCall} (h : action.call? resolvePlanRouting = some call) : call.Valid := by
  cases action with
  | signUp planField =>
    obtain ⟨choice, hchoice, rfl⟩ := Option.map_eq_some_iff.mp h
    exact (signUpChoice_eq_some hchoice).1
  | verifyEmail =>
    obtain rfl := Option.some.inj h
    trivial

/-- The verifications of a visitor are sent to the checkout of the last plan of
the sign-ups exactly under the same condition: the calls of the actions are all
valid. -/
theorem verifications_eq_iff (resolvePlanRouting : String → Option PlanContext)
    (actions : List VisitorAction) :
    PlanCookies.empty.answers (actions.filterMap (VisitorAction.call? resolvePlanRouting))
        = lastChoices none (actions.filterMap (VisitorAction.call? resolvePlanRouting))
      ↔ KeepsContext [] (actions.filterMap (VisitorAction.call? resolvePlanRouting)) := by
  refine answers_ofChoices_iff [] _ (by simp) fun call hcall => ?_
  obtain ⟨action, -, haction⟩ := List.mem_filterMap.mp hcall
  exact valid_of_call? haction

end Saasmint
