import Uptimepage.Async.Run
import Uptimepage.Async.Slots
import Uptimepage.Targets.Handlers

/-!
# The cap on flow monitors

Creates and bulk creates count an account's flow monitors under the account's lock, in the
transaction that inserts.  A PATCH that turns a monitor into a flow counts in the handler,
before a statement that takes no lock.
-/

namespace Uptimepage.Targets.FlowCap

open Async

/-- A row of `targets`, as far as it is counted. -/
structure Monitor where
  id : Uuid
  orgId : OrgId
  check : CheckSpec
deriving DecidableEq

structure Env where
  account : OrgId → Uuid
  plan : Uuid → Plan

/-- Where a request is.  Those of a create or bulk create carry the checks of its items. -/
inductive Phase
  /-- `check_can_create_targets`. -/
  | precheckTargets (org : OrgId) (checks : List CheckSpec)
  /-- `check_can_create_flow`. -/
  | precheckFlow (org : OrgId) (checks : List CheckSpec)
  /-- Waits for the account's lock. -/
  | locking (org : OrgId) (checks : List CheckSpec)
  | countingTargets (org : OrgId) (checks : List CheckSpec)
  | countingFlow (org : OrgId) (checks : List CheckSpec)
  | inserting (org : OrgId) (checks : List CheckSpec)
  /-- A PATCH reads the stored monitor. -/
  | reading (org : OrgId) (id : Uuid) (check : CheckSpec)
  /-- `gate_flow` and `check_can_create_flow`, for a net-new flow. -/
  | gating (org : OrgId) (id : Uuid) (check : CheckSpec)
  | writing (org : OrgId) (id : Uuid) (check : CheckSpec) (counted : Bool)
  | done
deriving DecidableEq

inductive Request
  | create (org : OrgId) (checks : List CheckSpec)
  | update (org : OrgId) (id : Uuid) (check : CheckSpec)
deriving DecidableEq

def Request.firstPhase : Request → Phase
  | .create org checks => .precheckTargets org checks
  | .update org id check => .reading org id check

structure State where
  rows : List Monitor
  nextId : Nat
  tasks : List Phase
deriving DecidableEq

inductive Event
  | begin (request : Request)
  | go (i : Nat)
  /-- Refused for another reason, or failed. -/
  | abort (i : Nat)
deriving DecidableEq

/-! ## Counting -/

def State.countTargets (env : Env) (s : State) (account : Uuid) : Nat :=
  s.rows.countP fun r => env.account r.orgId == account

def State.countFlow (env : Env) (s : State) (account : Uuid) : Nat :=
  s.rows.countP fun r => env.account r.orgId == account && r.check.isFlow

def flowsOf (checks : List CheckSpec) : Nat := checks.countP CheckSpec.isFlow

/-- The account whose lock a request holds. -/
def Phase.holds (env : Env) : Phase → Option Uuid
  | countingTargets org _ | countingFlow org _ | inserting org _ => some (env.account org)
  | _ => none

/-- The flow monitors of an account that a request has counted room for and is yet to write. -/
def Phase.reserved (env : Env) (account : Uuid) : Phase → Nat
  | inserting org checks => if env.account org = account then flowsOf checks else 0
  | writing org _ _ true => if env.account org = account then 1 else 0
  | _ => 0

def Phase.isUpdate : Phase → Bool
  | reading _ _ _ | gating _ _ _ | writing _ _ _ _ => true
  | _ => false

/-! ## Steps -/

namespace State

def setPhase (s : State) (i : Nat) (p : Phase) : State := { s with tasks := s.tasks.set i p }

def get (s : State) (org : OrgId) (id : Uuid) : Option Monitor :=
  s.rows.find? fun r => r.id == id && r.orgId == org

def rowsOf (s : State) (org : OrgId) (checks : List CheckSpec) : List Monitor :=
  checks.mapIdx fun i check => ⟨s.nextId + i, org, check⟩

def insert (s : State) (org : OrgId) (checks : List CheckSpec) : State :=
  { s with rows := s.rows ++ s.rowsOf org checks, nextId := s.nextId + checks.length }

def write (s : State) (org : OrgId) (id : Uuid) (check : CheckSpec) : State :=
  { s with
    rows := Table.update (fun r => r.id == id && r.orgId == org) (fun r => { r with check := check })
      s.rows }

end State

/-- Room for `n` more under a limit. -/
def room (current n : Nat) (limit : Int) : Bool := decide ((current + n : Int) ≤ limit)

/-- No flow among the items, or room for all of them. -/
def roomForFlow (env : Env) (s : State) (org : OrgId) (checks : List CheckSpec) : Bool :=
  flowsOf checks == 0 ||
    room (s.countFlow env (env.account org)) (flowsOf checks)
      (env.plan (env.account org)).maxFlowChecks

def roomForTargets (env : Env) (s : State) (org : OrgId) (checks : List CheckSpec) : Bool :=
  room (s.countTargets env (env.account org)) checks.length
    (env.plan (env.account org)).maxTargets

/-- What `gate_flow` and `check_can_create_flow` say of a net-new flow. -/
def gate (env : Env) (s : State) (org : OrgId) (check : CheckSpec) : Bool :=
  (gateFlow check (env.plan (env.account org))).isOk &&
    room (s.countFlow env (env.account org)) 1 (env.plan (env.account org)).maxFlowChecks

def advance (env : Env) (s : State) (i : Nat) : Phase → Option State
  | .precheckTargets org checks =>
    some (s.setPhase i (if roomForTargets env s org checks then .precheckFlow org checks else .done))
  | .precheckFlow org checks =>
    some (s.setPhase i (if roomForFlow env s org checks then .locking org checks else .done))
  | .locking org checks =>
    if s.tasks.all fun p => p.holds env != some (env.account org) then
      some (s.setPhase i (.countingTargets org checks))
    else none
  | .countingTargets org checks =>
    some (s.setPhase i (if roomForTargets env s org checks then .countingFlow org checks else .done))
  | .countingFlow org checks =>
    some (s.setPhase i (if roomForFlow env s org checks then .inserting org checks else .done))
  | .inserting org checks => some ((s.insert org checks).setPhase i .done)
  | .reading org id check =>
    let wasFlow := (s.get org id).any fun r => r.check.isFlow
    some (s.setPhase i (if check.isFlow && !wasFlow then .gating org id check
      else .writing org id check false))
  | .gating org id check =>
    some (s.setPhase i (if gate env s org check then .writing org id check true else .done))
  | .writing org id check _ => some ((s.write org id check).setPhase i .done)
  | .done => none

def step (env : Env) (s : State) : Event → Option State
  | .begin request => some { s with tasks := s.tasks ++ [request.firstPhase] }
  | .go i => s.tasks[i]?.bind (advance env s i)
  | .abort i => if i < s.tasks.length then some (s.setPhase i .done) else none

/-! ## What keeps the cap -/

/-- The flow monitors of an account that the statement of a request adds. -/
def added (env : Env) (account : Uuid) (s : State) : Phase → Nat
  | .inserting org checks => if env.account org = account then flowsOf checks else 0
  | .writing org id check _ =>
    if check.isFlow && (s.get org id).any fun r => env.account r.orgId == account && !r.check.isFlow
    then 1 else 0
  | _ => 0

/-- When a PATCH adds a flow monitor, it has counted it, and no other request of the account has
counted one that it is yet to write; when a create adds some, no PATCH has. -/
def apart (env : Env) (account : Uuid) (s : State) : Event → Bool
  | .go i =>
    match s.tasks[i]? with
    | some p =>
      added env account s p == 0 ||
        (decide (p.reserved env account = added env account s p) &&
          (List.range s.tasks.length).all fun j => j == i ||
            match s.tasks[j]? with
            | some q => (q.reserved env account == 0) || (!p.isUpdate && !q.isUpdate)
            | none => true)
    | none => true
  | _ => true

/-! ## What the writes do to the count -/

section

variable {env : Env} {account : Uuid} {s s' : State} {i : Nat} {p : Phase}

theorem countP_items (env : Env) (account : Uuid) (org : OrgId) (checks : List CheckSpec)
    (f : Nat → Uuid) :
    (checks.mapIdx fun i check => Monitor.mk (f i) org check).countP
        (fun r => env.account r.orgId == account && r.check.isFlow) =
      if env.account org = account then flowsOf checks else 0 := by
  induction checks generalizing f with
  | nil => simp [flowsOf]
  | cons check rest ih =>
    rw [List.mapIdx_cons, List.countP_cons, ih fun i => f (i + 1)]
    unfold flowsOf
    rw [List.countP_cons]
    by_cases horg : env.account org = account
    · simp [horg]
    · simp [horg]

theorem countFlow_insert (org : OrgId) (checks : List CheckSpec) :
    (s.insert org checks).countFlow env account =
      s.countFlow env account + added env account s (.inserting org checks) := by
  unfold State.countFlow State.insert
  rw [List.countP_append]
  exact congrArg _ (countP_items env account org checks _)

/-- Ids are given out once. -/
structure Keyed (s : State) : Prop where
  nodup : (s.rows.map Monitor.id).Nodup
  fresh : ∀ r ∈ s.rows, r.id < s.nextId

theorem Keyed.one (h : Keyed s) (org : OrgId) (id : Uuid) :
    s.rows.Pairwise fun a b => (a.id == id && a.orgId == org) = true →
      (b.id == id && b.orgId == org) = false := by
  refine (List.pairwise_map.mp h.nodup).imp ?_
  intro a b hne ha
  simp only [Bool.and_eq_true, beq_iff_eq] at ha
  have hb : b.id ≠ id := fun hb => hne (ha.1.trans hb.symm)
  simp [hb]

theorem countFlow_write (h : Keyed s) (org : OrgId) (id : Uuid) (check : CheckSpec)
    (counted : Bool) : (s.write org id check).countFlow env account ≤
      s.countFlow env account + added env account s (.writing org id check counted) := by
  unfold State.countFlow State.write
  dsimp only
  cases hget : s.get org id with
  | none =>
    unfold State.get at hget
    rw [Table.update_of_find?_none hget]
    exact Nat.le_add_right _ _
  | some r =>
    have hcount := Table.countP_update_one (q := fun r : Monitor =>
      env.account r.orgId == account && r.check.isFlow)
      (f := fun r => { r with check := check }) (h.one org id) hget
    simp only [added, hget, Option.any_some]
    dsimp only at hcount
    cases hnew : check.isFlow <;> cases hold : r.check.isFlow <;>
      cases hacc : (env.account r.orgId == account) <;> simp [hnew, hold, hacc] at hcount ⊢ <;>
      omega

/-! ## What a step can do -/

/-- A move that writes nothing: room is counted for what it reserves, and a lock is taken only
when it is free. -/
structure Quiet (env : Env) (s : State) (p p' : Phase) : Prop where
  reserved : ∀ account, p'.reserved env account = 0 ∨
    (s.countFlow env account + p'.reserved env account : Int) ≤ (env.plan account).maxFlowChecks
  holds : p'.holds env = none ∨ p'.holds env = p.holds env ∨
    ∀ q ∈ s.tasks, q.holds env ≠ p'.holds env

variable {p' : Phase} {org : OrgId} {checks : List CheckSpec} {e : Event}

theorem Quiet.idle (hreserved : ∀ account, p'.reserved env account = 0)
    (hholds : p'.holds env = none ∨ p'.holds env = p.holds env) : Quiet env s p p' :=
  ⟨fun account => .inl (hreserved account), hholds.imp_right .inl⟩

theorem Quiet.done : Quiet env s p .done := .idle (fun _ => rfl) (.inl rfl)

theorem room_reserved (h : roomForFlow env s org checks = true) (account : Uuid) :
    (Phase.inserting org checks).reserved env account = 0 ∨
      (s.countFlow env account + (Phase.inserting org checks).reserved env account : Int) ≤
        (env.plan account).maxFlowChecks := by
  by_cases horg : env.account org = account
  · subst horg
    simp only [Phase.reserved, ↓reduceIte]
    rcases Bool.or_eq_true_iff.mp h with hzero | hroom
    · exact .inl (beq_iff_eq.mp hzero)
    · exact .inr (of_decide_eq_true hroom)
  · exact .inl (if_neg horg)

theorem gate_reserved {id : Uuid} {check : CheckSpec} (h : gate env s org check = true)
    (account : Uuid) :
    (Phase.writing org id check true).reserved env account = 0 ∨
      (s.countFlow env account + (Phase.writing org id check true).reserved env account : Int) ≤
        (env.plan account).maxFlowChecks := by
  by_cases horg : env.account org = account
  · subst horg
    simp only [Phase.reserved, ↓reduceIte]
    exact .inr (of_decide_eq_true (Bool.and_eq_true_iff.mp h).2)
  · exact .inl (if_neg horg)

theorem advance_cases (h : advance env s i p = some s') :
    (∃ p', s' = s.setPhase i p' ∧ Quiet env s p p') ∨
    (∃ org checks, p = .inserting org checks ∧ s' = (s.insert org checks).setPhase i .done) ∨
    (∃ org id check counted, p = .writing org id check counted ∧
      s' = (s.write org id check).setPhase i .done) := by
  cases p with
  | precheckTargets org checks =>
    cases h
    refine .inl ⟨_, rfl, ?_⟩
    split
    · exact .idle (fun _ => rfl) (.inl rfl)
    · exact .done
  | precheckFlow org checks =>
    cases h
    refine .inl ⟨_, rfl, ?_⟩
    split
    · exact .idle (fun _ => rfl) (.inl rfl)
    · exact .done
  | locking org checks =>
    simp only [advance] at h
    split at h
    · next hfree =>
      cases h
      refine .inl ⟨_, rfl, fun _ => .inl rfl, .inr (.inr ?_)⟩
      intro q hq
      exact bne_iff_ne.mp (List.all_eq_true.mp hfree q hq)
    · cases h
  | countingTargets org checks =>
    cases h
    refine .inl ⟨_, rfl, ?_⟩
    split
    · exact .idle (fun _ => rfl) (.inr rfl)
    · exact .done
  | countingFlow org checks =>
    cases h
    refine .inl ⟨_, rfl, ?_⟩
    split
    · next hroom => exact ⟨room_reserved hroom, .inr (.inl rfl)⟩
    · exact .done
  | inserting org checks =>
    cases h
    exact .inr (.inl ⟨org, checks, rfl, rfl⟩)
  | reading org id check =>
    cases h
    refine .inl ⟨_, rfl, ?_⟩
    split <;> exact .idle (fun _ => rfl) (.inl rfl)
  | gating org id check =>
    cases h
    refine .inl ⟨_, rfl, ?_⟩
    split
    · next hgate => exact ⟨gate_reserved hgate, .inl rfl⟩
    · exact .done
  | writing org id check counted =>
    cases h
    exact .inr (.inr ⟨org, id, check, counted, rfl, rfl⟩)
  | done => cases h

theorem step_cases (h : step env s e = some s') :
    (∃ request, e = .begin request ∧ s' = { s with tasks := s.tasks ++ [request.firstPhase] }) ∨
    (∃ i p, e = .go i ∧ s.tasks[i]? = some p ∧ advance env s i p = some s') ∨
    (∃ i, e = .abort i ∧ s' = s.setPhase i .done) := by
  cases e with
  | begin request =>
    cases h
    exact .inl ⟨request, rfl, rfl⟩
  | go i =>
    obtain ⟨p, hp, hadvance⟩ := Option.bind_eq_some_iff.mp h
    exact .inr (.inl ⟨i, p, rfl, hp, hadvance⟩)
  | abort i =>
    simp only [step] at h
    split at h
    · cases h
      exact .inr (.inr ⟨i, rfl, rfl⟩)
    · cases h

/-! ## The invariant -/

/-- One request at a time holds an account's lock. -/
def Exclusive (env : Env) (s : State) : Prop :=
  ∀ (i j : Nat) (p q : Phase) (b : Uuid), s.tasks[i]? = some p → s.tasks[j]? = some q →
    p.holds env = some b → q.holds env = some b → i = j

/-- The cap, with what each request has counted room for. -/
structure Capped (env : Env) (account : Uuid) (s : State) : Prop where
  keyed : Keyed s
  exclusive : Exclusive env s
  cap : (s.countFlow env account : Int) ≤ (env.plan account).maxFlowChecks
  reserved : ∀ (i : Nat) (p : Phase), s.tasks[i]? = some p → p.reserved env account = 0 ∨
    (s.countFlow env account + p.reserved env account : Int) ≤ (env.plan account).maxFlowChecks

theorem Exclusive.set (h : Exclusive env s) (hp : s.tasks[i]? = some p)
    (hq : p'.holds env = none ∨ p'.holds env = p.holds env ∨
      ∀ q ∈ s.tasks, q.holds env ≠ p'.holds env) : Exclusive env (s.setPhase i p') := by
  have hnew : ∀ (j : Nat) (q : Phase) (b : Uuid), s.tasks[j]? = some q →
      p'.holds env = some b → q.holds env = some b → j = i := by
    intro j q b hj hb hqb
    rcases hq with hnone | hsame | hfree
    · rw [hnone] at hb
      cases hb
    · exact h j i q p b hj hp hqb (hsame ▸ hb)
    · exact absurd (hqb.trans hb.symm) (hfree q (List.mem_of_getElem? hj))
  intro j k q r b hj hk hqb hrb
  rcases getElem?_set_cases hj with ⟨hji, rfl⟩ | ⟨-, hj'⟩ <;>
    rcases getElem?_set_cases hk with ⟨hki, rfl⟩ | ⟨-, hk'⟩
  · exact hji.trans hki.symm
  · exact hji.trans (hnew k r b hk' hqb hrb).symm
  · exact (hnew j q b hj' hrb hqb).trans hki.symm
  · exact h j k q r b hj' hk' hqb hrb

theorem Capped.quiet (h : Capped env account s) (hp : s.tasks[i]? = some p)
    (hquiet : Quiet env s p p') : Capped env account (s.setPhase i p') := by
  refine ⟨⟨h.keyed.nodup, h.keyed.fresh⟩, h.exclusive.set hp hquiet.holds, h.cap, ?_⟩
  intro j q hj
  rcases getElem?_set_cases hj with ⟨-, rfl⟩ | ⟨-, hj⟩
  · exact hquiet.reserved account
  · exact h.reserved j q hj

theorem Capped.written (h : Capped env account s) {t : State} (hp : s.tasks[i]? = some p)
    (hkeyed : Keyed t) (htasks : t.tasks = s.tasks)
    (hcount : t.countFlow env account ≤ s.countFlow env account + added env account s p)
    (hown : added env account s p = 0 ∨ p.reserved env account = added env account s p)
    (hothers : added env account s p = 0 ∨ ∀ (j : Nat) (q : Phase), s.tasks[j]? = some q → j ≠ i →
      q.reserved env account = 0) : Capped env account (t.setPhase i .done) := by
  have hexclusive : Exclusive env t := by
    unfold Exclusive
    rw [htasks]
    exact h.exclusive
  refine ⟨⟨hkeyed.nodup, hkeyed.fresh⟩, hexclusive.set (htasks ▸ hp) (.inl rfl), ?_, ?_⟩
  · have hcap := h.cap
    have hreserved := h.reserved i p hp
    change (t.countFlow env account : Int) ≤ _
    omega
  · intro j q hj
    rcases getElem?_set_cases hj with ⟨-, rfl⟩ | ⟨hne, hj⟩
    · exact .inl rfl
    · rw [htasks] at hj
      change q.reserved env account = 0 ∨ (t.countFlow env account + _ : Int) ≤ _
      rcases hothers with hzero | hothers
      · have hreserved := h.reserved j q hj
        omega
      · exact .inl (hothers j q hj hne)

theorem Keyed.insert (h : Keyed s) (org : OrgId) (checks : List CheckSpec) :
    Keyed (s.insert org checks) := by
  have hitem : ∀ r ∈ s.rowsOf org checks, s.nextId ≤ r.id ∧ r.id < s.nextId + checks.length := by
    intro r hr
    obtain ⟨i, hi, rfl⟩ := List.mem_mapIdx.mp hr
    exact ⟨Nat.le_add_right _ _, Nat.add_lt_add_left hi _⟩
  constructor
  · unfold State.insert
    rw [List.map_append, List.nodup_append']
    refine ⟨h.nodup, ?_, ?_⟩
    · unfold State.rowsOf
      rw [List.Nodup, List.pairwise_map, List.pairwise_iff_getElem]
      intro i j hi hj hij
      simp only [List.getElem_mapIdx, ne_eq]
      intro heq
      exact Nat.ne_of_lt hij (Nat.add_left_cancel heq)
    · intro x hx hx'
      obtain ⟨r, hr, rfl⟩ := List.mem_map.mp hx
      obtain ⟨r', hr', hid⟩ := List.mem_map.mp hx'
      exact absurd (hid ▸ (hitem r' hr').1) (Nat.not_le_of_lt (h.fresh r hr))
  · intro r hr
    rcases List.mem_append.mp hr with hr | hr
    · exact Nat.lt_add_right _ (h.fresh r hr)
    · exact (hitem r hr).2

theorem Keyed.write (h : Keyed s) (org : OrgId) (id : Uuid) (check : CheckSpec) :
    Keyed (s.write org id check) := by
  have hids : (s.write org id check).rows.map Monitor.id = s.rows.map Monitor.id :=
    Table.map_update (f := fun r => { r with check := check }) (fun _ => rfl) s.rows
  constructor
  · rw [hids]
    exact h.nodup
  · intro r hr
    have hmem : r.id ∈ s.rows.map Monitor.id := hids ▸ List.mem_map_of_mem hr
    obtain ⟨r₀, hr₀, hid⟩ := List.mem_map.mp hmem
    rw [← hid]
    exact h.fresh r₀ hr₀

theorem apart_added (happart : apart env account s (.go i) = true) (hp : s.tasks[i]? = some p) :
    added env account s p = 0 ∨
      (p.reserved env account = added env account s p ∧
        ∀ (j : Nat) (q : Phase), s.tasks[j]? = some q → j ≠ i →
          q.reserved env account = 0 ∨ (p.isUpdate = false ∧ q.isUpdate = false)) := by
  simp only [apart, hp, Bool.or_eq_true, beq_iff_eq, Bool.and_eq_true, decide_eq_true_eq,
    List.all_eq_true, List.mem_range] at happart
  refine happart.imp_right fun ⟨hown, hall⟩ => ⟨hown, ?_⟩
  intro j q hj hne
  have hlt := (List.getElem?_eq_some_iff.mp hj).1
  rcases hall j hlt with heq | hother
  · exact absurd heq hne
  · rw [hj] at hother
    simpa using hother

theorem Capped.others (h : Capped env account s) (hp : s.tasks[i]? = some (.inserting org checks))
    (hadds : added env account s (.inserting org checks) ≠ 0) {j : Nat} {q : Phase}
    (hq : s.tasks[j]? = some q) (hne : j ≠ i) (hcreate : q.isUpdate = false) :
    q.reserved env account = 0 := by
  have horg : env.account org = account := by
    by_contra hother
    exact hadds (if_neg hother)
  cases q with
  | inserting org' checks' =>
    refine if_neg fun horg' => hne ?_
    exact h.exclusive j i _ _ account hq hp (congrArg some horg') (congrArg some horg)
  | writing org' id check counted => cases hcreate
  | _ => rfl

theorem Capped.step (h : Capped env account s) (happart : apart env account s e = true)
    (heq : step env s e = some s') : Capped env account s' := by
  rcases step_cases heq with ⟨request, rfl, rfl⟩ | ⟨i, p, rfl, hp, hadvance⟩ | ⟨i, rfl, rfl⟩
  · have hfirst : request.firstPhase.holds env = none ∧
        request.firstPhase.reserved env account = 0 := by
      cases request <;> exact ⟨rfl, rfl⟩
    refine ⟨⟨h.keyed.nodup, h.keyed.fresh⟩, ?_, h.cap, ?_⟩
    · intro j k q r b hj hk hqb hrb
      rcases getElem?_snoc_cases hj with hj | ⟨-, rfl⟩
      · rcases getElem?_snoc_cases hk with hk | ⟨-, rfl⟩
        · exact h.exclusive j k q r b hj hk hqb hrb
        · rw [hfirst.1] at hrb
          cases hrb
      · rw [hfirst.1] at hqb
        cases hqb
    · intro j q hj
      rcases getElem?_snoc_cases hj with hj | ⟨-, rfl⟩
      · exact h.reserved j q hj
      · exact .inl hfirst.2
  · have hadded := apart_added happart hp
    rcases advance_cases hadvance with ⟨p', rfl, hquiet⟩ | ⟨org, checks, rfl, rfl⟩ |
      ⟨org, id, check, counted, rfl, rfl⟩
    · exact h.quiet hp hquiet
    · refine h.written hp (h.keyed.insert org checks) rfl (countFlow_insert org checks).le
        (hadded.imp_right And.left) ?_
      rcases hadded with hzero | ⟨-, hothers⟩
      · exact .inl hzero
      · by_cases hzero : added env account s (.inserting org checks) = 0
        · exact .inl hzero
        · right
          intro j q hj hne
          rcases hothers j q hj hne with hnone | ⟨-, hcreate⟩
          · exact hnone
          · exact h.others hp hzero hj hne hcreate
    · refine h.written hp (h.keyed.write org id check) rfl
        (countFlow_write h.keyed org id check counted) (hadded.imp_right And.left) ?_
      rcases hadded with hzero | ⟨-, hothers⟩
      · exact .inl hzero
      · right
        intro j q hj hne
        rcases hothers j q hj hne with hnone | ⟨hcreate, -⟩
        · exact hnone
        · cases hcreate
  · cases hp : s.tasks[i]? with
    | none =>
      have hsame : s.setPhase i .done = s := by
        unfold State.setPhase
        rw [List.set_eq_of_length_le (List.getElem?_eq_none_iff.mp hp)]
      rwa [hsame]
    | some p => exact h.quiet hp .done

/-- **The cap on flow monitors holds under concurrency**, from any state within it, as long as no
PATCH adds a flow monitor, uncounted or while another request has room counted, and none has
when a create does. -/
theorem flow_cap_of_apart {s₀ : State} (hkeyed : Keyed s₀) (hidle : s₀.tasks = [])
    (hcap : (s₀.countFlow env account : Int) ≤ (env.plan account).maxFlowChecks)
    (hrun : Run (step env) (fun s e => apart env account s e = true) s₀ s) :
    (s.countFlow env account : Int) ≤ (env.plan account).maxFlowChecks := by
  have hstart : Capped env account s₀ :=
    ⟨hkeyed, by simp [Exclusive, hidle], hcap, by simp [hidle]⟩
  have hcapped : Capped env account s :=
    hrun.invariant hstart fun _ _ _ h hok heq => h.step hok heq
  exact hcapped.cap

end

/-! ## Two PATCHes at once -/

namespace Two

def env : Env where
  account := fun _ => 0
  plan := fun _ => ⟨"free", 10, 60, 1, 30, 1⟩

def site : Url := ⟨"https", some (.domain "example.com"), none⟩

def flow : CheckSpec := .flow ⟨site, [.assertUrl "done"], 30000, 5000⟩

def tcp : CheckSpec := .tcp ⟨"db.example.com", 5432, 3000⟩

/-- Two tcp monitors, on a plan with one flow monitor. -/
def start : State := ⟨[⟨0, 1, tcp⟩, ⟨1, 1, tcp⟩], 2, []⟩

theorem start_keyed : Keyed start := ⟨by decide, by simp [start]⟩

/-- Both PATCHes count before either writes. -/
def interleaved : List Event :=
  [.begin (.update 1 0 flow), .begin (.update 1 1 flow), .go 0, .go 1, .go 0, .go 1, .go 0, .go 1]

/-- The second begins when the first has written; a create after them is refused too. -/
def oneByOne : List Event :=
  [.begin (.update 1 0 flow), .go 0, .go 0, .go 0, .begin (.update 1 1 flow), .go 1, .go 1,
    .begin (.create 1 [flow]), .go 2, .go 2]

end Two

theorem flow_cap_of_apart_refused : ∃ s, s.tasks = [.done, .done, .done] ∧
    Run (step Two.env) (fun s e => apart Two.env 0 s e = true) Two.start s ∧
    (s.countFlow Two.env 0 : Int) ≤ (Two.env.plan 0).maxFlowChecks := by
  obtain ⟨s, hrun, htasks⟩ := exists_run_of_steps (show
    (steps (guarded (step Two.env) fun s e => apart Two.env 0 s e) Two.start Two.oneByOne).any
      (fun s => s.tasks == [.done, .done, .done]) = true by decide +kernel)
  have hapart : Run (step Two.env) (fun s e => apart Two.env 0 s e = true) Two.start s :=
    hrun.unguard fun _ _ h => h
  exact ⟨s, beq_iff_eq.mp htasks, hapart,
    flow_cap_of_apart Two.start_keyed rfl (by decide) hapart⟩

/-- Two monitors of one organisation are patched to flows at once on a plan that allows one. -/
theorem flow_cap_exceeded : ¬ ∀ (env : Env) (account : Uuid) (s₀ s : State), Keyed s₀ →
    s₀.tasks = [] → (s₀.countFlow env account : Int) ≤ (env.plan account).maxFlowChecks →
    Run (step env) (fun _ _ => True) s₀ s →
    (s.countFlow env account : Int) ≤ (env.plan account).maxFlowChecks := by
  intro h
  obtain ⟨s, hrun, hcount⟩ := exists_run_of_steps (show
    (steps (step Two.env) Two.start Two.interleaved).any
      (fun s => s.countFlow Two.env 0 == 2) = true by decide +kernel)
  have hcap := h Two.env 0 Two.start s Two.start_keyed rfl (by decide) hrun
  rw [beq_iff_eq.mp hcount] at hcap
  exact absurd hcap (by decide)

end Uptimepage.Targets.FlowCap
