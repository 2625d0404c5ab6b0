import Uptimepage.Async.Tasks
import Uptimepage.Domain.Incident
import Uptimepage.Sql.Rows

/-!
# Caps on confirmation mails and invitations

The mint of a confirm token counts and inserts in one statement, and an invitation counts the
sends on record before it mails.  Neither takes a lock: of the statements that run together each
counts what the others have not yet committed as nothing (`caps_exceeded`).
-/

namespace Uptimepage.MailCaps

open Async Sql

def PER_SUBSCRIBER_DAILY_CAP : Nat := 3

def PER_PAGE_DAILY_CAP : Nat := 200

def PER_ADDRESS_DAILY_CAP : Nat := 10

def CONFIRM_TTL_HOURS : Int := 24

def MAX_SENDS_PER_WINDOW : Nat := 25

def SEND_WINDOW_HOURS : Int := 24

/-- `t > now() - make_interval(hours => …)`. -/
def recent (hours : Int) (now t : Time) : Bool := decide (now - seconds (hours * 3600) < t)

/-- In the hours that end at `last`. -/
def inWindow (hours : Int) (last t : Time) : Bool := recent hours last t && decide (t ≤ last)

/-- A row of `status_page_subscriber_tokens`. -/
structure ConfirmToken where
  subscriberId : Uuid
  orgId : OrgId
  target : String
  tokenHash : String
  createdAt : Time
  expiresAt : Time
deriving DecidableEq

/-- A row of `org_audit_log` whose action is `invitation.sent`. -/
structure InvitationSent where
  orgId : OrgId
  actor : UserId
  invitationId : Uuid
  occurredAt : Time
deriving DecidableEq

/-- `sent` and `unrecorded`, not in the source, log the mails that left for each organisation, and
those of them whose record failed. -/
structure Store where
  now : Time
  tokens : Rows ConfirmToken.tokenHash
  audit : List InvitationSent
  nextId : Nat
  sent : List (OrgId × Time)
  unrecorded : List (OrgId × Time)

structure Env where
  statusPageId : Uuid → Uuid

/-- What a cap is per. -/
inductive Scope
  | subscriber (id : Uuid)
  | page (id : Uuid)
  | address (target : String)
deriving DecidableEq

def Scope.cap : Scope → Nat
  | subscriber _ => PER_SUBSCRIBER_DAILY_CAP
  | page _ => PER_PAGE_DAILY_CAP
  | address _ => PER_ADDRESS_DAILY_CAP

def Scope.covers (env : Env) (subscriberId : Uuid) (target : String) : Scope → Bool
  | subscriber id => subscriberId == id
  | page id => env.statusPageId subscriberId == id
  | address a => target == a

/-- The arguments of `mint_confirm_token`. -/
structure Mint where
  subscriberId : Uuid
  orgId : OrgId
  target : String
  expiresAt : Time
deriving DecidableEq

def Mint.scopes (env : Env) (m : Mint) : List Scope :=
  [.subscriber m.subscriberId, .page (env.statusPageId m.subscriberId), .address m.target]

namespace Store

/-- The tokens of a scope that a time test selects. -/
def minted (env : Env) (st : Store) (scope : Scope) (q : Time → Bool) : Nat :=
  st.tokens.rows.countP fun t => scope.covers env t.subscriberId t.target && q t.createdAt

/-- The `WHERE` of the mint. -/
def admits (env : Env) (st : Store) (m : Mint) : Bool :=
  (m.scopes env).all fun scope => decide (st.minted env scope (recent 24 st.now) < scope.cap)

def insertToken (st : Store) (m : Mint) (hash : String) (startedAt : Time) : Store :=
  { st with
    tokens := st.tokens.insert
      ⟨m.subscriberId, m.orgId, m.target, hash, startedAt, m.expiresAt⟩ }

/-- The sends on record that a time test selects. -/
def recorded (st : Store) (org : OrgId) (q : Time → Bool) : Nat :=
  st.audit.countP fun a => a.orgId == org && q a.occurredAt

def ensureSendWindow (st : Store) (org : OrgId) : Bool :=
  decide (st.recorded org (recent SEND_WINDOW_HOURS st.now) < MAX_SENDS_PER_WINDOW)

/-- The mails that left, of those that a time test selects. -/
def sends (st : Store) (org : OrgId) (q : Time → Bool) : Nat :=
  st.sent.countP fun e => e.1 == org && q e.2

def lost (st : Store) (org : OrgId) (q : Time → Bool) : Nat :=
  st.unrecorded.countP fun e => e.1 == org && q e.2

def mail (st : Store) (org : OrgId) : Store := { st with sent := st.sent ++ [(org, st.now)] }

def recordSend (st : Store) (org : OrgId) (inviter : UserId) (invitation : Uuid)
    (startedAt : Time) : Store :=
  { st with audit := st.audit ++ [⟨org, inviter, invitation, startedAt⟩] }

/-- A send that is not recorded is only logged. -/
def loseSend (st : Store) (org : OrgId) (sentAt : Time) : Store :=
  { st with unrecorded := st.unrecorded ++ [(org, sentAt)] }

end Store

inductive Request
  | mint (subscriberId : Uuid) (orgId : OrgId) (target : String)
  | create (org : OrgId) (inviter : UserId)
  | resend (org : OrgId) (inviter : UserId) (invitation : Uuid)
deriving DecidableEq

/-- What `create` and `persist_resend` write is not read here: they succeed or fail. -/
inductive Phase
  /-- Before `expires_at` is computed. -/
  | minting (subscriberId : Uuid) (orgId : OrgId) (target : String)
  | counting (m : Mint)
  | inserting (m : Mint) (startedAt : Time)
  | ensuring (org : OrgId) (inviter : UserId) (resent : Option Uuid)
  | creating (org : OrgId) (inviter : UserId)
  | sending (org : OrgId) (inviter : UserId) (invitation : Uuid) (resends : Bool)
  | recording (org : OrgId) (inviter : UserId) (invitation : Uuid) (resends : Bool)
    (sentAt : Time)
  | committing (org : OrgId) (inviter : UserId) (invitation : Uuid) (resends : Bool)
    (sentAt startedAt : Time)
  | persisting (org : OrgId) (invitation : Uuid)
  | revoking (org : OrgId) (invitation : Uuid)
  | done
deriving DecidableEq

def Request.first : Request → Phase
  | mint subscriberId orgId target => .minting subscriberId orgId target
  | create org inviter => .ensuring org inviter none
  | resend org inviter invitation => .ensuring org inviter (some invitation)

inductive Choice
  | ok
  /-- The call fails, with no effect. -/
  | fails
  | draw (hash : String)
deriving DecidableEq

/-- After the mail. -/
def afterSend (org : OrgId) (invitation : Uuid) (resends : Bool) : Phase :=
  if resends then .persisting org invitation else .done

section

variable (env : Env)

def next (st : Store) : Phase → Choice → Option (Store × Phase)
  | .done, _ => none
  | .recording org _ invitation resends sentAt, .fails
  | .committing org _ invitation resends sentAt _, .fails =>
    some (st.loseSend org sentAt, afterSend org invitation resends)
  | .sending org _ invitation resends, .fails =>
    some (st, if resends then .done else .revoking org invitation)
  | _, .fails => some (st, .done)
  | .minting subscriberId orgId target, .ok =>
    some (st, .counting ⟨subscriberId, orgId, target, st.now + seconds (CONFIRM_TTL_HOURS * 3600)⟩)
  | .counting m, .ok => some (st, if st.admits env m then .inserting m st.now else .done)
  | .inserting m startedAt, .draw hash =>
    if (st.tokens.get? hash).isSome then none
    else some (st.insertToken m hash startedAt, .done)
  | .ensuring org inviter resent, .ok =>
    some (st,
      if st.ensureSendWindow org then
        match resent with
        | none => .creating org inviter
        | some invitation => .sending org inviter invitation true
      else .done)
  | .creating org inviter, .ok =>
    some ({ st with nextId := st.nextId + 1 }, .sending org inviter st.nextId false)
  | .sending org inviter invitation resends, .ok =>
    some (st.mail org, .recording org inviter invitation resends st.now)
  | .recording org inviter invitation resends sentAt, .ok =>
    some (st, .committing org inviter invitation resends sentAt st.now)
  | .committing org inviter invitation resends _ startedAt, .ok =>
    some (st.recordSend org inviter invitation startedAt, afterSend org invitation resends)
  | .persisting _ _, .ok => some (st, .done)
  | .revoking _ _, .ok => some (st, .done)
  | _, _ => none

def program : Program Store Phase Request Choice Nat where
  first := Request.first
  next := next env
  outer := fun st passed => { st with now := st.now + passed }

/-! ## What is under way -/

/-- A mint that has passed its counts and is yet to commit. -/
def Phase.mints (scope : Scope) (q : Time → Bool) : Phase → Bool
  | inserting m startedAt => scope.covers env m.subscriberId m.target && q startedAt
  | _ => false

/-- An invitation that has passed the window and is yet to mail. -/
def Phase.pending (org : OrgId) : Phase → Bool
  | creating org' _ | sending org' _ _ _ => org' == org
  | _ => false

/-- A mail that left and is yet to be recorded. -/
def Phase.unwritten (org : OrgId) (q : Time → Bool) : Phase → Bool
  | recording org' _ _ _ sentAt | committing org' _ _ _ sentAt _ => org' == org && q sentAt
  | _ => false

def underway (s : Pooled Store Phase) (scope : Scope) (q : Time → Bool) : Nat :=
  s.tasks.countP (Phase.mints env scope q)

def pending (s : Pooled Store Phase) (org : OrgId) : Nat := s.tasks.countP (Phase.pending org)

/-- The mails that left without a record. -/
def unseen (s : Pooled Store Phase) (org : OrgId) (q : Time → Bool) : Nat :=
  s.tasks.countP (Phase.unwritten org q) + s.store.lost org q

/-- What a count does not see leaves room under the cap, if there is any. -/
def leaves (counted missed cap : Nat) : Bool := missed == 0 || decide (counted + missed < cap)

/-- Every count that is taken leaves room for the mints under way, or for the invitations under
way and the mails that were not recorded. -/
def roomy (s : Pooled Store Phase) : Act Request Choice Nat → Bool
  | .go i .ok =>
    match s.tasks[i]? with
    | some (.counting m) => (m.scopes env).all fun scope =>
      leaves (s.store.minted env scope (recent 24 s.store.now))
        (underway env s scope (recent 24 s.store.now)) scope.cap
    | some (.ensuring org _ _) =>
      leaves (s.store.recorded org (recent SEND_WINDOW_HOURS s.store.now))
        (pending s org + unseen s org (recent SEND_WINDOW_HOURS s.store.now)) MAX_SENDS_PER_WINDOW
    | _ => true
  | _ => true

end

/-! ## Windows -/

section

variable (env : Env) {s s' : Pooled Store Phase} {st : Store} {i : Nat} {p p' : Phase} {org : OrgId}
  {hours now last : Int} {q q' : Time → Bool} {scope : Scope} {m : Mint}

variable {t startedAt sentAt : Time}

theorem recent_of_inWindow (hle : now ≤ last) (h : inWindow hours last t = true) :
    recent hours now t = true := by
  unfold inWindow at h
  have hlt : last - seconds (hours * 3600) < t := of_decide_eq_true (Bool.and_eq_true_iff.mp h).1
  exact decide_eq_true (Int.lt_of_le_of_lt (Int.sub_le_sub_right hle _) hlt)

theorem recent_mono (hle : now ≤ last) (h : recent hours last t = true) :
    recent hours now t = true := by
  have hlt : last - seconds (hours * 3600) < t := of_decide_eq_true h
  exact decide_eq_true (Int.lt_of_le_of_lt (Int.sub_le_sub_right hle _) hlt)

theorem le_of_inWindow (h : inWindow hours last t = true) : t ≤ last := by
  unfold inWindow at h
  exact of_decide_eq_true (Bool.and_eq_true_iff.mp h).2

theorem lt_of_leaves {counted missed cap : Nat} (h : leaves counted missed cap = true)
    (hcounted : counted < cap) : counted + missed < cap := by
  unfold leaves at h
  rcases Bool.or_eq_true_iff.mp h with hnone | hlt
  · rw [beq_iff_eq.mp hnone]
    exact hcounted
  · exact of_decide_eq_true hlt

/-! ## Mints -/

/-- The tokens of a scope, those under way among them. -/
def grants (s : Pooled Store Phase) (scope : Scope) (q : Time → Bool) : Nat :=
  s.store.minted env scope q + underway env s scope q

/-- No window has more of them than the cap. -/
def Capped (s : Pooled Store Phase) : Prop :=
  ∀ scope last, grants env s scope (inWindow 24 last) ≤ scope.cap

variable {env}

theorem grants_mono (h : ∀ t, q t = true → q' t = true) :
    grants env s scope q ≤ grants env s scope q' := by
  refine Nat.add_le_add ?_ ?_
  · refine List.countP_mono_left ?_
    intro t _ ht
    simp only [Bool.and_eq_true] at ht ⊢
    exact ⟨ht.1, h _ ht.2⟩
  · refine List.countP_mono_left ?_
    intro p _ hp
    cases p with
    | inserting m startedAt =>
      simp only [Phase.mints, Bool.and_eq_true] at hp ⊢
      exact ⟨hp.1, h _ hp.2⟩
    | _ => cases hp

theorem grants_set (env : Env) (st : Store) (hp : s.tasks[i]? = some p) (p' : Phase) (scope : Scope)
    (q : Time → Bool) : grants env ⟨st, s.tasks.set i p'⟩ scope q +
        (s.store.minted env scope q + if p.mints env scope q then 1 else 0) =
      grants env s scope q +
        (st.minted env scope q + if p'.mints env scope q then 1 else 0) := by
  have hcount := countP_set_add (Phase.mints env scope q) hp p'
  unfold grants underway
  dsimp only
  omega

theorem Capped.quiet (h : Capped env s) (hp : s.tasks[i]? = some p)
    (htokens : st.tokens = s.store.tokens)
    (hnone : ∀ scope q, p'.mints env scope q = false) :
    Capped env ⟨st, s.tasks.set i p'⟩ := by
  intro scope last
  have hset := grants_set env st hp p' scope (inWindow 24 last)
  have hsame : st.minted env scope (inWindow 24 last) =
      s.store.minted env scope (inWindow 24 last) := by
    unfold Store.minted
    rw [htokens]
  have hcap := h scope last
  rw [hsame, hnone, if_neg Bool.false_ne_true] at hset
  omega

theorem mem_scopes (h : scope.covers env m.subscriberId m.target = true) :
    scope ∈ m.scopes env := by
  unfold Mint.scopes
  cases scope with
  | subscriber id =>
    rw [← beq_iff_eq.mp h]
    exact List.mem_cons_self
  | page id =>
    rw [← beq_iff_eq.mp h]
    exact List.mem_cons_of_mem _ List.mem_cons_self
  | address a =>
    rw [← beq_iff_eq.mp h]
    exact List.mem_cons_of_mem _ (List.mem_cons_of_mem _ List.mem_cons_self)

theorem Capped.counted (h : Capped env s) (hp : s.tasks[i]? = some (.counting m))
    (hadmits : s.store.admits env m = true) (hroomy : roomy env s (.go i .ok) = true) :
    Capped env ⟨s.store, s.tasks.set i (.inserting m s.store.now)⟩ := by
  intro scope last
  have hset := grants_set env s.store hp (.inserting m s.store.now) scope (inWindow 24 last)
  have hcap := h scope last
  cases hmints : (Phase.inserting m s.store.now).mints env scope (inWindow 24 last) with
  | false =>
    rw [hmints] at hset
    simp only [Phase.mints, Bool.false_eq_true, ↓reduceIte] at hset
    omega
  | true =>
    obtain ⟨hcovers, hin⟩ := Bool.and_eq_true_iff.mp hmints
    have hmem := mem_scopes hcovers
    have hlt : s.store.minted env scope (recent 24 s.store.now) < scope.cap := by
      have hall := List.all_eq_true.mp hadmits scope hmem
      exact of_decide_eq_true hall
    have hleaves : leaves (s.store.minted env scope (recent 24 s.store.now))
        (underway env s scope (recent 24 s.store.now)) scope.cap = true := by
      simp only [roomy, hp, List.all_eq_true] at hroomy
      exact hroomy scope hmem
    have hroom : grants env s scope (recent 24 s.store.now) < scope.cap :=
      lt_of_leaves hleaves hlt
    have hmono : grants env s scope (inWindow 24 last) ≤
        grants env s scope (recent 24 s.store.now) :=
      grants_mono fun t => recent_of_inWindow (le_of_inWindow hin)
    rw [hmints] at hset
    simp only [Phase.mints, Bool.false_eq_true, ↓reduceIte] at hset
    omega

variable {hash : String}

theorem minted_insert (hfresh : st.tokens.get? hash = none) :
    (st.insertToken m hash startedAt).minted env scope q = st.minted env scope q +
      if (Phase.inserting m startedAt).mints env scope q then 1 else 0 := by
  have hrows : (st.insertToken m hash startedAt).tokens.rows =
      st.tokens.rows ++ [⟨m.subscriberId, m.orgId, m.target, hash, startedAt, m.expiresAt⟩] := by
    unfold Store.insertToken Rows.insert
    dsimp only
    rw [dif_neg ?_]
    intro hmem
    obtain ⟨t, ht, hkey⟩ := List.mem_map.mp hmem
    exact Rows.get?_eq_none.1 hfresh t ht hkey
  unfold Store.minted
  rw [hrows, List.countP_append, List.countP_singleton]
  rfl

theorem Capped.inserted (h : Capped env s) (hp : s.tasks[i]? = some (.inserting m startedAt))
    (hfresh : s.store.tokens.get? hash = none) :
    Capped env ⟨s.store.insertToken m hash startedAt, s.tasks.set i .done⟩ := by
  intro scope last
  have hset := grants_set env (s.store.insertToken m hash startedAt) hp .done scope (inWindow 24 last)
  have hcap := h scope last
  rw [minted_insert hfresh] at hset
  have hdone : Phase.done.mints env scope (inWindow 24 last) = false := rfl
  rw [hdone, if_neg Bool.false_ne_true] at hset
  omega

/-! ## Invitations -/

/-- A record is not older than its mail. -/
def Phase.Fits (now : Time) : Phase → Prop
  | recording _ _ _ _ sentAt => sentAt ≤ now
  | committing _ _ _ _ sentAt startedAt => sentAt ≤ startedAt
  | _ => True

/-- `seen`: of what was mailed after a moment, all is on record, under way or lost. -/
structure Mailed (s : Pooled Store Phase) : Prop where
  fits : ∀ q ∈ s.tasks, q.Fits s.store.now
  window : ∀ org last, s.store.sends org (inWindow SEND_WINDOW_HOURS last) ≤ MAX_SENDS_PER_WINDOW
  reserved : ∀ org, pending s org + s.store.sends org (recent SEND_WINDOW_HOURS s.store.now) ≤
    MAX_SENDS_PER_WINDOW
  seen : ∀ org x, s.store.sends org (fun t => decide (x < t)) ≤
    s.store.recorded org (fun t => decide (x < t)) + unseen s org fun t => decide (x < t)

theorem pending_set (st : Store) (hp : s.tasks[i]? = some p) (p' : Phase) (org : OrgId) :
    pending ⟨st, s.tasks.set i p'⟩ org + (if p.pending org then 1 else 0) =
      pending s org + if p'.pending org then 1 else 0 :=
  countP_set_add (Phase.pending org) hp p'

theorem unseen_set (st : Store) (hp : s.tasks[i]? = some p) (p' : Phase) (org : OrgId)
    (q : Time → Bool) :
    unseen ⟨st, s.tasks.set i p'⟩ org q +
        (s.store.lost org q + if p.unwritten org q then 1 else 0) =
      unseen s org q + (st.lost org q + if p'.unwritten org q then 1 else 0) := by
  have hcount := countP_set_add (Phase.unwritten org q) hp p'
  unfold unseen
  dsimp only
  omega

theorem Phase.Fits.mono {q : Phase} (h : q.Fits now) (hle : now ≤ last) : q.Fits last := by
  cases q with
  | recording org inviter invitation resends sentAt => exact Int.le_trans h hle
  | committing org inviter invitation resends sentAt startedAt => exact h
  | _ => trivial

theorem Mailed.quiet (h : Mailed s) (hp : s.tasks[i]? = some p) (hnow : st.now = s.store.now)
    (haudit : st.audit = s.store.audit) (hsent : st.sent = s.store.sent)
    (hlost : st.unrecorded = s.store.unrecorded) (hfits : p'.Fits st.now)
    (hreserved : ∀ org, pending ⟨st, s.tasks.set i p'⟩ org +
      s.store.sends org (recent SEND_WINDOW_HOURS s.store.now) ≤ MAX_SENDS_PER_WINDOW)
    (hunwritten : ∀ org q, p'.unwritten org q = p.unwritten org q) :
    Mailed ⟨st, s.tasks.set i p'⟩ := by
  have hsends : ∀ org q, st.sends org q = s.store.sends org q := by
    intro org q
    unfold Store.sends
    rw [hsent]
  have hrecorded : ∀ org q, st.recorded org q = s.store.recorded org q := by
    intro org q
    unfold Store.recorded
    rw [haudit]
  refine ⟨?_, ?_, ?_, ?_⟩
  · refine forall_mem_set (fun q hq => ?_) hfits
    show q.Fits st.now
    rw [hnow]
    exact h.fits q hq
  · intro org last
    show st.sends org _ ≤ _
    rw [hsends]
    exact h.window org last
  · intro org
    show _ + st.sends org (recent SEND_WINDOW_HOURS st.now) ≤ _
    rw [hsends, hnow]
    exact hreserved org
  · intro org x
    have hset := unseen_set st hp p' org fun t => decide (x < t)
    have hsame : st.lost org (fun t => decide (x < t)) =
        s.store.lost org fun t => decide (x < t) := by
      unfold Store.lost
      rw [hlost]
    have hseen := h.seen org x
    rw [hsame, hunwritten] at hset
    show st.sends org _ ≤ st.recorded org _ + _
    rw [hsends, hrecorded]
    omega

theorem Mailed.idle (h : Mailed s) (hp : s.tasks[i]? = some p) (hnow : st.now = s.store.now)
    (haudit : st.audit = s.store.audit) (hsent : st.sent = s.store.sent)
    (hlost : st.unrecorded = s.store.unrecorded) (hfits : p'.Fits st.now)
    (hpending : ∀ org, p'.pending org = true → p.pending org = true)
    (hunwritten : ∀ org q, p'.unwritten org q = p.unwritten org q) :
    Mailed ⟨st, s.tasks.set i p'⟩ := by
  refine h.quiet hp hnow haudit hsent hlost hfits ?_ hunwritten
  intro org
  have hset := pending_set st hp p' org
  have hreserved := h.reserved org
  by_cases hp' : p'.pending org = true
  · rw [if_pos hp', if_pos (hpending org hp')] at hset
    omega
  · rw [if_neg hp'] at hset
    omega

variable {inviter : UserId} {invitation : Uuid} {resends : Bool} {choice : Choice}

theorem Mailed.ensured (h : Mailed s) {resent : Option Uuid}
    (hp : s.tasks[i]? = some (.ensuring org inviter resent))
    (hpass : s.store.ensureSendWindow org = true) (hroomy : roomy env s (.go i .ok) = true)
    (hfits : p'.Fits s.store.now) (hpending : ∀ org', p'.pending org' = (org == org'))
    (hunwritten : ∀ org q, p'.unwritten org q = false) : Mailed ⟨s.store, s.tasks.set i p'⟩ := by
  refine h.quiet hp rfl rfl rfl rfl hfits ?_ hunwritten
  intro org'
  have hset := pending_set s.store hp p' org'
  have hreserved := h.reserved org'
  rw [hpending] at hset
  by_cases heq : org = org'
  · subst heq
    have hlt := of_decide_eq_true hpass
    have hroom : leaves (s.store.recorded org (recent SEND_WINDOW_HOURS s.store.now))
        (pending s org + unseen s org (recent SEND_WINDOW_HOURS s.store.now))
        MAX_SENDS_PER_WINDOW = true := by
      simpa only [roomy, hp] using hroomy
    have hsum := lt_of_leaves hroom hlt
    have hseen : s.store.sends org (recent SEND_WINDOW_HOURS s.store.now) ≤
        s.store.recorded org (recent SEND_WINDOW_HOURS s.store.now) +
          unseen s org (recent SEND_WINDOW_HOURS s.store.now) :=
      h.seen org (s.store.now - seconds (SEND_WINDOW_HOURS * 3600))
    have hone : (org == org) = true := beq_self_eq_true org
    rw [if_pos hone] at hset
    omega
  · have hne : (org == org') = false := beq_eq_false_iff_ne.mpr heq
    rw [hne, if_neg Bool.false_ne_true] at hset
    omega

theorem Mailed.mailed (h : Mailed s)
    (hp : s.tasks[i]? = some (.sending org inviter invitation resends)) :
    Mailed ⟨s.store.mail org,
      s.tasks.set i (.recording org inviter invitation resends s.store.now)⟩ := by
  have hsends : ∀ org' q, (s.store.mail org).sends org' q =
      s.store.sends org' q + if (org == org' && q s.store.now) = true then 1 else 0 := by
    intro org' q
    unfold Store.sends Store.mail
    rw [List.countP_append, List.countP_singleton]
  have hpending : ∀ org', pending ⟨s.store.mail org,
      s.tasks.set i (.recording org inviter invitation resends s.store.now)⟩ org' +
      (if (org == org') = true then 1 else 0) = pending s org' :=
    fun org' => pending_set (s.store.mail org) hp _ org'
  refine ⟨forall_mem_set h.fits (Int.le_refl _), ?_, ?_, ?_⟩
  · intro org' last
    have hreserved := h.reserved org'
    show (s.store.mail org).sends org' _ ≤ _
    rw [hsends]
    by_cases hin : (org == org' && inWindow SEND_WINDOW_HOURS last s.store.now) = true
    · obtain ⟨heq, hlast⟩ := Bool.and_eq_true_iff.mp hin
      have hone := hpending org'
      have hmono : s.store.sends org' (inWindow SEND_WINDOW_HOURS last) ≤
          s.store.sends org' (recent SEND_WINDOW_HOURS s.store.now) := by
        refine List.countP_mono_left ?_
        intro e _ he
        simp only [Bool.and_eq_true] at he ⊢
        exact ⟨he.1, recent_of_inWindow (le_of_inWindow hlast) he.2⟩
      rw [if_pos heq] at hone
      rw [if_pos hin]
      omega
    · rw [if_neg hin]
      exact h.window org' last
  · intro org'
    have hone := hpending org'
    have hreserved := h.reserved org'
    show _ + (s.store.mail org).sends org' (recent SEND_WINDOW_HOURS s.store.now) ≤ _
    rw [hsends]
    by_cases heq : (org == org') = true
    · rw [if_pos heq] at hone
      split <;> omega
    · rw [if_neg heq] at hone
      rw [Bool.eq_false_iff.mpr heq, Bool.false_and, if_neg Bool.false_ne_true]
      omega
  · intro org' x
    have hunseen : unseen ⟨s.store.mail org,
        s.tasks.set i (.recording org inviter invitation resends s.store.now)⟩ org'
          (fun t => decide (x < t)) + (s.store.lost org' (fun t => decide (x < t)) + 0) =
        unseen s org' (fun t => decide (x < t)) + (s.store.lost org' (fun t => decide (x < t)) +
          if (org == org' && decide (x < s.store.now)) = true then 1 else 0) :=
      unseen_set (s.store.mail org) hp _ org' _
    have hseen := h.seen org' x
    have hrecorded : (s.store.mail org).recorded org' (fun t => decide (x < t)) =
        s.store.recorded org' fun t => decide (x < t) := rfl
    show (s.store.mail org).sends org' _ ≤ (s.store.mail org).recorded org' _ + _
    rw [hsends, hrecorded]
    omega

theorem Mailed.settled (h : Mailed s) (hp : s.tasks[i]? = some p)
    (hnow : st.now = s.store.now) (hsent : st.sent = s.store.sent) (hfits : p'.Fits st.now)
    (hpending : ∀ org, p'.pending org = false) (hunwritten : ∀ org q, p'.unwritten org q = false)
    (hkept : ∀ org x, s.store.recorded org (fun t => decide (x < t)) +
        s.store.lost org (fun t => decide (x < t)) +
        (if p.unwritten org (fun t => decide (x < t)) then 1 else 0) ≤
      st.recorded org (fun t => decide (x < t)) + st.lost org fun t => decide (x < t)) :
    Mailed ⟨st, s.tasks.set i p'⟩ := by
  have hsends : ∀ org q, st.sends org q = s.store.sends org q := by
    intro org q
    unfold Store.sends
    rw [hsent]
  refine ⟨?_, ?_, ?_, ?_⟩
  · refine forall_mem_set (fun q hq => ?_) hfits
    show q.Fits st.now
    rw [hnow]
    exact h.fits q hq
  · intro org last
    show st.sends org _ ≤ _
    rw [hsends]
    exact h.window org last
  · intro org
    have hset := pending_set st hp p' org
    have hreserved := h.reserved org
    show _ + st.sends org (recent SEND_WINDOW_HOURS st.now) ≤ _
    rw [hsends, hnow]
    rw [hpending, if_neg Bool.false_ne_true] at hset
    omega
  · intro org x
    have hset := unseen_set st hp p' org fun t => decide (x < t)
    have hseen := h.seen org x
    have hkeep := hkept org x
    rw [hunwritten, if_neg Bool.false_ne_true] at hset
    show st.sends org _ ≤ st.recorded org _ + _
    rw [hsends]
    omega

theorem recorded_recordSend (org' : OrgId) :
    (st.recordSend org inviter invitation now).recorded org' q =
      st.recorded org' q + if (org == org' && q now) = true then 1 else 0 := by
  unfold Store.recorded Store.recordSend
  rw [List.countP_append, List.countP_singleton]

theorem lost_loseSend (org' : OrgId) : (st.loseSend org now).lost org' q =
    st.lost org' q + if (org == org' && q now) = true then 1 else 0 := by
  unfold Store.lost Store.loseSend
  rw [List.countP_append, List.countP_singleton]

theorem afterSend_quiet (org : OrgId) (invitation : Uuid) (resends : Bool) :
    (∀ now, (afterSend org invitation resends).Fits now) ∧
    (∀ org', (afterSend org invitation resends).pending org' = false) ∧
    (∀ org' q, (afterSend org invitation resends).unwritten org' q = false) ∧
    ∀ env scope q, (afterSend org invitation resends).mints env scope q = false := by
  cases resends with
  | false => exact ⟨fun _ => trivial, fun _ => rfl, fun _ _ => rfl, fun _ _ _ => rfl⟩
  | true => exact ⟨fun _ => trivial, fun _ => rfl, fun _ _ => rfl, fun _ _ _ => rfl⟩

theorem Mailed.recorded (h : Mailed s)
    (hp : s.tasks[i]? = some (.committing org inviter invitation resends sentAt startedAt)) :
    Mailed ⟨s.store.recordSend org inviter invitation startedAt,
      s.tasks.set i (afterSend org invitation resends)⟩ := by
  have hle : sentAt ≤ startedAt := h.fits _ (List.mem_of_getElem? hp)
  obtain ⟨hfits, hpending, hunwritten, -⟩ := afterSend_quiet org invitation resends
  refine h.settled hp rfl rfl (hfits _) hpending hunwritten ?_
  intro org' x
  have hlost : (s.store.recordSend org inviter invitation startedAt).lost org'
      (fun t => decide (x < t)) = s.store.lost org' fun t => decide (x < t) := rfl
  have hlater : (Phase.committing org inviter invitation resends sentAt startedAt).unwritten org'
      (fun t => decide (x < t)) = true → (org == org' && decide (x < startedAt)) = true := by
    intro h
    obtain ⟨heq, hx⟩ := Bool.and_eq_true_iff.mp h
    rw [heq, Bool.true_and]
    exact decide_eq_true (Int.lt_of_lt_of_le (of_decide_eq_true hx) hle)
  rw [recorded_recordSend, hlost]
  split
  · next hunw =>
    rw [if_pos (hlater hunw)]
    omega
  · omega

theorem Mailed.missed (h : Mailed s) (hp : s.tasks[i]? = some p)
    (hunwritten : ∀ org' q, p.unwritten org' q = (org == org' && q sentAt)) :
    Mailed ⟨s.store.loseSend org sentAt, s.tasks.set i (afterSend org invitation resends)⟩ := by
  obtain ⟨hfits, hpending, hnone, -⟩ := afterSend_quiet org invitation resends
  refine h.settled hp rfl rfl (hfits _) hpending hnone ?_
  intro org' x
  have hrecorded : (s.store.loseSend org sentAt).recorded org' (fun t => decide (x < t)) =
      s.store.recorded org' fun t => decide (x < t) := rfl
  rw [lost_loseSend, hunwritten, hrecorded]
  omega

theorem Capped.went (h : Capped env s) (hp : s.tasks[i]? = some p)
    (hnext : next env s.store p choice = some (st, p'))
    (hroomy : roomy env s (.go i choice) = true) : Capped env ⟨st, s.tasks.set i p'⟩ := by
  have hquiet : ∀ {st p'}, st.tokens = s.store.tokens →
      (∀ scope q, p'.mints env scope q = false) → Capped env ⟨st, s.tasks.set i p'⟩ :=
    fun htokens hnone => h.quiet hp htokens hnone
  have hafter : ∀ org invitation resends scope q,
      (afterSend org invitation resends).mints env scope q = false :=
    fun org invitation resends => (afterSend_quiet org invitation resends).2.2.2 env
  cases choice with
  | fails =>
    cases p with
    | recording org inviter invitation resends sentAt
    | committing org inviter invitation resends sentAt startedAt =>
      cases hnext
      exact hquiet rfl (hafter org invitation resends)
    | sending org inviter invitation resends =>
      cases hnext
      cases resends with
      | false => exact hquiet rfl fun _ _ => rfl
      | true => exact hquiet rfl fun _ _ => rfl
    | done => cases hnext
    | _ =>
      cases hnext
      exact hquiet rfl fun _ _ => rfl
  | draw hash =>
    cases p with
    | inserting m startedAt =>
      simp only [next] at hnext
      split at hnext
      · cases hnext
      · next hfresh =>
        cases hnext
        exact h.inserted hp (Option.not_isSome_iff_eq_none.mp hfresh)
    | _ => cases hnext
  | ok =>
    cases p with
    | counting m =>
      cases hnext
      split
      · next hadmits => exact h.counted hp hadmits hroomy
      · exact hquiet rfl fun _ _ => rfl
    | ensuring org inviter resent =>
      cases hnext
      split
      · cases resent with
        | none => exact hquiet rfl fun _ _ => rfl
        | some invitation => exact hquiet rfl fun _ _ => rfl
      · exact hquiet rfl fun _ _ => rfl
    | committing org inviter invitation resends sentAt startedAt =>
      cases hnext
      exact hquiet rfl (hafter org invitation resends)
    | inserting m startedAt => cases hnext
    | done => cases hnext
    | _ =>
      cases hnext
      exact hquiet rfl fun _ _ => rfl

theorem Mailed.went (h : Mailed s) (hp : s.tasks[i]? = some p)
    (hnext : next env s.store p choice = some (st, p'))
    (hroomy : roomy env s (.go i choice) = true) : Mailed ⟨st, s.tasks.set i p'⟩ := by
  have hfits := h.fits p (List.mem_of_getElem? hp)
  cases choice with
  | fails =>
    cases p with
    | recording org inviter invitation resends sentAt
    | committing org inviter invitation resends sentAt startedAt =>
      cases hnext
      exact h.missed hp fun _ _ => rfl
    | sending org inviter invitation resends =>
      cases hnext
      cases resends with
      | false => exact h.idle hp rfl rfl rfl rfl trivial nofun fun _ _ => rfl
      | true => exact h.idle hp rfl rfl rfl rfl trivial nofun fun _ _ => rfl
    | done => cases hnext
    | _ =>
      cases hnext
      exact h.idle hp rfl rfl rfl rfl trivial nofun fun _ _ => rfl
  | draw hash =>
    cases p with
    | inserting m startedAt =>
      simp only [next] at hnext
      split at hnext
      · cases hnext
      · cases hnext
        exact h.idle hp rfl rfl rfl rfl trivial nofun fun _ _ => rfl
    | _ => cases hnext
  | ok =>
    cases p with
    | counting m =>
      cases hnext
      split
      · exact h.idle hp rfl rfl rfl rfl trivial nofun fun _ _ => rfl
      · exact h.idle hp rfl rfl rfl rfl trivial nofun fun _ _ => rfl
    | ensuring org inviter resent =>
      cases hnext
      split
      · next hpass =>
        cases resent with
        | none => exact h.ensured hp hpass hroomy trivial (fun _ => rfl) fun _ _ => rfl
        | some invitation => exact h.ensured hp hpass hroomy trivial (fun _ => rfl) fun _ _ => rfl
      · exact h.idle hp rfl rfl rfl rfl trivial nofun fun _ _ => rfl
    | creating org inviter =>
      cases hnext
      exact h.idle hp rfl rfl rfl rfl trivial (fun _ hpending => hpending) fun _ _ => rfl
    | sending org inviter invitation resends =>
      cases hnext
      exact h.mailed hp
    | recording org inviter invitation resends sentAt =>
      cases hnext
      exact h.idle hp rfl rfl rfl rfl hfits nofun fun _ _ => rfl
    | committing org inviter invitation resends sentAt startedAt =>
      cases hnext
      exact h.recorded hp
    | inserting m startedAt => cases hnext
    | done => cases hnext
    | _ =>
      cases hnext
      exact h.idle hp rfl rfl rfl rfl trivial nofun fun _ _ => rfl

theorem step_kept (hcapped : Capped env s) (hmailed : Mailed s) {e : Act Request Choice Nat}
    (hroomy : roomy env s e = true) (heq : (program env).step s e = some s') :
    Capped env s' ∧ Mailed s' := by
  cases Program.stepped heq with
  | begin request =>
    have hnone : ∀ {f : Phase → Bool}, f request.first = false →
        (s.tasks ++ [request.first]).countP f = s.tasks.countP f := by
      intro f hf
      rw [List.countP_append, List.countP_singleton, hf]
      rfl
    refine ⟨?_, ?_, hmailed.window, ?_, ?_⟩
    · intro scope last
      unfold grants underway
      show _ + (s.tasks ++ [request.first]).countP _ ≤ _
      rw [hnone (by cases request <;> rfl)]
      exact hcapped scope last
    · intro q hq
      rcases List.mem_append.mp hq with hq | hq
      · exact hmailed.fits q hq
      · rw [List.mem_singleton.mp hq]
        cases request <;> trivial
    · intro org
      unfold pending
      show (s.tasks ++ [request.first]).countP _ + _ ≤ _
      rw [hnone (by cases request <;> rfl)]
      exact hmailed.reserved org
    · intro org x
      unfold unseen
      show _ ≤ _ + ((s.tasks ++ [request.first]).countP _ + _)
      rw [hnone (by cases request <;> rfl)]
      exact hmailed.seen org x
  | go hp hnext => exact ⟨hcapped.went hp hnext hroomy, hmailed.went hp hnext hroomy⟩
  | outer passed =>
    have hle : s.store.now ≤ s.store.now + passed :=
      Int.le_add_of_nonneg_right (Int.natCast_nonneg passed)
    refine ⟨hcapped, fun q hq => (hmailed.fits q hq).mono hle, hmailed.window, ?_, hmailed.seen⟩
    -- what is recent later was recent before
    intro org
    have hmono : s.store.sends org (recent SEND_WINDOW_HOURS (s.store.now + passed)) ≤
        s.store.sends org (recent SEND_WINDOW_HOURS s.store.now) := by
      refine List.countP_mono_left ?_
      intro e _ he
      simp only [Bool.and_eq_true] at he ⊢
      exact ⟨he.1, recent_mono hle he.2⟩
    have hreserved := hmailed.reserved org
    show pending s org + s.store.sends org (recent SEND_WINDOW_HOURS (s.store.now + passed)) ≤ _
    omega

structure Store.Fresh (st : Store) : Prop where
  tokens : st.tokens.rows = []
  sent : st.sent = []

/-- **The mail caps hold**: in any 24 hours no more tokens are minted per subscriber, page and
address, and no more invitations mailed per organisation, than their caps, as long as every count
that does not see what is under way, or a mail without a record, leaves room for it. -/
theorem mail_caps_hold {s₀ : Pooled Store Phase} (hfresh : s₀.store.Fresh) (hidle : s₀.tasks = [])
    (hrun : Run (program env).step (fun s e => roomy env s e = true) s₀ s) :
    (∀ scope last, s.store.minted env scope (inWindow 24 last) ≤ scope.cap) ∧
    ∀ org last, s.store.sends org (inWindow SEND_WINDOW_HOURS last) ≤ MAX_SENDS_PER_WINDOW := by
  have hsends : ∀ org q, s₀.store.sends org q = 0 := by
    intro org q
    unfold Store.sends
    rw [hfresh.sent]
    rfl
  have hinit : Capped env s₀ ∧ Mailed s₀ := by
    refine ⟨?_, ?_, ?_, ?_, ?_⟩
    · intro scope last
      unfold grants underway Store.minted
      rw [hfresh.tokens, hidle]
      exact Nat.zero_le _
    · simp [hidle]
    · intro org last
      rw [hsends]
      exact Nat.zero_le _
    · intro org
      unfold pending
      rw [hsends, hidle]
      exact Nat.zero_le _
    · intro org x
      rw [hsends]
      exact Nat.zero_le _
  obtain ⟨hcapped, hmailed⟩ : Capped env s ∧ Mailed s :=
    hrun.invariant hinit fun _ _ _ h hok heq => step_kept h.1 h.2 hok heq
  refine ⟨?_, hmailed.window⟩
  intro scope last
  exact Nat.le_trans (Nat.le_add_right _ _) (hcapped scope last)

end

/-! ## One subscriber -/

namespace One

def env : Env := ⟨fun _ => 9⟩

def start : Pooled Store Phase := ⟨⟨0, Rows.empty, [], 1, [], []⟩, []⟩

/-- Two mints whose counts see nothing of each other. -/
def together (i : Nat) (a b : String) : List (Act Request Choice Nat) :=
  [.begin (.mint 7 1 "a@b.c"), .begin (.mint 7 1 "a@b.c"), .go i .ok, .go (i + 1) .ok, .go i .ok,
    .go (i + 1) .ok, .go i (.draw a), .go (i + 1) (.draw b)]

def invited : List (Act Request Choice Nat) :=
  [.begin (.create 1 5), .go 2 .ok, .go 2 .ok, .go 2 .ok, .go 2 .ok, .go 2 .ok]

theorem start_fresh : start.store.Fresh := ⟨rfl, rfl⟩

end One

theorem mail_caps_hold_two : ∃ s,
    Run (program One.env).step (fun s e => roomy One.env s e = true) One.start s ∧
    s.store.tokens.rows.length = 2 ∧ s.store.sent = [(1, 0)] ∧
    s.store.minted One.env (.subscriber 7) (inWindow 24 0) ≤ PER_SUBSCRIBER_DAILY_CAP ∧
    s.store.sends 1 (inWindow SEND_WINDOW_HOURS 0) ≤ MAX_SENDS_PER_WINDOW := by
  obtain ⟨s, hrun, hend⟩ := exists_run_of_steps (show
    (steps (guarded (program One.env).step (roomy One.env)) One.start
        (One.together 0 "a" "b" ++ One.invited)).any
      (fun s => s.store.tokens.rows.length == 2 && s.store.sent == [(1, 0)]) = true by
    decide +kernel)
  simp only [Bool.and_eq_true, beq_iff_eq] at hend
  have hroomy : Run (program One.env).step (fun s e => roomy One.env s e = true) One.start s :=
    hrun.unguard fun _ _ h => h
  obtain ⟨hminted, hsends⟩ := mail_caps_hold One.start_fresh rfl hroomy
  exact ⟨s, hroomy, hend.1, hend.2, hminted (.subscriber 7) 0, hsends 1 0⟩

/-- Two mints that each count two tokens make four. -/
theorem caps_exceeded : ¬ ∀ (env : Env) (s₀ s : Pooled Store Phase),
    s₀.store.Fresh → s₀.tasks = [] → Run (program env).step (fun _ _ => True) s₀ s →
    (∀ scope last, s.store.minted env scope (inWindow 24 last) ≤ scope.cap) ∧
    ∀ org last, s.store.sends org (inWindow SEND_WINDOW_HOURS last) ≤ MAX_SENDS_PER_WINDOW := by
  intro h
  obtain ⟨s, hrun, hend⟩ := exists_run_of_steps (show
    (steps (program One.env).step One.start
        (One.together 0 "a" "b" ++ One.together 2 "c" "d")).any
      (fun s => s.store.minted One.env (.subscriber 7) (inWindow 24 0) == 4) = true by
    decide +kernel)
  have hcap := (h One.env One.start s One.start_fresh rfl hrun).1 (.subscriber 7) 0
  rw [beq_iff_eq.mp hend] at hcap
  exact absurd hcap (by decide)

end Uptimepage.MailCaps
