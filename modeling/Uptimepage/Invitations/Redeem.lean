import Uptimepage.Invitations.Store

/-!
# An invitation is redeemed

`accept_for_user` and `validate_acceptable` of `api/handlers/invitations.rs`, one step for each
storage call, with the look-up before them.  A call may fail, having taken effect or not.
Invitations are created, revoked and declined, and organisations deleted, meanwhile: a
statement of these that fails without effect is no step, and one whose answer is lost is the step.
-/

namespace Uptimepage

open Async Sql

/-- What a redemption names the invitation by. -/
inductive InvitationKey
  | byToken (token : String)
  | byId (id : Uuid)
deriving DecidableEq

inductive AcceptAnswer
  | accepted (org : OrgId)
  | invalid
  | orgNotFound
  | orgDeleted
  | unauthorized
  | emailMismatch
  | quotaExceeded (current limit : Int)
  | serverError
deriving DecidableEq

/-- Before which of its storage calls a redemption is. -/
inductive AcceptPhase
  | finding (key : InvitationKey)
  | gettingOrg (row : Invitation)
  | limiting (row : Invitation)
  | checking (row : Invitation) (maxMembers : Int)
  | readingEmail (row : Invitation) (maxMembers : Int)
  | marking (row : Invitation) (maxMembers : Int)
  | adding (row : Invitation) (maxMembers : Int)
  | unmarking (row : Invitation) (current limit : Int)
  | answered (answer : AcceptAnswer)
deriving DecidableEq

structure Accept where
  user : UserId
  phase : AcceptPhase
deriving DecidableEq

/-- How a storage call ends: `lost` is an error after it took effect. -/
inductive Fate
  | ok
  | failed
  | lost
deriving DecidableEq

structure Joined where
  invitation : Uuid
  user : UserId
deriving DecidableEq

structure Invitations where
  db : Orgs.Db
  rows : InvitationRows
  accepts : List Accept
  joined : List Joined
  /-- Every id that a row was given. -/
  issued : List Uuid

inductive InvitationEvent
  | tick (t : Time)
  | redeem (user : UserId) (key : InvitationKey)
  /-- The next storage call of a redemption; `plan` is what the cache of plans answers. -/
  | go (i : Nat) (fate : Fate) (plan : Orgs.Plan)
  | create (new : NewInvitation)
  | revoke (org : OrgId) (id : Uuid)
  | markDeclined (org : OrgId) (id : Uuid)
  | deleteOrg (org : OrgId)

/-- The row that it stamped. -/
def AcceptPhase.marked : AcceptPhase → Option Invitation
  | adding row _ | unmarking row _ _ => some row
  | _ => none

namespace Invitations

def start (db : Orgs.Db) : Invitations where
  db := db
  rows := Rows.empty
  accepts := []
  joined := []
  issued := []

def setPhase (s : Invitations) (i : Nat) (a : Accept) (phase : AcceptPhase) : Invitations :=
  { s with accepts := s.accepts.set i { a with phase } }

def answer (s : Invitations) (i : Nat) (a : Accept) (answer : AcceptAnswer) : Invitations :=
  s.setPhase i a (.answered answer)

/-- `eq_ignore_ascii_case`. -/
def addressee (env : InvitationEnv) (user : UserId) (row : Invitation) : Bool :=
  toAsciiLowercase (env.emailOf user) == toAsciiLowercase row.email

variable (env : InvitationEnv)

def find (s : Invitations) : InvitationKey → Option Invitation
  | .byToken token => s.rows.findPendingByToken env s.db.now token
  | .byId id => s.rows.findPendingById s.db.now id

/-- What `add_member` is called with. -/
def seat (a : Accept) (row : Invitation) : Orgs.AddMember := ⟨row.orgId, a.user, a.user, row.role⟩

/-- The next storage call of redemption `a`, the `i`-th. -/
def stepAccept (s : Invitations) (i : Nat) (a : Accept) (fate : Fate) (plan : Orgs.Plan) :
    AcceptPhase → Option Invitations
  | .finding key =>
    if fate ≠ .ok then some (s.answer i a .serverError)
    else
      match s.find env key with
      | none => some (s.answer i a .invalid)
      | some row => some (s.setPhase i a (.gettingOrg row))
  | .gettingOrg row =>
    if fate ≠ .ok then some (s.answer i a .serverError)
    else
      match s.db.org? row.orgId with
      | none => some (s.answer i a .orgNotFound)
      | some org =>
        if org.deletedAt.isSome then some (s.answer i a .orgDeleted)
        else some (s.setPhase i a (.limiting row))
  | .limiting row =>
    if fate ≠ .ok then some (s.answer i a .serverError)
    else some (s.setPhase i a (.checking row plan.memberLimit))
  | .checking row maxMembers =>
    if fate ≠ .ok then some (s.answer i a .serverError)
    else
      match s.db.accountForOrg row.orgId with
      | none => some (s.answer i a .serverError)
      | some account =>
        let current : Int := s.db.countMembers account
        if current + 1 > plan.maxMembers then
          some (s.answer i a (.quotaExceeded current plan.maxMembers))
        else some (s.setPhase i a (.readingEmail row maxMembers))
  | .readingEmail row maxMembers =>
    if fate ≠ .ok then some (s.answer i a .serverError)
    else if !(s.db.users.get? a.user).any (·.deletedAt.isNone) then
      some (s.answer i a .unauthorized)
    else if addressee env a.user row then some (s.setPhase i a (.marking row maxMembers))
    else some (s.answer i a .emailMismatch)
  | .marking row maxMembers =>
    let marked : Invitations := { s with
      rows := s.rows.markAccepted s.db.now row.orgId row.id }
    match fate with
    | .failed => some (s.answer i a .serverError)
    | .lost => some (marked.answer i a .serverError)
    | .ok =>
      if s.rows.affects row.orgId row.id (Invitation.redeemable s.db.now) then
        some (marked.setPhase i a (.adding row maxMembers))
      else some (s.answer i a .invalid)
  | .adding row maxMembers =>
    if fate = .failed then some (s.answer i a .serverError)
    else
      let seated := s.db.addMember (seat a row) maxMembers
      let added : Invitations := { s with
        db := seated.1
        joined := if seated.2.joins then s.joined ++ [⟨row.id, a.user⟩] else s.joined }
      match fate, seated.2 with
      | .ok, .limitReached current limit => some (added.setPhase i a (.unmarking row current limit))
      | .ok, .added | .ok, .alreadyMember => some (added.answer i a (.accepted row.orgId))
      | _, _ => some (added.answer i a .serverError)
  | .unmarking row current limit =>
    match fate, s.rows.unmarkAccepted env row.orgId row.id with
    | .ok, some rows | .lost, some rows =>
      some (({ s with rows := rows } : Invitations).answer i a (.quotaExceeded current limit))
    | _, _ => some (s.answer i a (.quotaExceeded current limit))
  | .answered _ => none

def step (s : Invitations) : InvitationEvent → Option Invitations
  | .tick t => if s.db.now ≤ t then some { s with db := { s.db with now := t } } else none
  | .redeem user key => some { s with accepts := s.accepts ++ [⟨user, .finding key⟩] }
  | .go i fate plan => s.accepts[i]?.bind fun a => stepAccept env s i a fate plan a.phase
  | .create new =>
    if s.issued.contains new.id then none
    else
      match s.rows.create? env s.db new with
      | none => some s
      | some row => some { s with rows := s.rows.insert row, issued := s.issued ++ [row.id] }
  | .revoke org id => some { s with rows := s.rows.revoke org id }
  | .markDeclined org id => some { s with rows := s.rows.markDeclined s.db.now org id }
  | .deleteOrg org =>
    some { s with db := s.db.apply (.setOrgDeleted org (some s.db.now) s.db.now) }

/-! ## What is meant by atomic -/

/-- No redemption is under way. -/
def Quiescent (s : Invitations) : Prop :=
  ∀ a ∈ s.accepts, ∃ answer, a.phase = .answered answer

instance (s : Invitations) : Decidable s.Quiescent :=
  have (a : Accept) : Decidable (∃ answer, a.phase = .answered answer) :=
    match a.phase with
    | .answered answer => .isTrue ⟨answer, rfl⟩
    | .finding _ | .gettingOrg _ | .limiting _ | .checking _ _ | .readingEmail _ _
    | .marking _ _ | .adding _ _ | .unmarking _ _ _ => .isFalse nofun
  inferInstanceAs (Decidable (∀ a ∈ s.accepts, ∃ answer, a.phase = .answered answer))

/-- A stamp is a member of a live organisation through the invitation. -/
def Settled (s : Invitations) : Prop :=
  ∀ r ∈ s.rows.rows, r.acceptedAt.isSome = true ↔
    ∃ user, ⟨r.id, user⟩ ∈ s.joined ∧ addressee env user r = true ∧
      (s.db.membership? user r.orgId).isSome = true ∧ s.db.isLive r.orgId = true

/-- A redemption that the step refuses for lack of a seat leaves the invitation as it was. -/
def RefusedAsBefore (s s' : Invitations) : Prop :=
  ∀ (i : Nat) (a a' : Accept) (current limit : Int), s.accepts[i]? = some a →
    s'.accepts[i]? = some a' → a ≠ a' → a'.phase = .answered (.quotaExceeded current limit) →
    match a.phase.marked with
    | none => s'.rows = s.rows
    | some row => row.pending = true ∧ row ∈ s'.rows.rows

/-- The storage call does not part the stamp from its seat. -/
def AcceptPhase.SmoothAt (s : Invitations) (a : Accept) (fate : Fate) : AcceptPhase → Prop
  | .marking row _ => fate = .lost →
      s.rows.affects row.orgId row.id (Invitation.redeemable s.db.now) = false
  | .adding row maxMembers =>
    if (s.db.addMember (seat a row) maxMembers).2.joins then
      fate ≠ .failed ∧ s.db.isLive row.orgId = true
    else fate = .ok
  | .unmarking row _ _ =>
    fate ≠ .failed ∧ s.rows.held env row.orgId row.email (some row.id) = false
  | _ => True

instance (s : Invitations) (a : Accept) (fate : Fate) :
    ∀ ph : AcceptPhase, Decidable (AcceptPhase.SmoothAt env s a fate ph)
  | .marking row _ => inferInstanceAs (Decidable (fate = .lost →
      s.rows.affects row.orgId row.id (Invitation.redeemable s.db.now) = false))
  | .adding row maxMembers => inferInstanceAs (Decidable
      (if (s.db.addMember (seat a row) maxMembers).2.joins then
        fate ≠ .failed ∧ s.db.isLive row.orgId = true
      else fate = .ok))
  | .unmarking row _ _ => inferInstanceAs (Decidable (fate ≠ .failed ∧
      s.rows.held env row.orgId row.email (some row.id) = false))
  | .finding _ | .gettingOrg _ | .limiting _ | .checking _ _ | .readingEmail _ _ | .answered _ =>
    inferInstanceAs (Decidable True)

def Smooth (s : Invitations) : InvitationEvent → Prop
  | .go i fate _ => ∀ a, s.accepts[i]? = some a → AcceptPhase.SmoothAt env s a fate a.phase
  | .deleteOrg org => ∀ j ∈ s.joined, ∀ r ∈ s.rows.rows, r.id = j.invitation → r.orgId ≠ org
  | _ => True

instance (s : Invitations) : ∀ e : InvitationEvent, Decidable (Smooth env s e)
  | .go i fate _ => inferInstanceAs (Decidable
      (∀ a ∈ s.accepts[i]?, AcceptPhase.SmoothAt env s a fate a.phase))
  | .deleteOrg org => inferInstanceAs (Decidable
      (∀ j ∈ s.joined, ∀ r ∈ s.rows.rows, r.id = j.invitation → r.orgId ≠ org))
  | .tick _ | .redeem _ _ | .create _ | .revoke _ _ | .markDeclined _ _ =>
    inferInstanceAs (Decidable True)

/-! ## What every step keeps -/

/-- A row that was found pending: the table has it still, stamped or not, or has it no more. -/
structure Known (s : Invitations) (row : Invitation) : Prop where
  pending : row.pending = true
  issued : row.id ∈ s.issued
  same : ∀ r ∈ s.rows.rows, r.id = row.id → r.bare = row

structure Stamped (s : Invitations) (row : Invitation) : Prop where
  pending : row.pending = true
  issued : row.id ∈ s.issued
  here : ∃ t, row.stamp (some t) ∈ s.rows.rows

/-- The row that redemption `i` has stamped. -/
def markedAt (s : Invitations) (i : Nat) : Option Invitation :=
  s.accepts[i]?.bind fun a => a.phase.marked

def PhaseOk (s : Invitations) (a : Accept) : Prop :=
  match a.phase with
  | .finding _ | .answered _ => True
  | .gettingOrg row => s.Known row
  | .limiting row | .checking row _ | .readingEmail row _ =>
    s.Known row ∧ (s.db.org? row.orgId).isSome = true
  | .marking row _ => s.Known row ∧ (s.db.org? row.orgId).isSome = true ∧
      addressee env a.user row = true
  | .adding row _ => s.Stamped row ∧ (s.db.org? row.orgId).isSome = true ∧
      addressee env a.user row = true
  | .unmarking row _ _ => s.Stamped row

/-- The user has the seat, for which the row is stamped, and no redemption of it is under way. -/
structure Seated (s : Invitations) (j : Joined) : Prop where
  issued : j.invitation ∈ s.issued
  apart : ∀ (i : Nat) (row : Invitation), s.markedAt i = some row → row.id ≠ j.invitation
  row : ∀ r ∈ s.rows.rows, r.id = j.invitation → r.acceptedAt.isSome = true ∧
    addressee env j.user r = true ∧ (s.db.membership? j.user r.orgId).isSome = true ∧
    s.db.isLive r.orgId = true

structure Inv (s : Invitations) : Prop where
  issued : ∀ r ∈ s.rows.rows, r.id ∈ s.issued
  phase : ∀ (i : Nat) (a : Accept), s.accepts[i]? = some a → s.PhaseOk env a
  apart : ∀ (i j : Nat) (row row' : Invitation), s.markedAt i = some row →
    s.markedAt j = some row' → row.id = row'.id → i = j
  stamped : ∀ r ∈ s.rows.rows, r.acceptedAt.isSome = true →
    (∃ (i : Nat) (row : Invitation), s.markedAt i = some row ∧ row.id = r.id) ∨
      ∃ j ∈ s.joined, j.invitation = r.id
  joined : ∀ j ∈ s.joined, s.Seated env j

variable {env} {s s' : Invitations} {e : InvitationEvent} {i : Nat} {a : Accept}

/-- What a step that neither stamps nor takes back a stamp leaves. -/
structure Quiet (s s' : Invitations) : Prop where
  rows : ∀ r' ∈ s'.rows.rows, (∃ r ∈ s.rows.rows, r.bare = r'.bare ∧
    r.acceptedAt = r'.acceptedAt) ∨ (r'.id ∉ s.issued ∧ r'.id ∈ s'.issued ∧ r'.acceptedAt = none)
  kept : ∀ r ∈ s.rows.rows, r.acceptedAt.isSome = true → r ∈ s'.rows.rows
  issued : ∀ id ∈ s.issued, id ∈ s'.issued
  orgs : ∀ org, (s.db.org? org).isSome = true → (s'.db.org? org).isSome = true
  members : ∀ user org, (s.db.membership? user org).isSome = true →
    (s'.db.membership? user org).isSome = true
  live : ∀ j ∈ s.joined, ∀ r ∈ s.rows.rows, r.id = j.invitation → s.db.isLive r.orgId = true →
    s'.db.isLive r.orgId = true

theorem Quiet.refl (s : Invitations) : Quiet s s where
  rows r hr := .inl ⟨r, hr, rfl, rfl⟩
  kept _ hr _ := hr
  issued _ h := h
  orgs _ h := h
  members _ _ h := h
  live _ _ _ _ _ h := h

theorem quiet_accepts (s : Invitations) (accepts : List Accept) : Quiet s { s with accepts } :=
  { Quiet.refl s with }

theorem PhaseOk.carry (h : s.PhaseOk env a)
    (hrows : ∀ r' ∈ s'.rows.rows, (∃ r ∈ s.rows.rows, r.bare = r'.bare) ∨ r'.id ∉ s.issued)
    (hissued : ∀ id ∈ s.issued, id ∈ s'.issued)
    (horgs : ∀ org, (s.db.org? org).isSome = true → (s'.db.org? org).isSome = true)
    (hkept : ∀ row t, a.phase.marked = some row → row.stamp (some t) ∈ s.rows.rows →
      row.stamp (some t) ∈ s'.rows.rows) : s'.PhaseOk env a := by
  have hknown : ∀ row, s.Known row → s'.Known row := by
    intro row h
    refine ⟨h.pending, hissued _ h.issued, fun r' hr' hid => ?_⟩
    rcases hrows r' hr' with ⟨r, hr, hbare⟩ | hnew
    · rw [← hbare]
      exact h.same r hr ((Invitation.id_of_bare hbare).trans hid)
    · exact absurd (hid ▸ h.issued) hnew
  have hstamped : ∀ row, a.phase.marked = some row → s.Stamped row → s'.Stamped row := by
    intro row hrow h
    obtain ⟨t, hmem⟩ := h.here
    exact ⟨h.pending, hissued _ h.issued, t, hkept row t hrow hmem⟩
  unfold PhaseOk at h ⊢
  cases hph : a.phase with
  | finding _ | answered _ => trivial
  | gettingOrg row =>
    rw [hph] at h
    exact hknown row h
  | limiting row | checking row _ | readingEmail row _ =>
    rw [hph] at h
    exact ⟨hknown row h.1, horgs _ h.2⟩
  | marking row _ =>
    rw [hph] at h
    exact ⟨hknown row h.1, horgs _ h.2.1, h.2.2⟩
  | adding row _ =>
    rw [hph] at h
    exact ⟨hstamped row (by rw [hph]; rfl) h.1, horgs _ h.2.1, h.2.2⟩
  | unmarking row _ _ =>
    rw [hph] at h
    exact hstamped row (by rw [hph]; rfl) h

theorem PhaseOk.quiet (h : s.PhaseOk env a) (hq : Quiet s s') : s'.PhaseOk env a := by
  refine h.carry (fun r' hr' => ?_) hq.issued hq.orgs fun row t _ hmem => hq.kept _ hmem rfl
  rcases hq.rows r' hr' with ⟨r, hr, hbare, -⟩ | ⟨hnew, -⟩
  · exact .inl ⟨r, hr, hbare⟩
  · exact .inr hnew

theorem Inv.quiet (h : Inv env s) (hq : Quiet s s') (hjoined : s'.joined = s.joined)
    (hmarked : ∀ j, s'.markedAt j = s.markedAt j)
    (hnew : ∀ (j : Nat) (a : Accept), s'.accepts[j]? = some a → s.accepts[j]? = some a ∨
      s.PhaseOk env a) : Inv env s' := by
  refine ⟨fun r' hr' => ?_, fun j a hj => ?_, fun j k row row' hj hk hid => ?_,
    fun r' hr' hstamp => ?_, fun j hj => ?_⟩
  · rcases hq.rows r' hr' with ⟨r, hr, hbare, -⟩ | ⟨-, hissued, -⟩
    · exact Invitation.id_of_bare hbare ▸ hq.issued _ (h.issued r hr)
    · exact hissued
  · rcases hnew j a hj with hsame | hok
    · exact (h.phase j a hsame).quiet hq
    · exact hok.quiet hq
  · rw [hmarked] at hj hk
    exact h.apart j k row row' hj hk hid
  · rcases hq.rows r' hr' with ⟨r, hr, hbare, hsame⟩ | ⟨-, -, hnone⟩
    · have hid := Invitation.id_of_bare hbare
      rcases h.stamped r hr (hsame ▸ hstamp) with ⟨k, row, hk, hrow⟩ | ⟨j, hj, hjid⟩
      · exact .inl ⟨k, row, (hmarked k).trans hk, hrow.trans hid⟩
      · exact .inr ⟨j, hjoined ▸ hj, hjid.trans hid⟩
    · rw [hnone] at hstamp
      cases hstamp
  · have hs := h.joined j (hjoined ▸ hj)
    refine ⟨hq.issued _ hs.issued, fun k row hk => ?_, fun r' hr' hid => ?_⟩
    · rw [hmarked] at hk
      exact hs.apart k row hk
    · rcases hq.rows r' hr' with ⟨r, hr, hbare, hsame⟩ | ⟨hnot, -⟩
      · have hrid := Invitation.id_of_bare hbare
        have horg := Invitation.orgId_of_bare hbare
        have hemail := Invitation.email_of_bare hbare
        obtain ⟨hstamp, haddr, hmember, hlive⟩ := hs.row r hr (hrid.trans hid)
        have hlive' := hq.live j (hjoined ▸ hj) r hr (hrid.trans hid) hlive
        rw [horg] at hmember hlive'
        rw [addressee, hemail] at haddr
        exact ⟨hsame ▸ hstamp, haddr, hq.members _ _ hmember, hlive'⟩
      · exact absurd (hid ▸ hs.issued) hnot

variable {j : Nat} {row : Invitation}

theorem Inv.stampedAt (h : Inv env s) (hj : s.markedAt j = some row) : s.Stamped row := by
  obtain ⟨a, ha, hrow⟩ := Option.bind_eq_some_iff.mp hj
  have hok := h.phase j a ha
  unfold PhaseOk at hok
  cases hph : a.phase with
  | adding row' _ =>
    rw [hph] at hok hrow
    cases hrow
    exact hok.1
  | unmarking row' _ _ =>
    rw [hph] at hok hrow
    cases hrow
    exact hok
  | _ =>
    rw [hph] at hrow
    cases hrow

/-! ## Creation, revocation, refusal and deletion -/

theorem not_pending_of_stamped {r : Invitation} (h : r.acceptedAt.isSome = true) :
    r.pending = false := by
  rw [Invitation.pending, Option.isNone_eq_false_iff.mpr h, Bool.false_and]

theorem quiet_create {new : NewInvitation} (hfresh : new.id ∉ s.issued)
    (h : s.rows.create? env s.db new = some row) :
    Quiet s { s with rows := s.rows.insert row, issued := s.issued ++ [row.id] } := by
  obtain ⟨hid, hnone⟩ : row.id = new.id ∧ row.acceptedAt = none := by
    unfold InvitationRows.create? at h
    split at h
    · cases h
    · split at h
      · cases h
      · split at h <;> cases h
        exact ⟨rfl, rfl⟩
  exact { Quiet.refl s with
    rows := fun r' hr' => by
      rcases Rows.mem_insert hr' with hold | rfl
      · exact .inl ⟨r', hold, rfl, rfl⟩
      · exact .inr ⟨hid ▸ hfresh, List.mem_append_right _ List.mem_cons_self, hnone⟩
    kept := fun r hr _ => Rows.mem_insert_of_mem hr
    issued := fun id hid => List.mem_append_left _ hid }

theorem quiet_revoke (s : Invitations) (org : OrgId) (id : Uuid) :
    Quiet s { s with rows := s.rows.revoke org id } :=
  { Quiet.refl s with
    rows := fun r' hr' => .inl ⟨r', (Rows.mem_delete.1 hr').1, rfl, rfl⟩
    kept := fun r hr hstamp => by
      refine Rows.mem_delete.2 ⟨hr, ?_⟩
      rw [not_pending_of_stamped hstamp, Bool.and_false] }

theorem quiet_markDeclined (s : Invitations) (org : OrgId) (id : Uuid) :
    Quiet s { s with rows := s.rows.markDeclined s.db.now org id } :=
  { Quiet.refl s with
    rows := fun r' (hr' : r' ∈ (s.rows.markDeclined s.db.now org id).rows) => by
      rcases Rows.mem_update hr' with hold | ⟨r, hr, -, rfl⟩
      · exact .inl ⟨r', hold, rfl, rfl⟩
      · exact .inl ⟨r, hr, rfl, rfl⟩
    kept := fun r hr hstamp => by
      have hnot : (r.id == id && r.orgId == org && r.redeemable s.db.now) = false := by
        rw [Invitation.redeemable, not_pending_of_stamped hstamp, Bool.false_and, Bool.and_false]
      exact Rows.mem_update_of_neg (Invitation.decline_id s.db.now) hr hnot }

theorem quiet_deleteOrg {org : OrgId}
    (h : ∀ j ∈ s.joined, ∀ r ∈ s.rows.rows, r.id = j.invitation → r.orgId ≠ org) :
    Quiet s { s with db := s.db.apply (.setOrgDeleted org (some s.db.now) s.db.now) } :=
  { Quiet.refl s with
    orgs := fun org' hsome => by
      rw [Orgs.Db.org?_setOrgDeleted, Option.isSome_map]
      exact hsome
    live := fun j hj r hr hid hlive => by
      have hne : ¬(Orgs.Write.setOrgDeleted org (some s.db.now) s.db.now).touches
          (.orgRow r.orgId) := fun hkey => h j hj r hr hid (Orgs.Key.orgRow.inj hkey)
      unfold Orgs.Db.isLive at hlive ⊢
      rwa [Orgs.Db.org?_apply hne] }

/-! ## The storage calls of a redemption -/

/-- What a storage call does that does not part a stamp from its seat. -/
inductive GoStep (env : InvitationEnv) (s : Invitations) (i : Nat) (a : Accept) :
    Invitations → Prop
  | idle (ph : AcceptPhase) : a.phase.marked = none → ph.marked = none →
      s.PhaseOk env { a with phase := ph } → GoStep env s i a (s.setPhase i a ph)
  | marked (row : Invitation) (maxMembers : Int) : a.phase = .marking row maxMembers →
      s.rows.affects row.orgId row.id (Invitation.redeemable s.db.now) = true →
      GoStep env s i a (({ s with
        rows := s.rows.markAccepted s.db.now row.orgId row.id } : Invitations).setPhase i a
          (.adding row maxMembers))
  | seated (row : Invitation) (maxMembers : Int) (answer : AcceptAnswer) :
      a.phase = .adding row maxMembers → (∀ current limit, answer ≠ .quotaExceeded current limit) →
      (s.db.addMember (seat a row) maxMembers).2.joins = true → s.db.isLive row.orgId = true →
      GoStep env s i a (({ s with
        db := (s.db.addMember (seat a row) maxMembers).1
        joined := s.joined ++ [⟨row.id, a.user⟩] } : Invitations).setPhase i a (.answered answer))
  | refused (row : Invitation) (maxMembers current limit : Int) :
      a.phase = .adding row maxMembers →
      GoStep env s i a (s.setPhase i a (.unmarking row current limit))
  | unmarked (row : Invitation) (current limit : Int) : a.phase = .unmarking row current limit →
      GoStep env s i a (({ s with
        rows := s.rows.update
          (fun r => r.id == row.id && r.orgId == row.orgId && r.acceptedAt.isSome)
          (Invitation.stamp none) (Invitation.stamp_id none) } : Invitations).setPhase i a
            (.answered (.quotaExceeded current limit)))

theorem Known.of_find (h : Inv env s) {key : InvitationKey} (hfind : s.find env key = some row) :
    s.Known row := by
  obtain ⟨hrow, hredeemable⟩ : row ∈ s.rows.rows ∧ row.redeemable s.db.now = true := by
    cases key with
    | byToken token => exact InvitationRows.findPendingByToken_some hfind
    | byId id => exact InvitationRows.findPendingById_some hfind
  have hpending := (Bool.and_eq_true_iff.mp hredeemable).1
  refine ⟨hpending, h.issued row hrow, fun r hr hid => ?_⟩
  rw [Rows.eq_of_key hr hrow hid]
  exact Invitation.bare_of_pending hpending

variable {maxMembers current limit : Int} {fate : Fate}

theorem goStep_of_adding {plan : Orgs.Plan} (hph : a.phase = .adding row maxMembers)
    (horg : (s.db.org? row.orgId).isSome = true)
    (hsmooth : AcceptPhase.SmoothAt env s a fate (.adding row maxMembers))
    (hstep : stepAccept env s i a fate plan (.adding row maxMembers) = some s') :
    GoStep env s i a s' := by
  rw [AcceptPhase.SmoothAt] at hsmooth
  rw [stepAccept] at hstep
  dsimp only at hstep
  split at hsmooth
  · next hjoins =>
    rw [if_neg hsmooth.1, if_pos hjoins] at hstep
    have hseated := fun answer hne => @GoStep.seated env s i a row maxMembers answer hph hne hjoins
      hsmooth.2
    split at hstep
    · next hlimit =>
      rw [hlimit] at hjoins
      cases hjoins
    · cases hstep
      exact hseated _ nofun
    · cases hstep
      exact hseated _ nofun
    · cases hstep
      exact hseated _ nofun
  · next hjoins =>
    subst hsmooth
    rw [if_neg Fate.noConfusion, if_neg hjoins] at hstep
    rw [Orgs.Db.addMember_refused (Bool.not_eq_true _ ▸ hjoins)] at hstep
    split at hstep
    · cases hstep
      exact .refused row maxMembers _ _ hph
    · next hadded =>
      rw [hadded] at hjoins
      exact absurd rfl hjoins
    · next halready =>
      rw [halready] at hjoins
      exact absurd rfl hjoins
    · next hlimit _ _ =>
      -- not `OrgNotFound`: the organisation was read before
      obtain ⟨current, limit, hout⟩ :=
        Orgs.Db.addMember_limitReached horg (Bool.not_eq_true _ ▸ hjoins)
      exact absurd hout (hlimit current limit rfl)

theorem goStep_of_unmarking {plan : Orgs.Plan} (hph : a.phase = .unmarking row current limit)
    (hok : s.Stamped row)
    (hsmooth : AcceptPhase.SmoothAt env s a fate (.unmarking row current limit))
    (hstep : stepAccept env s i a fate plan (.unmarking row current limit) = some s') :
    GoStep env s i a s' := by
  rw [AcceptPhase.SmoothAt] at hsmooth
  have hunmark : s.rows.unmarkAccepted env row.orgId row.id = some (s.rows.update
      (fun r => r.id == row.id && r.orgId == row.orgId && r.acceptedAt.isSome)
      (Invitation.stamp none) (Invitation.stamp_id none)) := by
    refine if_neg fun hheld => ?_
    obtain ⟨r, hget, hcond⟩ := (Option.any_eq_true _ _).mp hheld
    obtain ⟨hr, hid⟩ := Rows.get?_eq_some.1 hget
    obtain ⟨t, hmem⟩ := hok.here
    have hsame : r = row.stamp (some t) := Rows.eq_of_key hr hmem hid
    have hblocked := (Bool.and_eq_true_iff.mp hcond).2
    rw [hsame] at hblocked
    exact Bool.false_ne_true (hsmooth.2.symm.trans hblocked)
  cases fate with
  | failed => exact absurd rfl hsmooth.1
  | ok | lost =>
    simp only [stepAccept, hunmark] at hstep
    cases hstep
    exact .unmarked row current limit hph

theorem goStep_answer (h : a.phase.marked = none) (answer : AcceptAnswer) :
    GoStep env s i a (s.answer i a answer) :=
  .idle _ h rfl trivial

theorem goStep_of_stepAccept (h : Inv env s) {plan : Orgs.Plan} (hi : s.accepts[i]? = some a)
    (hsmooth : AcceptPhase.SmoothAt env s a fate a.phase)
    (hstep : stepAccept env s i a fate plan a.phase = some s') : GoStep env s i a s' := by
  have hok := h.phase i a hi
  unfold PhaseOk at hok
  cases hph : a.phase with
  | finding key =>
    have hnone : a.phase.marked = none := by rw [hph]; rfl
    rw [hph] at hstep
    rw [stepAccept] at hstep
    split at hstep
    · cases hstep
      exact goStep_answer hnone _
    · split at hstep
      · cases hstep
        exact goStep_answer hnone _
      · next row hfind =>
        cases hstep
        exact .idle _ hnone rfl (Known.of_find h hfind)
  | gettingOrg row =>
    have hnone : a.phase.marked = none := by rw [hph]; rfl
    rw [hph] at hstep hok
    rw [stepAccept] at hstep
    split at hstep
    · cases hstep
      exact goStep_answer hnone _
    · split at hstep
      · cases hstep
        exact goStep_answer hnone _
      · next org horg =>
        split at hstep
        · cases hstep
          exact goStep_answer hnone _
        · cases hstep
          exact .idle _ hnone rfl ⟨hok, Option.isSome_iff_exists.mpr ⟨org, horg⟩⟩
  | limiting row =>
    have hnone : a.phase.marked = none := by rw [hph]; rfl
    rw [hph] at hstep hok
    rw [stepAccept] at hstep
    split at hstep
    · cases hstep
      exact goStep_answer hnone _
    · cases hstep
      exact .idle _ hnone rfl hok
  | checking row maxMembers =>
    have hnone : a.phase.marked = none := by rw [hph]; rfl
    rw [hph] at hstep hok
    rw [stepAccept] at hstep
    split at hstep
    · cases hstep
      exact goStep_answer hnone _
    · split at hstep
      · cases hstep
        exact goStep_answer hnone _
      · dsimp only at hstep
        split at hstep
        · cases hstep
          exact goStep_answer hnone _
        · cases hstep
          exact .idle _ hnone rfl hok
  | readingEmail row maxMembers =>
    have hnone : a.phase.marked = none := by rw [hph]; rfl
    rw [hph] at hstep hok
    rw [stepAccept] at hstep
    split at hstep
    · cases hstep
      exact goStep_answer hnone _
    · split at hstep
      · cases hstep
        exact goStep_answer hnone _
      · split at hstep
        · next haddr =>
          cases hstep
          exact .idle _ hnone rfl ⟨hok.1, hok.2, haddr⟩
        · cases hstep
          exact goStep_answer hnone _
  | marking row maxMembers =>
    have hnone : a.phase.marked = none := by rw [hph]; rfl
    rw [hph] at hstep hsmooth
    unfold stepAccept at hstep
    dsimp only at hstep
    split at hstep
    · cases hstep
      exact goStep_answer hnone _
    · -- the answer is lost, but nothing was stamped
      rw [InvitationRows.markAccepted_of_not_affects (hsmooth rfl)] at hstep
      cases hstep
      exact goStep_answer hnone _
    · split at hstep
      · next haffects =>
        cases hstep
        exact .marked row maxMembers hph haffects
      · cases hstep
        exact goStep_answer hnone _
  | adding row maxMembers =>
    rw [hph] at hstep hsmooth hok
    exact goStep_of_adding hph hok.2.1 hsmooth hstep
  | unmarking row current limit =>
    rw [hph] at hstep hsmooth hok
    exact goStep_of_unmarking hph hok hsmooth hstep
  | answered answer =>
    rw [hph] at hstep
    cases hstep

theorem Stamped.unmark_rows (h : s.Stamped row) (r' : Invitation) :
    r' ∈ (s.rows.update (fun r => r.id == row.id && r.orgId == row.orgId && r.acceptedAt.isSome)
      (Invitation.stamp none) (Invitation.stamp_id none)).rows ↔
      r' = row ∨ (r' ∈ s.rows.rows ∧ r'.id ≠ row.id) := by
  obtain ⟨t, hmem⟩ := h.here
  have hback : (row.stamp (some t)).stamp none = row := Invitation.stamp_of_pending h.pending
  let p : Invitation → Bool := fun r =>
    r.id == row.id && r.orgId == row.orgId && r.acceptedAt.isSome
  have hsel : p (row.stamp (some t)) = true := by simp [p, Invitation.stamp]
  have hone : ∀ r, p r = true → r.id = row.id := by
    intro r hp
    simp only [p, Bool.and_eq_true, beq_iff_eq] at hp
    exact hp.1.1
  have hrows : r' ∈ (s.rows.update p (Invitation.stamp none) (Invitation.stamp_id none)).rows ↔
      r' = (row.stamp (some t)).stamp none ∨ (r' ∈ s.rows.rows ∧ r'.id ≠ row.id) :=
    Rows.mem_update_one (Invitation.stamp_id none) hmem hsel hone
  rwa [hback] at hrows

/-! ## They keep the invariant -/

theorem markedAt_of (hi : s.accepts[i]? = some a) : s.markedAt i = a.phase.marked := by
  rw [markedAt, hi]
  rfl

theorem markedAt_setPhase (hi : s.accepts[i]? = some a) (ph : AcceptPhase) (j : Nat) :
    (s.setPhase i a ph).markedAt j = if j = i then ph.marked else s.markedAt j := by
  have hlt := (List.getElem?_eq_some_iff.mp hi).1
  unfold markedAt setPhase
  rw [List.getElem?_set]
  by_cases hij : i = j
  · rw [if_pos hij, if_pos hlt, if_pos hij.symm]
    rfl
  · rw [if_neg hij, if_neg fun h => hij h.symm]

theorem Inv.id_ne_of_pending (h : Inv env s) {row' : Invitation} (hrow : row ∈ s.rows.rows)
    (hpending : row.pending = true) (hj : s.markedAt j = some row') : row'.id ≠ row.id := by
  intro hid
  obtain ⟨t, hmem⟩ := (h.stampedAt hj).here
  have hsame : row'.stamp (some t) = row := Rows.eq_of_key hmem hrow hid
  rw [← hsame, not_pending_of_stamped rfl] at hpending
  cases hpending

theorem Inv.marked (h : Inv env s) (hi : s.accepts[i]? = some a)
    (hph : a.phase = .marking row maxMembers)
    (haffects : s.rows.affects row.orgId row.id (Invitation.redeemable s.db.now) = true) :
    Inv env (({ s with
      rows := s.rows.markAccepted s.db.now row.orgId row.id } : Invitations).setPhase i a
        (.adding row maxMembers)) := by
  have hok := h.phase i a hi
  unfold PhaseOk at hok
  rw [hph] at hok
  obtain ⟨hknown, horg, haddr⟩ := hok
  -- the row that the statement selects is the one that was read
  obtain ⟨r, hr, hid, -, hredeemable⟩ := InvitationRows.affects_iff.1 haffects
  have hpending := (Bool.and_eq_true_iff.mp hredeemable).1
  have hsame : r = row := (Invitation.bare_of_pending hpending).symm.trans (hknown.same r hr hid)
  subst hsame
  have hrows : ∀ r', r' ∈ (s.rows.markAccepted s.db.now r.orgId r.id).rows ↔
      r' = r.stamp (some s.db.now) ∨ (r' ∈ s.rows.rows ∧ r'.id ≠ r.id) := by
    refine fun r' => Rows.mem_update_one (Invitation.stamp_id _) hr (by simp [hredeemable]) ?_
    intro r' hp
    simp only [Bool.and_eq_true, beq_iff_eq] at hp
    exact hp.1.1
  have hnone : s.markedAt i = none := by
    rw [markedAt_of hi, hph]
    rfl
  have hother : ∀ j row', s.markedAt j = some row' → row'.id ≠ r.id :=
    fun j row' => h.id_ne_of_pending hr hpending
  have hseated : ∀ j ∈ s.joined, r.id ≠ j.invitation := by
    intro j hj hid
    have hstamp := ((h.joined j hj).row r hr hid).1
    rw [not_pending_of_stamped hstamp] at hpending
    cases hpending
  let s₁ : Invitations := { s with rows := s.rows.markAccepted s.db.now r.orgId r.id }
  have hmarked : ∀ j row', (s₁.setPhase i a (.adding r maxMembers)).markedAt j = some row' →
      (j = i ∧ row' = r) ∨ (j ≠ i ∧ s.markedAt j = some row' ∧ row'.id ≠ r.id) := by
    intro j row' hj
    rw [markedAt_setPhase (s := s₁) hi] at hj
    split at hj
    · next hji => exact .inl ⟨hji, (Option.some.inj hj).symm⟩
    · next hji => exact .inr ⟨hji, hj, hother j row' hj⟩
  refine ⟨fun r' hr' => ?_, fun j b hj => ?_, fun j k row row' hj hk hrid => ?_,
    fun r' hr' hstamp => ?_, fun j hj => ?_⟩
  · rcases (hrows r').mp hr' with rfl | ⟨hold, -⟩
    · exact hknown.issued
    · exact h.issued r' hold
  · rcases getElem?_set_cases hj with ⟨-, rfl⟩ | ⟨-, hj⟩
    · exact ⟨⟨hpending, hknown.issued, s.db.now, (hrows _).mpr (.inl rfl)⟩, horg, haddr⟩
    · refine (h.phase j b hj).carry (fun r' hr' => ?_) (fun _ hid => hid) (fun _ hsome => hsome)
        fun row' t hrow' hmem => ?_
      · rcases (hrows r').mp hr' with rfl | ⟨hold, -⟩
        · exact .inl ⟨r, hr, rfl⟩
        · exact .inl ⟨r', hold, rfl⟩
      · exact (hrows _).mpr (.inr ⟨hmem, hother j row' ((markedAt_of hj).trans hrow')⟩)
  · rcases hmarked j row hj with ⟨rfl, rfl⟩ | ⟨-, hj, hne⟩ <;>
      rcases hmarked k row' hk with ⟨rfl, rfl⟩ | ⟨-, hk, hne'⟩
    · rfl
    · exact absurd hrid.symm hne'
    · exact absurd hrid hne
    · exact h.apart j k row row' hj hk hrid
  · rcases (hrows r').mp hr' with rfl | ⟨hold, -⟩
    · refine .inl ⟨i, r, ?_, rfl⟩
      rw [markedAt_setPhase (s := s₁) hi, if_pos rfl]
      rfl
    · rcases h.stamped r' hold hstamp with ⟨j, row', hj, hrid⟩ | hjoined
      · have hji : j ≠ i := by
          rintro rfl
          rw [hnone] at hj
          cases hj
        refine .inl ⟨j, row', ?_, hrid⟩
        rw [markedAt_setPhase (s := s₁) hi, if_neg hji]
        exact hj
      · exact .inr hjoined
  · have hs := h.joined j hj
    refine ⟨hs.issued, fun k row' hk => ?_, fun r' hr' hrid => ?_⟩
    · rcases hmarked k row' hk with ⟨-, rfl⟩ | ⟨-, hk, -⟩
      · exact hseated j hj
      · exact hs.apart k row' hk
    · rcases (hrows r').mp hr' with rfl | ⟨hold, -⟩
      · exact absurd hrid (hseated j hj)
      · exact hs.row r' hold hrid

theorem markedAt_answered (hi : s.accepts[i]? = some a) {answer : AcceptAnswer}
    (hj : (s.setPhase i a (.answered answer)).markedAt j = some row) :
    j ≠ i ∧ s.markedAt j = some row := by
  rw [markedAt_setPhase hi] at hj
  split at hj
  · cases hj
  · next hji => exact ⟨hji, hj⟩

theorem Inv.seated (h : Inv env s) (hi : s.accepts[i]? = some a) (answer : AcceptAnswer)
    (hph : a.phase = .adding row maxMembers)
    (hjoins : (s.db.addMember (seat a row) maxMembers).2.joins = true)
    (hlive : s.db.isLive row.orgId = true) :
    Inv env (({ s with
      db := (s.db.addMember (seat a row) maxMembers).1
      joined := s.joined ++ [⟨row.id, a.user⟩] } : Invitations).setPhase i a
        (.answered answer)) := by
  have hok := h.phase i a hi
  unfold PhaseOk at hok
  rw [hph] at hok
  obtain ⟨⟨-, hissued, t, hmem⟩, -, haddr⟩ := hok
  obtain ⟨horgs, -, hmembers⟩ := s.db.addMember_kept (seat a row) maxMembers
  have hrow : s.markedAt i = some row := by
    rw [markedAt_of hi, hph]
    rfl
  have hlives : ∀ org, (s.db.addMember (seat a row) maxMembers).1.isLive org = s.db.isLive org := by
    intro org
    unfold Orgs.Db.isLive Orgs.Db.org?
    rw [horgs]
  let s₁ : Invitations := { s with
    db := (s.db.addMember (seat a row) maxMembers).1
    joined := s.joined ++ [⟨row.id, a.user⟩] }
  have hmarked : ∀ j row', (s₁.setPhase i a (.answered answer)).markedAt j = some row' →
      j ≠ i ∧ s.markedAt j = some row' :=
    fun j row' hj => markedAt_answered (s := s₁) hi hj
  refine ⟨h.issued, fun j b hj => ?_, fun j k row' row'' hj hk hid => ?_,
    fun r hr hstamp => ?_, fun j hj => ?_⟩
  · rcases getElem?_set_cases hj with ⟨-, rfl⟩ | ⟨-, hj⟩
    · trivial
    · refine (h.phase j b hj).carry (fun r hr => .inl ⟨r, hr, rfl⟩) (fun _ hid => hid)
        (fun org hsome => ?_) fun _ _ _ hmem => hmem
      show ((s.db.addMember (seat a row) maxMembers).1.org? org).isSome = true
      unfold Orgs.Db.org? at hsome ⊢
      rwa [horgs]
  · exact h.apart j k row' row'' (hmarked j row' hj).2 (hmarked k row'' hk).2 hid
  · rcases h.stamped r hr hstamp with ⟨j, row', hj, hid⟩ | ⟨j, hj, hid⟩
    · by_cases hji : j = i
      · rw [hji, hrow] at hj
        cases hj
        exact .inr ⟨_, List.mem_append_right _ List.mem_cons_self, hid⟩
      · refine .inl ⟨j, row', ?_, hid⟩
        rw [markedAt_setPhase (s := s₁) hi, if_neg hji]
        exact hj
    · exact .inr ⟨j, List.mem_append_left _ hj, hid⟩
  · rcases List.mem_append.mp hj with hj | hj
    · have hs := h.joined j hj
      refine ⟨hs.issued, fun k row' hk => hs.apart k row' (hmarked k row' hk).2,
        fun r hr hid => ?_⟩
      obtain ⟨hstamp, hrAddr, hmember, hrLive⟩ := hs.row r hr hid
      exact ⟨hstamp, hrAddr, hmembers _ _ hmember, (hlives r.orgId).trans hrLive⟩
    · obtain rfl := List.mem_singleton.mp hj
      refine ⟨hissued, fun k row' hk hid => ?_, fun r hr hid => ?_⟩
      · obtain ⟨hki, hk⟩ := hmarked k row' hk
        exact hki (h.apart k i row' row hk hrow hid)
      · have hsame : r = row.stamp (some t) := Rows.eq_of_key hr hmem hid
        rw [hsame]
        exact ⟨rfl, haddr, Orgs.Db.addMember_joins hjoins, (hlives row.orgId).trans hlive⟩

theorem Inv.unmarked (h : Inv env s) (hi : s.accepts[i]? = some a) (answer : AcceptAnswer)
    (hph : a.phase = .unmarking row current limit) :
    Inv env (({ s with
      rows := s.rows.update
        (fun r => r.id == row.id && r.orgId == row.orgId && r.acceptedAt.isSome)
        (Invitation.stamp none) (Invitation.stamp_id none) } : Invitations).setPhase i a
          (.answered answer)) := by
  have hrow : s.markedAt i = some row := by
    rw [markedAt_of hi, hph]
    rfl
  have hstamped := h.stampedAt hrow
  have hrows := hstamped.unmark_rows
  let s₁ : Invitations := { s with
    rows := s.rows.update
      (fun r => r.id == row.id && r.orgId == row.orgId && r.acceptedAt.isSome)
      (Invitation.stamp none) (Invitation.stamp_id none) }
  have hmarked : ∀ j row', (s₁.setPhase i a (.answered answer)).markedAt j = some row' →
      j ≠ i ∧ s.markedAt j = some row' :=
    fun j row' hj => markedAt_answered (s := s₁) hi hj
  refine ⟨fun r' hr' => ?_, fun j b hj => ?_, fun j k row' row'' hj hk hid => ?_,
    fun r' hr' hstamp => ?_, fun j hj => ?_⟩
  · rcases (hrows r').mp hr' with rfl | ⟨hold, -⟩
    · exact hstamped.issued
    · exact h.issued r' hold
  · rcases getElem?_set_cases hj with ⟨-, rfl⟩ | ⟨hji, hj⟩
    · trivial
    · refine (h.phase j b hj).carry (fun r' hr' => ?_) (fun _ hid => hid) (fun _ hsome => hsome)
        fun row' t hrow' hmem => ?_
      · rcases (hrows r').mp hr' with rfl | ⟨hold, -⟩
        · obtain ⟨t, hmem⟩ := hstamped.here
          exact .inl ⟨_, hmem, rfl⟩
        · exact .inl ⟨r', hold, rfl⟩
      · have hne : row'.id ≠ row.id := fun hid =>
          hji (h.apart j i row' row ((markedAt_of hj).trans hrow') hrow hid)
        exact (hrows _).mpr (.inr ⟨hmem, hne⟩)
  · exact h.apart j k row' row'' (hmarked j row' hj).2 (hmarked k row'' hk).2 hid
  · rcases (hrows r').mp hr' with rfl | ⟨hold, hne⟩
    · have hnot := not_pending_of_stamped hstamp
      rw [hstamped.pending] at hnot
      cases hnot
    · rcases h.stamped r' hold hstamp with ⟨j, row', hj, hrid⟩ | hjoined
      · have hji : j ≠ i := by
          rintro rfl
          rw [hrow] at hj
          cases hj
          exact hne hrid.symm
        refine .inl ⟨j, row', ?_, hrid⟩
        rw [markedAt_setPhase (s := s₁) hi, if_neg hji]
        exact hj
      · exact .inr hjoined
  · have hs := h.joined j hj
    refine ⟨hs.issued, fun k row' hk => hs.apart k row' (hmarked k row' hk).2,
      fun r' hr' hid => ?_⟩
    rcases (hrows r').mp hr' with rfl | ⟨hold, -⟩
    · exact absurd hid (hs.apart i _ hrow)
    · exact hs.row r' hold hid

theorem Inv.go (h : Inv env s) (hi : s.accepts[i]? = some a) (hgo : GoStep env s i a s') :
    Inv env s' := by
  cases hgo with
  | idle ph hnone hnone' hok =>
    refine h.quiet (quiet_accepts s _) rfl (fun j => ?_) fun j b hj => ?_
    · rw [markedAt_setPhase hi]
      split
      · next hji => rw [hji, markedAt_of hi, hnone, hnone']
      · rfl
    · rcases getElem?_set_cases hj with ⟨-, rfl⟩ | ⟨-, hj⟩
      · exact .inr hok
      · exact .inl hj
  | marked row maxMembers hph haffects => exact h.marked hi hph haffects
  | seated row maxMembers answer hph _ hjoins hlive => exact h.seated hi answer hph hjoins hlive
  | refused row maxMembers current limit hph =>
    have hok := h.phase i a hi
    unfold PhaseOk at hok
    rw [hph] at hok
    refine h.quiet (quiet_accepts s _) rfl (fun j => ?_) fun j b hj => ?_
    · rw [markedAt_setPhase hi]
      split
      · next hji =>
        rw [hji, markedAt_of hi, hph]
        rfl
      · rfl
    · rcases getElem?_set_cases hj with ⟨-, rfl⟩ | ⟨-, hj⟩
      · exact .inr hok.1
      · exact .inl hj
  | unmarked row current limit hph => exact h.unmarked hi _ hph

theorem quiet_tick (s : Invitations) (t : Time) : Quiet s { s with db := { s.db with now := t } } :=
  { Quiet.refl s with }

theorem inv_start (db : Orgs.Db) : Inv env (start db) where
  issued _ hr := absurd hr List.not_mem_nil
  phase _ _ hi := absurd (List.mem_of_getElem? hi) List.not_mem_nil
  apart i _ _ _ hi _ _ := by
    obtain ⟨a, ha, -⟩ := Option.bind_eq_some_iff.mp hi
    exact absurd (List.mem_of_getElem? ha) List.not_mem_nil
  stamped _ hr _ := absurd hr List.not_mem_nil
  joined _ hj := absurd hj List.not_mem_nil

theorem inv_step (h : Inv env s) (hsmooth : Smooth env s e) (hstep : step env s e = some s') :
    Inv env s' := by
  cases e with
  | tick t =>
    simp only [step, Option.ite_none_right_eq_some, Option.some.injEq] at hstep
    obtain ⟨-, rfl⟩ := hstep
    exact h.quiet (quiet_tick s t) rfl (fun _ => rfl) fun _ _ hj => .inl hj
  | redeem user key =>
    cases hstep
    refine h.quiet (quiet_accepts s _) rfl (fun j => ?_) fun j a hj => ?_
    · unfold markedAt
      dsimp only
      rw [List.getElem?_append]
      split
      · rfl
      · next hlt =>
        rw [List.getElem?_eq_none (not_lt.mp hlt)]
        cases hj : [(⟨user, .finding key⟩ : Accept)][j - s.accepts.length]? with
        | none => rfl
        | some a =>
          obtain rfl := List.mem_singleton.mp (List.mem_of_getElem? hj)
          rfl
    · rcases getElem?_snoc_cases hj with hj | ⟨-, rfl⟩
      · exact .inl hj
      · exact .inr trivial
  | go i fate plan =>
    obtain ⟨a, hi, hgo⟩ := Option.bind_eq_some_iff.mp hstep
    exact h.go hi (goStep_of_stepAccept h hi (hsmooth a hi) hgo)
  | create new =>
    simp only [step] at hstep
    split at hstep
    · cases hstep
    · next hfresh =>
      have hfresh : new.id ∉ s.issued := fun hmem => hfresh (List.contains_iff_mem.mpr hmem)
      split at hstep
      · cases hstep
        exact h
      · next row hrow =>
        cases hstep
        exact h.quiet (quiet_create hfresh hrow) rfl (fun _ => rfl) fun _ _ hj => .inl hj
  | revoke org id =>
    cases hstep
    exact h.quiet (quiet_revoke s org id) rfl (fun _ => rfl) fun _ _ hj => .inl hj
  | markDeclined org id =>
    cases hstep
    exact h.quiet (quiet_markDeclined s org id) rfl (fun _ => rfl) fun _ _ hj => .inl hj
  | deleteOrg org =>
    cases hstep
    exact h.quiet (quiet_deleteOrg hsmooth) rfl (fun _ => rfl) fun _ _ hj => .inl hj

/-! ## Atomic -/

theorem Inv.settled (h : Inv env s) (hquiescent : s.Quiescent) : s.Settled env := by
  intro r hr
  constructor
  · intro hstamp
    rcases h.stamped r hr hstamp with ⟨i, row, hi, -⟩ | ⟨j, hj, hid⟩
    · obtain ⟨a, ha, hrow⟩ := Option.bind_eq_some_iff.mp hi
      obtain ⟨answer, hanswer⟩ := hquiescent a (List.mem_of_getElem? ha)
      rw [hanswer] at hrow
      cases hrow
    · obtain ⟨-, haddr, hmember, hlive⟩ := (h.joined j hj).row r hr hid.symm
      exact ⟨j.user, hid ▸ hj, haddr, hmember, hlive⟩
  · rintro ⟨user, hj, -, -, -⟩
    exact ((h.joined _ hj).row r hr rfl).1

theorem accepts_of_step (he : ∀ j fate plan, e ≠ .go j fate plan) (hi : s.accepts[i]? = some a)
    (hstep : step env s e = some s') : s'.accepts[i]? = some a := by
  cases e with
  | tick t =>
    simp only [step, Option.ite_none_right_eq_some, Option.some.injEq] at hstep
    obtain ⟨-, rfl⟩ := hstep
    exact hi
  | redeem user key =>
    cases hstep
    exact (List.getElem?_append_left (List.getElem?_eq_some_iff.mp hi).1).trans hi
  | go j fate plan => exact absurd rfl (he j fate plan)
  | create new =>
    simp only [step] at hstep
    split at hstep
    · cases hstep
    · split at hstep <;> cases hstep <;> exact hi
  | revoke org id | markDeclined org id | deleteOrg org =>
    cases hstep
    exact hi

theorem GoStep.refusedAsBefore (hgo : GoStep env s i a s') (h : Inv env s)
    (hi : s.accepts[i]? = some a) : RefusedAsBefore s s' := by
  intro j b b' current limit hj hj' hne hanswer
  have hset : ∀ ph, (s.accepts.set i { a with phase := ph })[j]? = some b' →
      b = a ∧ b' = { a with phase := ph } := by
    intro ph hset
    rcases getElem?_set_cases hset with ⟨rfl, rfl⟩ | ⟨-, hsame⟩
    · exact ⟨Option.some.inj (hj.symm.trans hi), rfl⟩
    · exact absurd (Option.some.inj (hj.symm.trans hsame)) hne
  cases hgo with
  | idle ph hnone _ _ =>
    obtain ⟨rfl, rfl⟩ := hset _ hj'
    rw [hnone]
    rfl
  | marked row maxMembers _ _ =>
    obtain ⟨rfl, rfl⟩ := hset _ hj'
    cases hanswer
  | seated row maxMembers answer _ hother _ _ =>
    obtain ⟨rfl, rfl⟩ := hset _ hj'
    cases hanswer
    exact absurd rfl (hother current limit)
  | refused row maxMembers _ _ _ =>
    obtain ⟨rfl, rfl⟩ := hset _ hj'
    cases hanswer
  | unmarked row _ _ hph =>
    obtain ⟨rfl, rfl⟩ := hset _ hj'
    have hrow : b.phase.marked = some row := by
      rw [hph]
      rfl
    have hstamped := h.stampedAt ((markedAt_of hi).trans hrow)
    rw [hrow]
    exact ⟨hstamped.pending, (hstamped.unmark_rows row).mpr (.inl rfl)⟩

theorem Inv.refusedAsBefore (h : Inv env s) (hsmooth : Smooth env s e)
    (hstep : step env s e = some s') : RefusedAsBefore s s' := by
  by_cases hgo : ∃ i fate plan, e = .go i fate plan
  · obtain ⟨i, fate, plan, rfl⟩ := hgo
    obtain ⟨a, hi, hstep⟩ := Option.bind_eq_some_iff.mp hstep
    exact (goStep_of_stepAccept h hi (hsmooth a hi) hstep).refusedAsBefore h hi
  · intro i a a' current limit hi hi' hne
    have hsame := accepts_of_step (fun j fate plan he => hgo ⟨j, fate, plan, he⟩) hi hstep
    exact absurd (Option.some.inj (hsame.symm.trans hi')) hne

/-- **Redeeming an invitation is atomic along every smooth run**: where nothing is under way the
stamps are the members, and a refusal for lack of a seat gives the invitation back. -/
theorem redemption_atomic {db : Orgs.Db} (h : Run (step env) (Smooth env) (start db) s) :
    (s.Quiescent → s.Settled env) ∧
      ∀ e s', Smooth env s e → step env s e = some s' → RefusedAsBefore s s' := by
  have hinv : Inv env s := h.invariant (inv_start db) fun _ _ _ => inv_step
  exact ⟨hinv.settled, fun e s' => hinv.refusedAsBefore⟩

namespace One

def mailEnv : InvitationEnv where
  lower := toAsciiLowercase
  hashes := MagicLinks.plainHashes
  emailOf user := if user = 2 then "2@example.com" else "3@example.com"

def plan : Orgs.Plan := ⟨2, 2, 2, 2, 2, 2, 2, 2, 2, 2⟩

/-- User 1 has organisation 10, with a seat that is free. -/
def db : Orgs.Db where
  now := 0
  users := ⟨[⟨1, none⟩, ⟨2, none⟩, ⟨3, none⟩], by decide⟩
  accounts := .single ⟨1, some 1⟩
  orgs := .single ⟨10, "ten", "Ten", 1, none, 0⟩
  memberships := .single ⟨1, 10, .owner, 0⟩
  sessions := .empty
  targets := .empty
  heartbeats := .empty
  resources := []
  audit := []
  purgeQueue := .empty
  measurements := []

theorem solo_addMember_seat :
    Sql.solo Orgs.Db.apply (Orgs.addMember ⟨fun _ => plan, 30⟩) 6 db [] (.start ⟨10, 1, 2, .member⟩) =
      some ((db.addMember ⟨10, 1, 2, .member⟩ 2).1,
        .returned (db.addMember ⟨10, 1, 2, .member⟩ 2).2) :=
  Orgs.solo_addMember rfl

def invite (id : Uuid) (email token : String) : InvitationEvent :=
  .create ⟨id, 10, 1, email, .member, token, 0, 0, 168, 9⟩

def goes (i n : Nat) : List InvitationEvent := List.replicate n (.go i .ok plan)

/-- Two users are invited to the seat and both fit in.  The second has taken it when the first
is refused, whose stamp is to be taken back. -/
def race : List InvitationEvent :=
  ([invite 20 "2@example.com" "two", invite 30 "3@example.com" "three",
    .redeem 2 (.byToken "two"), .redeem 3 (.byId 30)] : List InvitationEvent) ++
  goes 0 5 ++ goes 1 7 ++ goes 0 2

/-- The first has the invitation back. -/
theorem redemption_atomic_race :
    ∃ s, Run (step mailEnv) (Smooth mailEnv) (start db) s ∧
      s.rows.rows.map (fun r => (r.id, r.acceptedAt.isSome)) = [(20, false), (30, true)] ∧
      s.Settled mailEnv := by
  have hrace : (steps (guarded (step mailEnv) fun s e => decide (Smooth mailEnv s e)) (start db)
      (race ++ goes 0 1)).any (fun s => decide (s.Quiescent ∧
        s.rows.rows.map (fun r => (r.id, r.acceptedAt.isSome)) = [(20, false), (30, true)])) =
      true := by
    decide +kernel
  obtain ⟨s, hrun, hs⟩ := exists_run_of_steps hrace
  obtain ⟨hquiescent, hrows⟩ := of_decide_eq_true hs
  have hsmooth : Run (step mailEnv) (Smooth mailEnv) (start db) s :=
    hrun.unguard fun _ _ hallow => of_decide_eq_true hallow
  exact ⟨s, hsmooth, hrows, (redemption_atomic hsmooth).1 hquiescent⟩

/-- A stamped row that nobody joined through. -/
def unseated (s : Invitations) : Bool :=
  s.rows.rows.any fun r => r.acceptedAt.isSome && s.joined.all (·.invitation != r.id)

theorem not_settled_of_unseated {s : Invitations} (h : unseated s = true) :
    ¬s.Settled mailEnv := by
  intro hsettled
  obtain ⟨r, hr, hcond⟩ := List.any_eq_true.mp h
  obtain ⟨hstamp, hnobody⟩ := Bool.and_eq_true_iff.mp hcond
  obtain ⟨user, hj, -⟩ := (hsettled r hr).mp hstamp
  have hother := List.all_eq_true.mp hnobody _ hj
  exact absurd rfl (bne_iff_ne.mp hother)

/-- The first redemption is refused for lack of a seat, and its row is not as it was read. -/
def torn (s s' : Invitations) : Bool :=
  s.accepts[0]?.any fun a => s'.accepts[0]?.any fun a' =>
    match a.phase, a'.phase with
    | .unmarking row _ _, .answered (.quotaExceeded _ _) => !s'.rows.rows.contains row
    | _, _ => false

theorem not_asBefore_of_torn {s s' : Invitations} (h : torn s s' = true) :
    ¬RefusedAsBefore s s' := by
  intro hbefore
  obtain ⟨a, ha, h⟩ := (Option.any_eq_true _ _).mp h
  obtain ⟨a', ha', h⟩ := (Option.any_eq_true _ _).mp h
  split at h
  · next row _ _ current limit hph hph' =>
    have hne : a ≠ a' := by
      rintro rfl
      cases hph.symm.trans hph'
    have hmarked : a.phase.marked = some row := by
      rw [hph]
      rfl
    have hback := hbefore 0 a a' current limit ha ha' hne hph'
    rw [hmarked] at hback
    rw [List.contains_iff_mem.mpr hback.2] at h
    cases h
  · cases h

/-- `add_member` fails for the one who is alone in asking, and the stamp stays.  In the race
the address is invited again before the stamp is taken back, and the index refuses. -/
theorem stamp_without_seat :
    (¬∀ (env : InvitationEnv) (db : Orgs.Db) (s : Invitations),
      Run (step env) (fun _ _ => True) (start db) s → s.Quiescent → s.Settled env) ∧
    ¬∀ (env : InvitationEnv) (db : Orgs.Db) (s : Invitations) (e : InvitationEvent)
      (s' : Invitations), Run (step env) (fun _ _ => True) (start db) s → step env s e = some s' →
      RefusedAsBefore s s' := by
  constructor
  · intro h
    have hfailed : (steps (step mailEnv) (start db)
        (invite 20 "2@example.com" "two" :: .redeem 2 (.byId 20) :: goes 0 6 ++
          ([.go 0 .failed plan] : List InvitationEvent))).any (fun s =>
            decide s.Quiescent && unseated s) = true := by
      decide +kernel
    obtain ⟨s, hrun, hs⟩ := exists_run_of_steps hfailed
    obtain ⟨hquiescent, hunseated⟩ := Bool.and_eq_true_iff.mp hs
    exact not_settled_of_unseated hunseated (h mailEnv db s hrun (of_decide_eq_true hquiescent))
  · intro h
    have htorn : (steps (step mailEnv) (start db)
        (race ++ [invite 40 "2@example.com" "again"])).any (fun s =>
          (step mailEnv s (.go 0 .ok plan)).any (torn s)) = true := by
      decide +kernel
    obtain ⟨s, hs, hnext⟩ := (Option.any_eq_true _ _).mp htorn
    obtain ⟨s', hstep, htorn⟩ := (Option.any_eq_true _ _).mp hnext
    exact not_asBefore_of_torn htorn (h mailEnv db s _ s' (.of_steps hs) hstep)

end One

end Invitations

end Uptimepage
